import BehaviorMachine.CommandLine.Arguments
/-!
The texts of help and version.
-/
namespace BehaviorMachine

def programName : String := "behavior-profile"

def versionText : String := programName ++ " 0.1.0\n"

/-- Lines of text. -/
def textOfLines (lines : List String) : String := String.join (lines.map (· ++ "\n"))

def HelpTopic.text : HelpTopic → String
  | .program => textOfLines
    ["Validate, hash, and simulate behavior profiles",
      "",
      "Usage: behavior-profile [OPTIONS] <COMMAND>",
      "",
      "Commands:",
      "  validate  Check a profile document for authoring errors",
      "  hash      Print the canonical hash of a profile document",
      "  simulate  Run a profile against a scripted host",
      "  help      Print this message or the help of the given subcommand(s)",
      "",
      "Options:",
      "      --config <PATH>  Path to the runtime config file",
      "  -h, --help           Print help",
      "  -V, --version        Print version"]
  | .validate => textOfLines
    ["Check a profile document for authoring errors",
      "",
      "Usage: behavior-profile validate [OPTIONS] <PROFILE>",
      "",
      "Arguments:",
      "  <PROFILE>  Profile JSON document",
      "",
      "Options:",
      "      --config <PATH>  Path to the runtime config file",
      "  -h, --help           Print help"]
  | .hash => textOfLines
    ["Print the canonical hash of a profile document",
      "",
      "Usage: behavior-profile hash [OPTIONS] <PROFILE>",
      "",
      "Arguments:",
      "  <PROFILE>  Profile JSON document",
      "",
      "Options:",
      "      --config <PATH>  Path to the runtime config file",
      "  -h, --help           Print help"]
  | .simulate => textOfLines
    ["Run a profile against a scripted host",
      "",
      "Usage: behavior-profile simulate [OPTIONS] <PROFILE> <SCRIPT>",
      "",
      "Arguments:",
      "  <PROFILE>  Profile JSON document",
      "  <SCRIPT>   Host script JSON document",
      "",
      "Options:",
      "      --config <PATH>       Path to the runtime config file",
      "      --session <PATH>      Session JSON to resume from",
      "      --session-out <PATH>  Where to write the resulting session JSON",
      "  -h, --help                Print help"]
  | .help => textOfLines
    ["Print this message or the help of the given subcommand(s)",
      "",
      "Usage: behavior-profile help [COMMAND]...",
      "",
      "Arguments:",
      "  [COMMAND]...  Print help for the subcommand(s)"]

/-- What is printed when the arguments are wrong. -/
def misuseText : String :=
  textOfLines
    ["error: the arguments are not understood",
      "",
      "Usage: behavior-profile [OPTIONS] <COMMAND>",
      "",
      "For more information, try '--help'."]

end BehaviorMachine
