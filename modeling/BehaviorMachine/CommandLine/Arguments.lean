/-!
The arguments of the program. Options stand anywhere among the operands of their command, as
`--name value` or `--name=value`. Two dashes end the options. The first argument that asks for help or
is wrong decides, but a wrong value in an argument of its own right before the name of a command yields
to help that is asked for after the name.
-/
namespace BehaviorMachine

inductive Command where
  | validate (profile : String)
  | hash (profile : String)
  | simulate (profile script : String) (session sessionOut : Option String)
  deriving DecidableEq

/-- The commands about which help can be had. -/
inductive HelpTopic where
  | program
  | validate
  | hash
  | simulate
  | help
  deriving DecidableEq

/-- What the arguments ask for. -/
inductive Invocation where
  | command (config : Option String) (command : Command)
  | help (topic : HelpTopic)
  | version
  | misuse
  deriving DecidableEq

/-- An argument by its form. -/
inductive Argument where
  | operand (text : String)
  | long (name : String) (value : Option String)
  /-- Letters after a single dash. -/
  | letters (first : Char)
  | endOfOptions
  deriving DecidableEq

def Argument.ofString (text : String) : Argument :=
  match text.toList with
  | ['-', '-'] => .endOfOptions
  | '-' :: '-' :: rest =>
    match rest.dropWhile (· ≠ '=') with
    | [] => .long (.ofList rest) none
    | _ :: value => .long (.ofList (rest.takeWhile (· ≠ '='))) (some (.ofList value))
  | '-' :: c :: _ => .letters c
  | _ => .operand text

/-- The options and operands that were given so far, in order. -/
structure Given where
  options : List (String × String)
  operands : List String

namespace Given

def option? (g : Given) (name : String) : Option String :=
  (g.options.find? (·.1 = name)).map Prod.snd

/-- Add an option. It may be given once, and its value is not empty. -/
def addOption? (g : Given) (name value : String) : Option Given :=
  if (g.option? name).isSome ∨ value = "" then none
  else some { g with options := g.options ++ [(name, value)] }

/-- Add an operand, which is not empty. -/
def addOperand? (limit : Nat) (g : Given) (text : String) : Option Given :=
  if limit ≤ g.operands.length ∨ text = "" then none
  else some { g with operands := g.operands ++ [text] }

end Given

/-- Why the arguments of a command are not read to their end. -/
inductive Stop where
  | help
  | misuse

/-- Read the arguments of a command with some options and at most so many operands. -/
def Given.read (options : List String) (limit : Nat) (g : Given) : List String → Except Stop Given
  | [] => .ok g
  | text :: rest =>
    match Argument.ofString text with
    | .endOfOptions => (rest.foldlM (Given.addOperand? limit) g).elim (.error .misuse) .ok
    | .letters c => .error (if c = 'h' then .help else .misuse)
    | .operand text =>
      match g.addOperand? limit text with
      | some g => g.read options limit rest
      | none => .error .misuse
    | .long name value =>
      if name = "help" ∧ value = none then .error .help
      else if options.contains name then
        match value, rest with
        | some value, rest =>
          match g.addOption? name value with
          | some g => g.read options limit rest
          | none => .error .misuse
        | none, value :: rest =>
          match Argument.ofString value with
          | .operand value =>
            match g.addOption? name value with
            | some g => g.read options limit rest
            | none => .error .misuse
          | _ => .error .misuse
        | none, [] => .error .misuse
      else .error .misuse

namespace Invocation

/-- Read the arguments of a command, and build it from them. -/
def ofCommand (topic : HelpTopic) (config : Option String) (options : List String) (limit : Nat)
    (build : Given → Option Command) (arguments : List String) : Invocation :=
  match (⟨[], []⟩ : Given).read ("config" :: options) limit arguments with
  | .error .help => .help topic
  | .error .misuse => .misuse
  | .ok given =>
    match build given with
    | some built => .command ((given.option? "config").or config) built
    | none => .misuse

def helpOn : List String → Invocation
  | [] => .help .program
  | ["validate"] => .help .validate
  | ["hash"] => .help .hash
  | ["simulate"] => .help .simulate
  | ["help"] => .help .help
  | _ => .misuse

/-- A command by its name, with its arguments. -/
def ofName (config : Option String) (name : String) (arguments : List String) : Invocation :=
  match name with
  | "validate" =>
    ofCommand .validate config [] 1
      (fun given =>
        match given.operands with
        | [profile] => some (.validate profile)
        | _ => none)
      arguments
  | "hash" =>
    ofCommand .hash config [] 1
      (fun given =>
        match given.operands with
        | [profile] => some (.hash profile)
        | _ => none)
      arguments
  | "simulate" =>
    ofCommand .simulate config ["session", "session-out"] 2
      (fun given =>
        match given.operands with
        | [profile, script] =>
          some (.simulate profile script (given.option? "session") (given.option? "session-out"))
        | _ => none)
      arguments
  | "help" => helpOn arguments
  | _ => .misuse

/-- Help that is asked for, where anything else is misuse. -/
def helpOnly : Invocation → Invocation
  | help topic => help topic
  | _ => misuse

/-- Read arguments after a wrong value. Only a command can still be asked for its help. -/
def readMisused : List String → Invocation
  | [] => .misuse
  | text :: rest =>
    match Argument.ofString text with
    | .operand name => (ofName none name rest).helpOnly
    | _ => .misuse

/-- Read arguments up to the name of a command. A settings file given there yields to one given after
the name. -/
def read (config : Option String) : List String → Invocation
  | [] => .misuse
  | text :: rest =>
    match Argument.ofString text with
    | .endOfOptions => .misuse
    | .letters c => if c = 'h' then .help .program else if c = 'V' then .version else .misuse
    | .operand name => ofName config name rest
    | .long "help" none => .help .program
    | .long "version" none => .version
    | .long "config" (some value) =>
      if config.isSome ∨ value = "" then .misuse else read (some value) rest
    | .long "config" none =>
      match rest with
      | value :: rest =>
        match Argument.ofString value with
        | .operand value =>
          if config.isSome ∨ value = "" then readMisused rest else read (some value) rest
        | _ => .misuse
      | [] => .misuse
    | .long _ _ => .misuse

def ofArguments (arguments : List String) : Invocation := read none arguments

end Invocation

end BehaviorMachine
