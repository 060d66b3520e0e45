import BehaviorMachine.CommandLine.Execution
/-!
The program `behavior-profile` on the files of the machine.
-/
namespace BehaviorMachine

/-- Read a file of the machine. -/
def readContent (path : FilePath) : IO FileContent := do
  try
    return .bytes (← IO.FS.readBinFile path.text)
  catch
    | .noFileOrDirectory .. => return .missing
    | _ => return .unreadable

/-- Write a file of the machine, and tell whether that succeeded. -/
def writeContent (path : FilePath) (content : ByteArray) : IO Bool := do
  try
    IO.FS.writeBinFile path.text content
    return true
  catch _ => return false

/-- Carry out a program on the files of the machine. -/
def FileProgram.perform {α : Type} : FileProgram α → IO α
  | .done result => return result
  | .read path next => do (next (← readContent path)).perform
  | .write path content next => do (next (← writeContent path content)).perform

end BehaviorMachine

open BehaviorMachine in
def main (arguments : List String) : IO UInt32 := do
  let environment ← IO.getEnv Settings.pathVariable
  let printed ← ((Invocation.ofArguments arguments).perform environment).perform
  IO.print printed.output
  IO.eprint printed.errors
  return printed.exitCode
