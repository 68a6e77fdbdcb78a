import EventDebugger.CommandLine
import EventDebugger.Program.Reading
import EventDebugger.Recording

/-!
# The program

Reads the configuration and the program that the command line names, replays the program under the
recorder and writes what was recorded.
-/

namespace EventDebugger

namespace CommandLine

/-- How the program is called. -/
def usage : String := "Usage: event-debugger run --config <CONTENT/PATH> [--output <PATH>] <PROGRAM>"

/-- What is reported when a command line is refused. -/
def Refusal.message : Refusal → String
  | .helpWanted | .nothingGiven => usage
  | .unknownCommand => "unknown command\n" ++ usage
  | .unknownArgument => "unknown argument\n" ++ usage
  | .missingArgument => "an argument is missing\n" ++ usage
  | .invalidValue => "a value is missing\n" ++ usage
  | .repeatedOption => "an option is given twice\n" ++ usage
  | .tooManyValues => "a flag has a value\n" ++ usage

end CommandLine

/-- Yields a result that was read, or fails with a message. -/
def readOrFail {α : Type} (message : String) : Option α → IO α
  | some a => return a
  | none => throw (.userError message)

/-- Reads a configuration, from a file if it is the path of one. -/
def readConfig (config : String) : IO Config := do
  let text ← if Config.isPath config then IO.FS.readFile config else pure config
  readOrFail "the configuration is malformed" (Config.read? text)

/-- Runs what a command line asks for. -/
def runOptions (options : CommandLine.Options) : IO Unit := do
  let config ← readConfig options.config
  if let some output := options.output then IO.FS.writeFile output ""
  let text ← IO.FS.readFile options.program
  let program ← readOrFail "the program is malformed" (Program.read? text)
  match Recording.dump config program with
  | .error error => throw (.userError error.message)
  | .ok dump =>
      match options.output with
      | some output => IO.FS.writeFile output dump
      | none => IO.print dump

end EventDebugger

/-- Runs the program. -/
def main (arguments : List String) : IO UInt32 := do
  match EventDebugger.CommandLine.read arguments with
  | .error .helpWanted =>
      IO.println EventDebugger.CommandLine.usage
      return 0
  | .error refusal =>
      IO.eprintln refusal.message
      return 2
  | .ok options =>
      try
        EventDebugger.runOptions options
        return 0
      catch error =>
        IO.eprintln error
        return 1
