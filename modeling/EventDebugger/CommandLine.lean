/-!
# The command line

One command, `run`, with the options `-c`/`--config` and `-o`/`--output` and the path of a program. An
option takes the next argument as its value, or what is attached to it. A value that stands in an
argument of its own is checked when the next option or path is met, or at the end.
-/

namespace EventDebugger.CommandLine

/-- What the command line asks for. -/
structure Options where
  /-- The configuration, or the path of a file that holds it. -/
  config : String
  /-- Where the dump is written, the standard output if it is not given. -/
  output : Option String
  program : String
deriving DecidableEq, Repr

/-- Why the command line is refused, or that help is asked for. -/
inductive Refusal where
  | helpWanted
  /-- There is no argument at all. -/
  | nothingGiven
  | unknownCommand
  | unknownArgument
  | missingArgument
  /-- An option without value, or an empty path. -/
  | invalidValue
  | repeatedOption
  /-- A flag with a value. -/
  | tooManyValues
deriving DecidableEq, Repr

/-- What a value is given for. -/
inductive Slot where
  | config
  | output
  | program
deriving DecidableEq, Repr

/-- The arguments of the command that were read. -/
structure Parsed where
  config : Option String
  output : Option String
  program : Option String
  /-- What was met last, with its value if it has one, but was not yet checked. -/
  pending : Option (Slot × Option String)
  /-- After `--` all arguments are paths. -/
  pathsOnly : Bool
deriving DecidableEq, Repr

namespace Parsed

/-- Before any argument. -/
def empty : Parsed := ⟨none, none, none, none, false⟩

/-- The value of a slot. -/
def get? (parsed : Parsed) : Slot → Option String
  | .config => parsed.config
  | .output => parsed.output
  | .program => parsed.program

/-- Gives a slot its value. -/
def set (parsed : Parsed) (slot : Slot) (value : String) : Parsed :=
  match slot with
  | .config => { parsed with config := some value }
  | .output => { parsed with output := some value }
  | .program => { parsed with program := some value }

/-- Checks a value and gives it to its slot. Paths are not empty. -/
def accept (parsed : Parsed) (slot : Slot) (value : Option String) : Except Refusal Parsed :=
  match value with
  | none => .error .invalidValue
  | some value =>
      if (parsed.get? slot).isSome then .error .repeatedOption
      else if slot ≠ .config ∧ value = "" then .error .invalidValue
      else .ok (parsed.set slot value)

/-- Checks what was met last. -/
def settle (parsed : Parsed) : Except Refusal Parsed :=
  match parsed.pending with
  | none => .ok parsed
  | some (slot, value) => { parsed with pending := none }.accept slot value

/-- Meets an option, with its value if one is attached. -/
def meetOption (parsed : Parsed) (slot : Slot) (attached : Option String) :
    Except Refusal Parsed := do
  let parsed ← parsed.settle
  match attached with
  | some value => parsed.accept slot (some value)
  | none => return { parsed with pending := some (slot, none) }

/-- Meets the flag that asks for help. -/
def meetHelp (parsed : Parsed) : Except Refusal Parsed := do
  let _ ← parsed.settle
  throw .helpWanted

/-- Meets a path. There is one only. -/
def meetPath (parsed : Parsed) (path : String) : Except Refusal Parsed :=
  let given := parsed.program.isSome || parsed.pending.any fun pending => pending.1 == .program
  if given then .error .unknownArgument
  else do
    let parsed ← parsed.settle
    return { parsed with pending := some (.program, some path) }

/-- Whether an option still waits for its value. -/
def awaitsValue? (parsed : Parsed) : Option Slot :=
  match parsed.pending with
  | some (slot, none) => some slot
  | _ => none

end Parsed

/-- Splits a long option at the first equals sign. -/
def splitLong (cs : List Char) : String × Option String :=
  let name := String.ofList (cs.takeWhile (· != '='))
  match cs.dropWhile (· != '=') with
  | [] => (name, none)
  | _ :: value => (name, some (String.ofList value))

/-- The value attached to a short option, which an equals sign may precede. -/
def attached : List Char → Option String
  | [] => none
  | '=' :: cs => some (String.ofList cs)
  | cs => some (String.ofList cs)

/-- Reads a long option. -/
def readLong (parsed : Parsed) (cs : List Char) : Except Refusal Parsed :=
  match splitLong cs with
  | ("config", value) => parsed.meetOption .config value
  | ("output", value) => parsed.meetOption .output value
  | ("help", none) => parsed.meetHelp
  | ("help", some _) => .error .tooManyValues
  | _ => .error .unknownArgument

/-- Reads a short option. -/
def readShort (parsed : Parsed) (option : Char) (rest : List Char) : Except Refusal Parsed :=
  match option with
  | 'c' => parsed.meetOption .config (attached rest)
  | 'o' => parsed.meetOption .output (attached rest)
  | 'h' => parsed.meetHelp
  | _ => .error .unknownArgument

/-- Reads an argument of the command. -/
def readArgument (parsed : Parsed) (argument : String) : Except Refusal Parsed :=
  if parsed.pathsOnly then parsed.meetPath argument
  else
    match argument.toList with
    | ['-', '-'] => .ok { parsed with pathsOnly := true }
    | '-' :: '-' :: cs => readLong parsed cs
    | '-' :: c :: cs => readShort parsed c cs
    | _ =>
        match parsed.awaitsValue? with
        | some slot => .ok { parsed with pending := some (slot, some argument) }
        | none => parsed.meetPath argument

/-- Reads the arguments of the command. -/
def readRun (arguments : List String) : Except Refusal Options := do
  let parsed ← arguments.foldlM readArgument Parsed.empty
  let parsed ← parsed.settle
  match parsed.config, parsed.program with
  | some config, some program => return ⟨config, parsed.output, program⟩
  | _, _ => throw .missingArgument

/-- Reads what help is asked for. -/
def readHelp : List String → Refusal
  | [] | ["run"] | ["help"] => .helpWanted
  | _ => .unknownCommand

/-- Reads what stands in the place of the command when it is none. -/
def readNoCommand (argument : String) : Refusal :=
  match argument.toList with
  | '-' :: '-' :: cs =>
      match splitLong cs with
      | ("help", none) => .helpWanted
      | ("help", some _) => .tooManyValues
      | _ => .unknownArgument
  | '-' :: 'h' :: _ => .helpWanted
  | '-' :: _ :: _ => .unknownArgument
  | _ => .unknownCommand

/-- Reads the arguments of the program. -/
def read : List String → Except Refusal Options
  | [] | ["--"] => .error .nothingGiven
  | "--" :: command :: _ =>
      .error (if command = "run" ∨ command = "help" then .unknownArgument else .unknownCommand)
  | "run" :: arguments => readRun arguments
  | "help" :: names => .error (readHelp names)
  | argument :: _ => .error (readNoCommand argument)

end EventDebugger.CommandLine
