import EventDebugger.Breakpoint
import EventDebugger.Kdl.Reader
import EventDebugger.Kdl.Schema

/-!
# Configurations

How a program is to be debugged without a user: the settings, the breakpoints, and the command that
is given after every halt.
-/

namespace EventDebugger

open Kdl (Node Value)

/-- The command that is given after every halt. -/
inductive ResumeMode where
  | continue
  /-- Halt on the next line. -/
  | step
  /-- Halt on the next line of the frame or of its caller. -/
  | next
  /-- Halt when the frame has returned. -/
  | finish
deriving DecidableEq, Repr

/-- A breakpoint as it is configured: on a line or on a method. -/
structure BreakConfig where
  source : String
  line : Option Nat
  method : Option String
  cond : Option String
deriving DecidableEq, Repr

/-- A configuration. -/
structure Config where
  keepFrameBinding : Bool
  postMortem : Bool
  tracing : Bool
  debug : Bool
  pruneInterval : Option Nat
  catchpoint : Option String
  breakpoints : List BreakConfig
  /-- The lines after which the first thread halts. -/
  step : Option Nat
  continueWith : ResumeMode
deriving DecidableEq, Repr

/-- What a configured breakpoint waits for, if it is exactly one thing. -/
def BreakConfig.target? (config : BreakConfig) : Option BreakpointTarget :=
  match config.line, config.method with
  | some line, none => some (.line line)
  | none, some method => some (.method method)
  | _, _ => none

/-- Reads a breakpoint. -/
def BreakConfig.read? (node : Node) : Option BreakConfig :=
  match node.arguments with
  | [source] => do
      guard (node.hasOnly ["line", "method", "cond"] && node.children.isEmpty)
      return ⟨← source.text?, ← node.optionalNatural 32 "line", ← node.optionalText "method",
        ← node.optionalText "cond"⟩
  | _ => none

/-- The mode with a name. -/
def ResumeMode.ofName? : String → Option ResumeMode
  | "continue" => some .continue
  | "step" => some .step
  | "next" => some .next
  | "finish" => some .finish
  | _ => none

namespace Config

/-- The configuration of an empty document. -/
def standard : Config := ⟨false, false, false, false, none, none, [], none, .continue⟩

/-- Adds what a node configures. -/
def addNode? (config : Config) (node : Node) : Option Config :=
  match node.name with
  | "keep-frame-binding" => do
      guard node.isFlag
      return { config with keepFrameBinding := true }
  | "post-mortem" => do
      guard node.isFlag
      return { config with postMortem := true }
  | "tracing" => do
      guard node.isFlag
      return { config with tracing := true }
  | "debug" => do
      guard node.isFlag
      return { config with debug := true }
  | "prune-interval" => do
      return { config with pruneInterval := some (← (← node.soleArgument?).natural? 64) }
  | "catchpoint" => do
      return { config with catchpoint := some (← (← node.soleArgument?).text?) }
  | "break" => do
      return { config with breakpoints := config.breakpoints ++ [← BreakConfig.read? node] }
  | "step" => do
      return { config with step := some (← (← node.soleArgument?).natural? 32) }
  | "continue-with" => do
      let name ← (← node.soleArgument?).text?
      return { config with continueWith := ← ResumeMode.ofName? name }
  | _ => none

/-- Whether the nodes other than breakpoints have different names. -/
def hasDistinctNodes (document : Kdl.Document) : Bool :=
  let names := (document.map Node.name).filter (· != "break")
  decide names.Nodup

/-- Reads a configuration. -/
def read? (text : String) : Option Config := do
  let document ← Kdl.Reader.document? text
  guard (hasDistinctNodes document)
  document.foldlM addNode? standard

/-- The last component of a path: trailing separators and single dots are passed over, and a double
dot or a leading dot is no name. -/
def fileName? (path : String) : Option String :=
  let parts := path.splitOn "/"
  let named := match parts with
    | first :: rest => first :: rest.filter (· != ".")
    | [] => []
  match (named.filter (· != "")).getLast? with
  | some name => if name = "." ∨ name = ".." then none else some name
  | none => none

/-- Whether a text is taken for the path of a configuration file: its last component ends in `.kdl`
and has something before that. -/
def isPath (text : String) : Bool :=
  match fileName? text with
  | some name => name.toList.length > 4 && ".kdl".toList.isSuffixOf name.toList
  | none => false

end Config

end EventDebugger
