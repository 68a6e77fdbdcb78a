import EventDebugger.Kdl.Reader
import EventDebugger.Kdl.Schema
import EventDebugger.Program

/-!
# Reading programs

A program is a document with nodes `type`, `exception` and `thread`; the children of a thread are its
steps. Nodes, arguments and properties other than those of the schema make the text no program.
-/

namespace EventDebugger

open Kdl (Node Value)

namespace Step

/-- The step of a node whose children, read as steps, are `body`. -/
def ofNode? (node : Node) (body : List Step) : Option Step :=
  let leaf := node.hasOnly [] && node.children.isEmpty
  match node.name, node.arguments with
  | "line", [file, number] => do
      guard leaf
      return .line (← file.text?) (← number.natural? 32)
  | "branch", [file, number] => do
      guard leaf
      return .branch (← file.text?) (← number.natural? 32)
  | "call", [method] => do
      guard (node.hasOnly ["type", "file", "line"])
      return .call (← method.text?) (← node.optionalText "type") (← node.optionalText "file")
        (← node.optionalNatural 32 "line") body
  | "native-call", [method] => do
      guard (node.hasOnly ["type"])
      return .nativeCall (← method.text?) (← node.optionalText "type") body
  | "class", [name] => do
      guard (node.hasOnly ["line"])
      return .classBody (← name.text?) (← node.optionalNatural 32 "line") body
  | "return", [method] => do
      guard leaf
      return .bareReturn (← method.text?)
  | "set", [name, value] => do
      guard leaf
      return .assign (← name.text?) (← value.text?)
  | "sleep", [millis] => do
      guard leaf
      return .sleep (← millis.natural? 64)
  | "pause", [millis] => do
      guard leaf
      return .pause (← millis.natural? 64)
  | "raise", [className] => do
      guard leaf
      return .raise (← className.text?)
  | "rescue", [] => do
      guard (node.hasOnly [])
      return .rescue body
  | "repeat", [count] => do
      guard (node.hasOnly [])
      return .repeat (← count.natural? 32) body
  | _, _ => none

mutual

/-- Reads a step. -/
def read? : Node → Option Step
  | .mk tag name entries children => do
      ofNode? (.mk tag name entries children) (← readAll? children)

/-- Reads steps. -/
def readAll? : List Node → Option (List Step)
  | [] => some []
  | node :: nodes => do
      let step ← read? node
      let steps ← readAll? nodes
      return step :: steps

end

end Step

/-- Reads the declaration of a type. -/
def TypeDecl.read? (node : Node) : Option TypeDecl :=
  match node.arguments with
  | [name] => do
      guard (node.hasOnly ["kind"] && node.children.isEmpty)
      return ⟨← name.text?, ← node.optionalText "kind"⟩
  | _ => none

/-- Reads the declaration of an exception class. -/
def ExceptionDecl.read? (node : Node) : Option ExceptionDecl :=
  match node.arguments with
  | [name] => do
      guard (node.hasOnly ["parent"] && node.children.isEmpty)
      return ⟨← name.text?, ← node.optionalText "parent"⟩
  | _ => none

/-- Reads a thread. -/
def ThreadDecl.read? (node : Node) : Option ThreadDecl :=
  match node.arguments with
  | [name] => do
      guard (node.hasOnly ["role"])
      return ⟨← name.text?, ← node.optionalText "role", ← Step.readAll? node.children⟩
  | _ => none

namespace Program

/-- The program without declarations and threads. -/
def empty : Program := ⟨[], [], []⟩

/-- Adds what a node declares. -/
def addNode? (program : Program) (node : Node) : Option Program :=
  match node.name with
  | "type" => do
      return { program with types := program.types ++ [← TypeDecl.read? node] }
  | "exception" => do
      return { program with exceptions := program.exceptions ++ [← ExceptionDecl.read? node] }
  | "thread" => do
      return { program with threads := program.threads ++ [← ThreadDecl.read? node] }
  | _ => none

/-- Reads a program. -/
def read? (text : String) : Option Program := do
  (← Kdl.Reader.document? text).foldlM addNode? empty

end Program

end EventDebugger
