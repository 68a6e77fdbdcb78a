import EventDebugger.Event
import EventDebugger.FileName
import EventDebugger.Text.Decimal

/-!
# Breakpoints

A breakpoint halts on a line of a file or on the entry of a method of a type, if its guard holds.
Persistent breakpoints are kept in a registry in the order of their creation and are told apart by
numbers from one on; a temporary breakpoint belongs to one context and has the number zero.
-/

namespace EventDebugger

/-- What a breakpoint waits for. -/
inductive BreakpointTarget where
  | line (number : Nat)
  | method (name : String)
deriving DecidableEq, Repr

/-- A breakpoint. Its source is a file for a line and a type for a method. -/
structure Breakpoint where
  id : Nat
  source : String
  target : BreakpointTarget
  guard : Option String
deriving DecidableEq, Repr

namespace Breakpoint

/-- Temporary breakpoints have the number zero. -/
def isTemporary (bp : Breakpoint) : Bool := bp.id == 0

/-- Whether a breakpoint stands on a position. -/
def matchesPosition (bp : Breakpoint) (position : Position) : Bool :=
  match bp.target with
  | .line number => number == position.line && FileName.matches? bp.source position.file
  | .method _ => false

/-- Whether a breakpoint stands on the entry of a method of a type. -/
def matchesMethod (bp : Breakpoint) (typeName method : Option String) : Bool :=
  match bp.target with
  | .method name => method == some name && typeName == some bp.source
  | .line _ => false

/-- The text of a breakpoint: `file:line` or `Type#method`, and its guard. -/
def text (bp : Breakpoint) : String :=
  let place := match bp.target with
    | .line number => bp.source ++ ":" ++ String.ofList (Text.Decimal.render number)
    | .method name => bp.source ++ "#" ++ name
  match bp.guard with
  | some guard => place ++ " if " ++ guard
  | none => place

end Breakpoint

/-- The persistent breakpoints of a session, in the order of their creation. -/
abbrev Registry := List Breakpoint

namespace Registry

/-- Adds a breakpoint after all others. -/
def add (registry : Registry) (bp : Breakpoint) : Registry := registry ++ [bp]

/-- The first breakpoint with a number. -/
def find? (registry : Registry) (id : Nat) : Option Breakpoint :=
  List.find? (fun bp : Breakpoint => bp.id == id) registry

/-- Removes the first breakpoint with a number. -/
def remove (registry : Registry) (id : Nat) : Registry :=
  List.eraseP (fun bp : Breakpoint => bp.id == id) registry

end Registry

end EventDebugger
