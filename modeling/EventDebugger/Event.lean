import EventDebugger.Scope
import EventDebugger.TypeRef

/-!
# Events

What the host notifies when a thread executes code.
-/

namespace EventDebugger

/-- A place in a source file. -/
structure Position where
  file : String
  line : Nat
deriving DecidableEq, Repr, Inhabited

/-- What happened. -/
inductive EventKind where
  /-- A line is about to be executed; `conditional` marks the condition of a control structure. -/
  | line (conditional : Bool)
  | call
  | return
  | classOpen
  | classClose
  | nativeCall (blockGiven : Bool)
  | nativeReturn (blockGiven : Bool)
  | raise (exception : Value)
deriving DecidableEq, Repr

/-- An event of a thread. -/
structure Event where
  kind : EventKind
  position : Option Position
  receiver : Option Value
  method : Option String
  enclosingType : Option TypeRef
  scope : Option Scope
deriving DecidableEq, Repr

/-- An event of which only the kind is known. -/
def Event.ofKind (kind : EventKind) : Event :=
  ⟨kind, none, none, none, none, none⟩

/-- Whether an event is the execution of a line. -/
def EventKind.isLine : EventKind → Bool
  | .line _ => true
  | _ => false

end EventDebugger
