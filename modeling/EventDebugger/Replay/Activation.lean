import EventDebugger.Debugger
import EventDebugger.Replay.Action

/-!
# Activations

The state of a replayed thread: its activations, the outermost of which is the top-level code, and the
exception that is on its way. An action changes them and may yield an event, which describes the
innermost activation.
-/

namespace EventDebugger

/-- Top-level code, a call, a block or a class body that runs. -/
structure Activation where
  position : Position
  method : Option String
  type : Option TypeRef
  receiver : Value
  scope : Scope
deriving DecidableEq, Repr

/-- The activations of a thread and the exception that is on its way. -/
structure Activations where
  root : Activation
  /-- The activations inside the root, the innermost one first. -/
  inner : List Activation
  raised : Option Value
deriving DecidableEq, Repr

namespace Activations

/-- The activations of a thread that starts, with the scope of its top-level code. -/
def start (scope : Scope) : Activations :=
  ⟨⟨⟨"<main>", 0⟩, none, some ⟨"Object"⟩, .object "Object", scope⟩, [], none⟩

/-- The innermost activation. -/
def top (activations : Activations) : Activation := activations.inner.headD activations.root

/-- Changes the innermost activation. -/
def modifyTop (activations : Activations) (f : Activation → Activation) : Activations :=
  match activations.inner with
  | [] => { activations with root := f activations.root }
  | activation :: rest => { activations with inner := f activation :: rest }

/-- Enters an activation. -/
def push (activations : Activations) (activation : Activation) : Activations :=
  { activations with inner := activation :: activations.inner }

/-- Leaves the innermost activation. -/
def pop (activations : Activations) : Activations :=
  { activations with inner := activations.inner.tail }

/-- An event of the innermost activation. -/
def event (activations : Activations) (kind : EventKind) : Event :=
  let top := activations.top
  ⟨kind, some top.position, some top.receiver, top.method, top.type, some top.scope⟩

/-- An event of a native method that the innermost activation calls. -/
def nativeEvent (activations : Activations) (kind : EventKind) (method : String)
    (type : Option String) : Event :=
  let event := activations.event kind
  { event with
    method := some method
    enclosingType := (type.map TypeRef.mk).or event.enclosingType }

/-- The activation of a call from the innermost one. -/
def called (activations : Activations) (method : String) (type file : Option String)
    (line : Option Nat) (scope : Scope) : Activation :=
  let caller := activations.top
  let type := (type.map TypeRef.mk).or caller.type
  { position := ⟨file.getD caller.position.file, line.getD caller.position.line⟩
    method := some method
    type
    receiver := match type with
      | some type => .object type.name
      | none => caller.receiver
    scope }

/-- The activation of a class body inside the innermost one. -/
def classBody (activations : Activations) (name : String) (line : Option Nat) (scope : Scope) :
    Activation :=
  let caller := activations.top
  { position := ⟨caller.position.file, line.getD caller.position.line⟩
    method := none
    type := some ⟨name⟩
    receiver := .object "Class"
    scope }

end Activations

/-- What an action yields: an event if it notifies one, and the new state. -/
structure Performed where
  event : Option Event
  activations : Activations
  host : Host
deriving DecidableEq, Repr

/-- Performs an action of a thread. -/
def Action.perform (action : Action) (thread : Thread) (activations : Activations) (host : Host) :
    Performed :=
  match action with
  | .line file number conditional =>
      let activations := activations.modifyTop fun top => { top with position := ⟨file, number⟩ }
      ⟨some (activations.event (.line conditional)), activations, host⟩
  | .call method type file number =>
      let (scope, scopes) := host.scopes.enterMethod
      let activations := activations.push (activations.called method type file number scope)
      ⟨some (activations.event .call), activations, { host with scopes }⟩
  | .callReturn => ⟨some (activations.event .return), activations.pop, host⟩
  | .nativeCall method type blockGiven =>
      ⟨some (activations.nativeEvent (.nativeCall blockGiven) method type), activations, host⟩
  | .nativeReturn method type blockGiven =>
      ⟨some (activations.nativeEvent (.nativeReturn blockGiven) method type), activations, host⟩
  | .enterBlock =>
      let (scope, scopes) := host.scopes.enterBlock activations.top.scope
      ⟨none, activations.push { activations.top with scope }, { host with scopes }⟩
  | .leaveBlock => ⟨none, activations.pop, host⟩
  | .openClass name number =>
      let (scope, scopes) := host.scopes.enterMethod
      let activations := activations.push (activations.classBody name number scope)
      ⟨some (activations.event .classOpen), activations, { host with scopes }⟩
  | .closeClass => ⟨some (activations.event .classClose), activations.pop, host⟩
  | .bareReturn method =>
      ⟨some { activations.event .return with method := some method }, activations, host⟩
  | .assign name value =>
      let scopes := host.scopes.assign activations.top.scope name (Value.parse value)
      ⟨none, activations, { host with scopes }⟩
  | .fallAsleep => ⟨none, activations, host.setStatus thread .sleeping⟩
  | .wakeUp => ⟨none, activations, host.setStatus thread .running⟩
  | .raise className =>
      let (exception, host) := host.newException className
      ⟨some (activations.event (.raise exception)),
        { activations with raised := some exception }, host⟩
  | .rescue => ⟨none, { activations with raised := none }, host⟩

end EventDebugger
