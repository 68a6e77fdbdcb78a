import EventDebugger.Program.Reading
import EventDebugger.Replay
import EventDebugger.Script.Primitives

/-!
# Notification

The commands of a script that call the front-end: events, jobs, post-mortems and replays. The
front-end is a parameter.
-/

namespace EventDebugger.Script

open Attempt

/-- The raised value of an event. -/
def raised : RaisedRef → Attempt Value
  | .new className => onHost (·.newException className)
  | .value ref => value ref

/-- The event that is referred to. -/
def EventRef.build (ref : EventRef) : Attempt Event := do
  let receiver ← ref.receiver.mapM value
  let scope ← ref.scope.mapM Attempt.scope
  let kind ← match ref.kind with
    | .plain kind => pure kind
    | .raise raisedRef => do pure (.raise (← raised raisedRef))
  return ⟨kind, ref.position, receiver, ref.method, ref.enclosingType.map TypeRef.mk, scope⟩

/-- Notifies an event on a system thread, after the thread and the scope of the event were entered. -/
def notify (front : FrontEnd State String) (system : Nat) (ref : EventRef) :
    Attempt (Progress String) := do
  if let some name := ref.thread then
    let thread ← thread name
    modifyHost (·.bind system thread)
  let event ← ref.build
  if let some scope := event.scope then
    if ref.enters then modifyHost (·.enterScope system scope)
  ofRun (handleEvent front system event)

/-- The reply to the result of an event. -/
def replyTo : HookResult String → Attempt Reply
  | .ok () => return .done
  | .error error => throw (.ofHook error)

/-- Notifies an event. -/
def notifyHere (front : FrontEnd State String) (place : Place) (ref : EventRef) : Attempt Reply := do
  match ← notify front place.system ref with
  | .finished result => replyTo result
  | .waiting _ => return .done

/-! ## Jobs -/

/-- The phase of a job after its event got somewhere. -/
def JobPhase.after : Except Failure (Progress String) → JobPhase
  | .ok (.finished (.ok ())) => .finished (.ok ())
  | .ok (.finished (.error error)) => .finished (.error (.ofHook error))
  | .ok (.waiting pending) => .waiting pending
  | .error failure => .finished (.error failure)

/-- Notifies an event on a new system thread. The context of its thread is made before. -/
def startJob (front : FrontEnd State String) (label : String) (ref : EventRef) : Attempt Reply := do
  if let some name := ref.thread then
    let thread ← thread name
    let _ ← ofRun (Run.attempt fun d => d.threadContext thread)
  let system ← ofRun (Run.onFront (State.takeSystems 1))
  let index ← ofRun (Run.onFront (State.addJob label))
  let progress ← ofRun (notify front system ref).run
  modifyState (State.setPhase index (.after progress))
  return .spawned

/-- Lets the jobs that can go on do so, the first one first, in at most `n` moves. -/
def settle (front : FrontEnd State String) : Nat → Run State Unit
  | 0 => return ()
  | n + 1 => do
      match (← Run.front).awake? (← Run.debugger) with
      | none => return ()
      | some (index, pending) =>
          Run.modifyFront (State.setPhase index .running)
          let progress ← continueEvent front pending
          Run.modifyFront (State.setPhase index (.after (.ok progress)))
          settle front n

/-! ## Post-mortems and replays -/

/-- Enters a post-mortem. -/
def enterPostMortem (front : FrontEnd State String) (place : Place) (ref : PostMortemRef) :
    Attempt Reply := do
  let postMortem ← postMortem ref
  replyTo (← ofRun (handlePostMortem front place.system postMortem))

/-- Prepares the context of a replayed thread. -/
def Preparation.apply (preparation : Preparation) (thread : Thread) :
    Run State (Except Error Unit) := ExceptT.run do
  let id ← ExceptT.mk (Run.attempt fun d => d.threadContext thread)
  if let some n := preparation.step then
    ExceptT.mk (Run.perform fun d => d.command id fun context => context.step n preparation.force)
  if let some tracing := preparation.tracing then
    ExceptT.mk (Run.perform fun d => d.command id fun context => .ok { context with tracing })

/-- Prepares the context of the replayed thread with an index. -/
def prepareReplayed (prepared : List (Option Preparation)) (index : Nat) (thread : Thread) :
    Run State (Except Error Unit) :=
  match prepared[index]?.join with
  | some preparation => preparation.apply thread
  | none => return .ok ()

/-- The program that is referred to. -/
def ProgramRef.program : ProgramRef → Attempt Program
  | .given program => return program
  | .written text =>
      match Program.read? text with
      | some program => return program
      | none => throw .malformedProgram

/-- Replays a program on new system threads. -/
def replayProgram (front : FrontEnd State String) (ref : ProgramRef)
    (prepared : List (Option Preparation)) : Attempt Reply := do
  let program ← ref.program
  let system ← ofRun (Run.onFront (State.takeSystems program.threads.length))
  replyTo (← ofRun (replay front system program (prepareReplayed prepared)))

end EventDebugger.Script
