import EventDebugger.Debugger.Handling
import EventDebugger.Replay.Activation

/-!
# Replay

Running a program under the debugger. Each thread of the program runs on a system thread of its own
and performs its actions one after the other; the events among them are handled by the debugger. The
first event that fails ends its thread. An exception that nothing caught enters its post-mortem.

`ReplayThread.step` is one move of a thread, so a run of the program is any sequence of such moves.
`replay` lets the threads move in turn, each one as far as it gets.
-/

namespace EventDebugger

/-- Where a replayed thread stands. -/
inductive ReplayPhase (ε : Type) where
  | starting
  | running (activations : Activations) (actions : List Action)
  /-- The event of the last action waits. -/
  | waiting (activations : Activations) (actions : List Action) (pending : PendingEvent)
  | exited (result : HookResult ε)

/-- A thread of a program that is replayed. -/
structure ReplayThread (ε : Type) where
  thread : Thread
  system : Nat
  steps : List Step
  phase : ReplayPhase ε

variable {σ ε : Type}

namespace ReplayThread

/-- Ends a thread. -/
def exit (t : ReplayThread ε) (result : HookResult ε) : Run σ (ReplayThread ε) := do
  Run.onDebugger fun d => ((), { d with host := d.host.exitThread t.thread })
  return { t with phase := .exited result }

/-- Goes on after an event. -/
def afterEvent (t : ReplayThread ε) (activations : Activations) (actions : List Action)
    (progress : Progress ε) : Run σ (ReplayThread ε) :=
  match progress with
  | .finished (.ok ()) => return { t with phase := .running activations actions }
  | .finished (.error error) => t.exit (.error error)
  | .waiting pending => return { t with phase := .waiting activations actions pending }

/-- Notifies an event of a thread, after the scope of the event was entered. -/
def emit (front : FrontEnd σ ε) (system : Nat) (event : Event) : Run σ (Progress ε) := do
  match event.scope with
  | some scope =>
      Run.onDebugger fun d => ((), { d with host := d.host.enterScope system scope })
  | none => pure ()
  handleEvent front system event

/-- Enters the post-mortem of an exception that nothing caught, if the debugger is active and the
exception has one. -/
def uncaught (front : FrontEnd σ ε) (system : Nat) (exception : Value) : Run σ (HookResult ε) := do
  let d ← Run.debugger
  if d.isStarted then
    match d.postMortem? exception with
    | some postMortem => handlePostMortem front system postMortem
    | none => return .ok ()
  else return .ok ()

/-- Performs an action. -/
def perform (front : FrontEnd σ ε) (t : ReplayThread ε) (activations : Activations)
    (action : Action) (actions : List Action) : Run σ (ReplayThread ε) := do
  let performed ← Run.onDebugger fun d =>
    let performed := action.perform t.thread activations d.host
    (performed, { d with host := performed.host })
  match performed.event with
  | none => return { t with phase := .running performed.activations actions }
  | some event =>
      let progress ← emit front t.system event
      t.afterEvent performed.activations actions progress

/-- Ends a thread that has no more actions. -/
def finish (front : FrontEnd σ ε) (t : ReplayThread ε) (activations : Activations) :
    Run σ (ReplayThread ε) := do
  match activations.raised with
  | none => t.exit (.ok ())
  | some exception =>
      let result ← uncaught front t.system exception
      t.exit result

/-- One move of a thread: it starts, performs an action, goes on with an event that waited, or ends. -/
def step (front : FrontEnd σ ε) (t : ReplayThread ε) : Run σ (ReplayThread ε) := do
  match t.phase with
  | .starting =>
      let scope ← Run.onDebugger fun d =>
        let (scope, scopes) := d.host.scopes.enterMethod
        (scope, { d with host := { d.host with scopes }.bind t.system t.thread })
      return { t with phase := .running (.start scope) (Step.toActionsAll t.steps).actions }
  | .running activations (action :: actions) => t.perform front activations action actions
  | .running activations [] => t.finish front activations
  | .waiting activations actions pending =>
      let progress ← continueEvent front pending
      t.afterEvent activations actions progress
  | .exited _ => return t

/-- Whether a thread can move. -/
def canMove (d : Debugger) (t : ReplayThread ε) : Bool :=
  match t.phase with
  | .exited _ => false
  | .waiting _ _ pending => d.isAwake pending
  | _ => true

/-- How many moves a thread needs at most if it does not wait. -/
def movesLeft (t : ReplayThread ε) : Nat :=
  match t.phase with
  | .starting => (Step.toActionsAll t.steps).actions.length + 2
  | .running _ actions => actions.length + 1
  | .waiting _ actions _ => actions.length + 2
  | .exited _ => 0

/-- Lets a thread move as far as it gets, but not more often than `n` times. -/
def advance (front : FrontEnd σ ε) : Nat → ReplayThread ε → Run σ (ReplayThread ε)
  | 0, t => return t
  | n + 1, t => do
      if t.canMove (← Run.debugger) then
        let t ← t.step front
        t.advance front n
      else return t

/-- The error that ended a thread. -/
def error? (t : ReplayThread ε) : Option (HookError ε) :=
  match t.phase with
  | .exited (.error error) => some error
  | _ => none

end ReplayThread

/-- Lets each thread move as far as it gets, in order. Yields the first error that ended one. -/
def replayRound (front : FrontEnd σ ε) :
    List (ReplayThread ε) → Run σ (Option (HookError ε) × List (ReplayThread ε))
  | [] => return (none, [])
  | t :: ts => do
      let moved ← t.advance front t.movesLeft
      let (error, others) ← replayRound front ts
      let own := if t.error?.isNone then moved.error? else none
      return (own.or error, moved :: others)

/-- Lets the threads move in turn until none can, in at most `n` rounds. Yields the first error. -/
def replayRounds (front : FrontEnd σ ε) :
    Nat → List (ReplayThread ε) → Run σ (Option (HookError ε))
  | 0, _ => return none
  | n + 1, threads => do
      let d ← Run.debugger
      if threads.any fun t => t.canMove d then
        let (error, threads) ← replayRound front threads
        let later ← replayRounds front n threads
        return error.or later
      else return none

/-- Registers the threads of a program, on the system threads from `system` on. -/
def spawnThreads (system : Nat) : List ThreadDecl → Run σ (List (ReplayThread ε))
  | [] => return []
  | decl :: decls => do
      let thread ← Run.onDebugger fun d =>
        let (thread, host) := d.host.register decl.name
        let host := if decl.isDebugger then host.setDebuggerThread thread else host
        (thread, { d with host })
      let threads ← spawnThreads (system + 1) decls
      return ⟨thread, system, decl.steps, .starting⟩ :: threads

/-- Prepares each thread before any of them starts. The first failure ends the preparation. -/
def prepareThreads (spawned : Nat → Thread → Run σ (Except Error Unit)) (index : Nat) :
    List (ReplayThread ε) → Run σ (Except Error Unit)
  | [] => return .ok ()
  | t :: ts => do
      match ← spawned index t.thread with
      | .error error => return .error error
      | .ok () => prepareThreads spawned (index + 1) ts

/-- Ends threads that never started. -/
def abandonThreads : List (ReplayThread ε) → Run σ Unit
  | [] => return ()
  | t :: ts => do
      Run.onDebugger fun d => ((), { d with host := d.host.exitThread t.thread })
      abandonThreads ts

/-- Replays a program. `spawned` is called on each thread before any of them starts; if it fails,
none starts. -/
def replay (front : FrontEnd σ ε) (system : Nat) (program : Program)
    (spawned : Nat → Thread → Run σ (Except Error Unit)) : Run σ (HookResult ε) := do
  Run.onDebugger fun d => ((), { d with host := d.host.declare program })
  let threads : List (ReplayThread ε) ← spawnThreads system program.threads
  match ← prepareThreads spawned 0 threads with
  | .error error =>
      abandonThreads threads
      return .error (.debugger error)
  | .ok () =>
      let rounds := threads.foldl (fun n t => n + t.movesLeft) 1
      match ← replayRounds front rounds threads with
      | some error => return .error error
      | none => return .ok ()

end EventDebugger
