import EventDebugger.Debugger.Dispatch
import EventDebugger.Debugger.Suspension
import EventDebugger.Debugger.Ticket

/-!
# Handling of events

The way of an event through the debugger: it arrives, its thread asks for the ticket, the event is
dispatched, the ticket is given back. The front-end is a function that may change the debugger and a
state of its own, and may fail, which is then the result of the event.

A thread that has to wait for the ticket or for its context to be resumed stays behind as a
`PendingEvent`, which goes on when what it waits for has come.
-/

namespace EventDebugger

/-- A computation over a debugger and the state `σ` of its front-end. -/
abbrev Run (σ α : Type) := StateM (Debugger × σ) α

namespace Run

variable {σ α : Type}

/-- Reads the debugger. -/
def debugger : Run σ Debugger := do return (← get).1

/-- Changes the debugger. -/
def onDebugger (f : Debugger → α × Debugger) : Run σ α := fun (d, s) =>
  let (a, d) := f d
  (a, d, s)

/-- Changes the debugger if that succeeds. -/
def attempt (f : Debugger → Except Error (α × Debugger)) : Run σ (Except Error α) :=
  onDebugger fun d =>
    match f d with
    | .ok (a, d) => (.ok a, d)
    | .error error => (.error error, d)

/-- Changes the debugger if that succeeds. -/
def perform (f : Debugger → Except Error Debugger) : Run σ (Except Error Unit) :=
  attempt fun d => (f d).map fun d => ((), d)

/-- Reads the state of the front-end. -/
def front : Run σ σ := do return (← get).2

/-- Changes the state of the front-end. -/
def onFront (f : σ → α × σ) : Run σ α := fun (d, s) =>
  let (a, s) := f s
  (a, d, s)

/-- Changes the state of the front-end. -/
def modifyFront (f : σ → σ) : Run σ Unit := onFront fun s => ((), f s)

end Run

/-- A front-end: what it does when it is called on a system thread. -/
abbrev FrontEnd (σ ε : Type) := Nat → Callback → Run σ (Except ε Unit)

/-- The result of an event or of a post-mortem. -/
abbrev HookResult (ε : Type) := Except (HookError ε) Unit

/-- An event whose thread waits. -/
structure PendingEvent where
  system : Nat
  thread : Thread
  context : ContextId
  event : Event
  waiting : Waiting
  /-- The number of wake-ups when the thread started to wait. -/
  since : Nat
deriving DecidableEq, Repr

/-- How far an event got. -/
inductive Progress (ε : Type) where
  | finished (result : HookResult ε)
  | waiting (pending : PendingEvent)

namespace Debugger

/-- The arrival of an event on a system thread: the thread and its context, unless the event is of no
interest. -/
def arrive (d : Debugger) (system : Nat) (event : Event) :
    Option (Thread × ContextId) × Debugger :=
  if d.isStarted then
    let (thread, d) := d.currentThread system
    let d := { d with eventCount := d.eventCount + 1 }
    if Host.isAllocator event.method then (none, d)
    else
      match d.session with
      | none => (none, d)
      | some session =>
          let (id, d) := d.track session thread
          if (d.context id).ignored then (none, d) else (some (thread, id), d)
  else (none, d)

/-- Whether a thread that waits can go on: it was woken up, and finds that its wait is over. -/
def isAwake (d : Debugger) (pending : PendingEvent) : Bool :=
  decide (pending.since < d.wakeups) && d.isOver pending.thread pending.context pending.waiting

end Debugger

variable {σ ε : Type}

/-- Calls the front-end until the event is done or the front-end fails. At most `n` calls are made. -/
def Outcome.drive (front : FrontEnd σ ε) (system : Nat) (id : ContextId) :
    Nat → Outcome → Run σ (HookResult ε)
  | _, .done => return .ok ()
  | 0, .call _ _ => return .ok ()
  | n + 1, .call callback next => do
      match ← front system callback with
      | .error error => return .error (.frontEnd error)
      | .ok () =>
          let outcome ← Run.onDebugger fun d => next.run d system id
          outcome.drive front system id n

/-- Calls the front-end until the event is done or the front-end fails. -/
def Outcome.complete (front : FrontEnd σ ε) (system : Nat) (id : ContextId) (outcome : Outcome) :
    Run σ (HookResult ε) :=
  outcome.drive front system id outcome.rank

/-- Dispatches an event while the ticket is held, and gives the ticket back. -/
def handleWithTicket (front : FrontEnd σ ε) (system : Nat) (id : ContextId) (event : Event) :
    Run σ (HookResult ε) := do
  let outcome ← Run.onDebugger fun d => d.dispatch system id event
  let result ← outcome.complete front system id
  Run.onDebugger fun d => ((), d.release)
  return result

/-- Asks for the ticket and handles the event, or starts to wait. -/
def contendAndHandle (front : FrontEnd σ ε) (system : Nat) (thread : Thread) (id : ContextId)
    (event : Event) (granted : Bool) : Run σ (Progress ε) := do
  match ← Run.onDebugger fun d => d.contend thread id granted with
  | .ticket => return .finished (← handleWithTicket front system id event)
  | .dropped => return .finished (.ok ())
  | .wait waiting =>
      return .waiting ⟨system, thread, id, event, waiting, (← Run.debugger).wakeups⟩

/-- Handles an event of the thread that runs on a system thread, as far as it gets. -/
def handleEvent (front : FrontEnd σ ε) (system : Nat) (event : Event) : Run σ (Progress ε) := do
  match ← Run.onDebugger fun d => d.arrive system event with
  | none => return .finished (.ok ())
  | some (thread, id) => contendAndHandle front system thread id event false

/-- Goes on with an event whose thread waits, if what it waits for has come. -/
def continueEvent (front : FrontEnd σ ε) (pending : PendingEvent) : Run σ (Progress ε) := do
  if (← Run.debugger).isAwake pending then
    contendAndHandle front pending.system pending.thread pending.context pending.event
      (pending.waiting == .queued)
  else return .waiting pending

namespace Debugger

/-- Prepares the entry into a post-mortem: suspends the other threads and turns tracing off. Yields
the current context with the settings of tracing before. -/
def enterPostMortem (d : Debugger) (system : Nat) :
    Except Error (ContextId × Bool × Bool) × Debugger :=
  match d.currentContext system with
  | (.error error, d) => (.error error, d)
  | (.ok id, d) =>
      let before := (id, d.settings.tracing, (d.context id).tracing)
      match d.suspendAll system with
      | .error error => (.error error, d)
      | .ok d =>
          let d := { d with settings := { d.settings with tracing := false } }
          (.ok before, d.updateContext id fun context => { context with tracing := false })

/-- Restores what was changed on the entry into a post-mortem. -/
def leavePostMortem (d : Debugger) (system : Nat) (before : ContextId × Bool × Bool) :
    Except Error Unit × Debugger :=
  let d := { d with settings := { d.settings with tracing := before.2.1 } }
  match d.command before.1 fun context => .ok { context with tracing := before.2.2 } with
  | .error error => (.error error, d)
  | .ok d =>
      match d.resumeAll system with
      | .error error => (.error error, d)
      | .ok d => (.ok (), d)

end Debugger

/-- Calls the front-end on the dead context of a post-mortem, with the other threads suspended and
tracing turned off meanwhile. One without frames is passed over. -/
def handlePostMortem (front : FrontEnd σ ε) (system : Nat) (postMortem : PostMortem) :
    Run σ (HookResult ε) := do
  if ((← Run.debugger).context postMortem.context).stack.isEmpty then return .ok ()
  match ← Run.onDebugger fun d => d.enterPostMortem system with
  | .error error => return .error (.debugger error)
  | .ok before =>
      let result ← front system (.line postMortem.context postMortem.position)
      match ← Run.onDebugger fun d => d.leavePostMortem system before with
      | .error error => return .error (.debugger error)
      | .ok () => return result.mapError .frontEnd

end EventDebugger
