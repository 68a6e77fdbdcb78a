import EventDebugger.Debugger.Tracking

/-!
# Suspension

A suspended context parks its thread on the next event. A thread that was running when it was
suspended is woken up when it is resumed; one that was sleeping is left to sleep.
-/

namespace EventDebugger

/-- Suspends a context whose thread has a status. Threads of any other status are left alone. -/
def Context.suspend (status : ThreadStatus) (context : Context) : Context :=
  match status with
  | .running => { context with suspended := true, wasRunning := true }
  | .sleeping => { context with suspended := true, wasRunning := false }
  | .other => context

/-- Resumes a context. -/
def Context.resume (context : Context) : Context := { context with suspended := false }

namespace Debugger

/-- Suspends the context at an address according to the status of its thread. -/
def suspendContext (d : Debugger) (id : ContextId) : Debugger :=
  d.updateContext id (Context.suspend (d.host.status (d.context id).thread))

/-- Suspends a context. -/
def suspend (d : Debugger) (id : ContextId) : Except Error Debugger := do
  let _ ← d.activeSession
  if (d.context id).suspended then throw .alreadySuspended
  else return d.suspendContext id

/-- Resumes a context. -/
def resume (d : Debugger) (id : ContextId) : Except Error Debugger := do
  let _ ← d.activeSession
  let context := d.context id
  if context.suspended then
    let d := d.updateContext id Context.resume
    return if context.wasRunning then d.wakeUp else d
  else throw .notSuspended

/-- The contexts of the live threads other than the current one. -/
def otherContexts (d : Debugger) (system : Nat) : Except Error (List ContextId × Debugger) := do
  let session ← d.activeSession
  let (current, d) := d.currentThread system
  let (ids, d) := d.rebuild session
  return (ids.filter fun id => (d.context id).thread != current, d)

/-- Suspends the contexts of all threads but the current one. -/
def suspendAll (d : Debugger) (system : Nat) : Except Error Debugger := do
  let (ids, d) ← d.otherContexts system
  return ids.foldl suspendContext d

/-- Resumes the contexts of all threads but the current one. -/
def resumeAll (d : Debugger) (system : Nat) : Except Error Debugger := do
  let (ids, d) ← d.otherContexts system
  let wake := ids.any fun id => (d.context id).suspended && (d.context id).wasRunning
  let d := ids.foldl (fun d id => d.updateContext id Context.resume) d
  return if wake then d.wakeUp else d

end Debugger

end EventDebugger
