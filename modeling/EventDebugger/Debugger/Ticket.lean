import EventDebugger.Debugger

/-!
# The ticket

An event is handled by the thread that holds the ticket, one thread at a time. A thread that finds the
ticket taken waits in a queue, and a thread that gives it back hands it to the first one of the queue.
A thread that holds the ticket while its context is suspended hands it on and parks.

A waiting thread looks at its situation again only after a wake-up. What it waits for therefore comes
with the number of wake-ups at that time.
-/

namespace EventDebugger

/-- Why a thread waits with its event. -/
inductive Waiting where
  /-- For the ticket. -/
  | queued
  /-- For its context to be resumed. -/
  | parked
deriving DecidableEq, Repr

/-- What a thread that asked for the ticket gets. -/
inductive Turn where
  | ticket
  /-- The event is dropped: the debugger is not active, or the thread already holds the ticket. -/
  | dropped
  | wait (waiting : Waiting)
deriving DecidableEq, Repr

/-- Hands the ticket to the first thread that waits. -/
def Session.handOver (session : Session) : Session :=
  { session with holder := session.waiting.head?, waiting := session.waiting.tail }

/-- Adds a thread to those that wait, once. -/
def Session.enqueue (session : Session) (thread : Thread) : Session :=
  if session.waiting.contains thread then session
  else { session with waiting := session.waiting ++ [thread] }

namespace Debugger

/-- Lets the holder of the ticket go on, or park if its context is suspended. -/
def letIn (d : Debugger) (session : Session) (id : ContextId) : Turn × Debugger :=
  if (d.context id).suspended then
    let d := { d with session := some session.handOver }.wakeUp
    (.wait .parked, d.updateContext id fun context => { context with wasRunning := true })
  else (.ticket, { d with session := some session })

/-- Asks for the ticket. `granted` tells whether it was handed over after waiting. -/
def contend (d : Debugger) (thread : Thread) (id : ContextId) (granted : Bool) : Turn × Debugger :=
  match d.session with
  | none => (.dropped, d)
  | some session =>
      match session.holder with
      | none => d.letIn { session with holder := some thread } id
      | some holder =>
          if holder = thread then
            if granted then d.letIn session id else (.dropped, d)
          else (.wait .queued, { d with session := some (session.enqueue thread) })

/-- Whether what a thread waits for has come: it left the queue or its context was resumed, or the
session is over. -/
def isOver (d : Debugger) (thread : Thread) (id : ContextId) : Waiting → Bool
  | .queued => d.session.all fun session => !session.waiting.contains thread
  | .parked => d.session.isNone || !(d.context id).suspended

/-- Removes the contexts of exited threads, once enough events have passed. -/
def pruneWhenDue (d : Debugger) (session : Session) : Session × Debugger :=
  if d.eventCount - d.prunedAt > d.settings.pruneInterval then
    ({ session with table := session.table.prune d.host.isAlive }, { d with prunedAt := d.eventCount })
  else (session, d)

/-- Gives the ticket back after an event. -/
def release (d : Debugger) : Debugger :=
  match d.session with
  | none => d.wakeUp
  | some session =>
      let (session, d) := d.pruneWhenDue session
      { d with session := some session.handOver }.wakeUp

end Debugger

end EventDebugger
