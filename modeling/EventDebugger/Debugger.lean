import EventDebugger.Settings
import EventDebugger.ThreadTable

/-!
# The debugger

The state of a debugger and of its host. A session lasts from the activation of the debugger to its
deactivation; the ticket that lets a thread handle an event, the persistent breakpoints and the
contexts of the threads belong to it. Contexts that left the table can still be held by the
front-end, so all contexts ever made keep their address.
-/

namespace EventDebugger

/-- What lives while the debugger is active. -/
structure Session where
  table : ThreadTable
  registry : Registry
  /-- The thread that holds the ticket. -/
  holder : Option Thread
  /-- The threads that wait for the ticket, in the order of their arrival. -/
  waiting : List Thread
deriving DecidableEq, Repr, Inhabited

/-- What an exception keeps of the place where it was raised. -/
structure PostMortem where
  position : Position
  binding : Option Binding
  context : ContextId
deriving DecidableEq, Repr

/-- A debugger with its host. -/
structure Debugger where
  host : Host
  settings : Settings
  /-- All contexts, by address. -/
  contexts : Array Context
  /-- How many starts were not yet undone by a stop. -/
  startCount : Nat
  session : Option Session
  /-- The exception class that halts. -/
  catchpoint : Option String
  eventCount : Nat
  /-- The number of events at the last removal of the contexts of exited threads. -/
  prunedAt : Nat
  /-- The number of the context that halted last. -/
  lastHalted : Option Nat
  contextCount : Nat
  /-- How many breakpoints were added. A counter of 32 bits gives the same numbers to less than 2 ^ 32 of them. -/
  breakpointCount : Nat
  /-- How often the waiting threads were woken up. -/
  wakeups : Nat
  /-- What raised exceptions keep, by the number of the exception. -/
  postMortems : List (Nat × PostMortem)
deriving DecidableEq, Repr

namespace Debugger

/-- A debugger that was never started, over a new host. -/
def initial (settings : Settings) : Debugger where
  host := .initial
  settings := settings
  contexts := #[]
  startCount := 0
  session := none
  catchpoint := none
  eventCount := 0
  prunedAt := 0
  lastHalted := none
  contextCount := 0
  breakpointCount := 0
  wakeups := 0
  postMortems := []

/-- Whether the debugger is active. -/
def isStarted (d : Debugger) : Bool := d.session.isSome

/-- The session of an active debugger. -/
def activeSession (d : Debugger) : Except Error Session :=
  match d.session with
  | some session => .ok session
  | none => .error .notStarted

/-- Wakes up the threads that wait. -/
def wakeUp (d : Debugger) : Debugger := { d with wakeups := d.wakeups + 1 }

/-! ## Contexts by address -/

/-- The context at an address. -/
def context (d : Debugger) (id : ContextId) : Context :=
  d.contexts.getD id (.initial default 0 false)

/-- Changes the context at an address. -/
def updateContext (d : Debugger) (id : ContextId) (f : Context → Context) : Debugger :=
  { d with contexts := d.contexts.modify id f }

/-- Adds a context. -/
def addContext (d : Debugger) (context : Context) : ContextId × Debugger :=
  (d.contexts.size, { d with contexts := d.contexts.push context })

/-- What can be read from a context while the debugger is active. -/
def inspect {α : Type} (d : Debugger) (id : ContextId) (f : Context → Except Error α) :
    Except Error α :=
  if d.isStarted then f (d.context id) else .error .notStarted

/-- Commands a context while the debugger is active. -/
def command (d : Debugger) (id : ContextId) (f : Context → Except Error Context) :
    Except Error Debugger := do
  let context ← d.inspect id f
  return d.updateContext id fun _ => context

theorem context_updateContext (d : Debugger) (id other : ContextId) (f : Context → Context)
    (h : id < d.contexts.size) :
    (d.updateContext id f).context other =
      if other = id then f (d.context id) else d.context other := by
  simp only [context, updateContext, Array.getD_eq_getD_getElem?, Array.getElem?_modify]
  split
  · next heq =>
      subst heq
      simp [h]
  · next hne => rw [if_neg fun e => hne e.symm]

end Debugger

end EventDebugger
