import EventDebugger.Debugger

/-!
# Activation

Starts are counted: the debugger is deactivated by as many stops as there were starts, or by force.
A session that ends takes its breakpoints and contexts with it and wakes up all waiting threads.
-/

namespace EventDebugger.Debugger

/-- A session in which nothing happened. -/
def newSession : Session := ⟨.empty, [], none, []⟩

/-- Starts the debugger, and tells whether it was not active before. -/
def start (d : Debugger) : Bool × Debugger :=
  let d := { d with startCount := d.startCount + 1 }
  match d.session with
  | some _ => (false, d)
  | none => (true, { d with session := some newSession })

/-- Ends the session. -/
def deactivate (d : Debugger) : Debugger := { d with session := none }.wakeUp

/-- Undoes a start, and tells whether the debugger was deactivated. -/
def stop (d : Debugger) : Except Error (Bool × Debugger) := do
  let _ ← d.activeSession
  let d := { d with startCount := d.startCount - 1 }
  return if d.startCount > 0 then (false, d) else (true, d.deactivate)

/-- Undoes all starts. -/
def forceStop (d : Debugger) : Debugger :=
  let d := { d with startCount := 0 }
  if d.isStarted then d.deactivate else d

end EventDebugger.Debugger
