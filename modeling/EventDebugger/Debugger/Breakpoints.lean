import EventDebugger.Debugger

/-!
# Breakpoints and catch-point

The persistent breakpoints of a session, the catch-point, and the temporary breakpoint of a context.
-/

namespace EventDebugger.Debugger

/-- Adds a persistent breakpoint under the next number. -/
def addBreakpoint (d : Debugger) (source : String) (target : BreakpointTarget)
    (guard : Option String) : Except Error (Breakpoint × Debugger) := do
  let session ← d.activeSession
  let bp : Breakpoint := ⟨d.breakpointCount + 1, source, target, guard⟩
  return (bp, { d with
    breakpointCount := d.breakpointCount + 1
    session := some { session with registry := session.registry.add bp } })

/-- Removes the persistent breakpoint with a number. -/
def removeBreakpoint (d : Debugger) (id : Nat) : Except Error (Option Breakpoint × Debugger) := do
  let session ← d.activeSession
  return (session.registry.find? id,
    { d with session := some { session with registry := session.registry.remove id } })

/-- The persistent breakpoints, in the order of their creation. -/
def breakpoints (d : Debugger) : Except Error (List Breakpoint) := do
  return (← d.activeSession).registry

/-- The exception class that halts when it is raised. -/
def activeCatchpoint (d : Debugger) : Except Error (Option String) := do
  let _ ← d.activeSession
  return d.catchpoint

/-- Sets or clears the exception class that halts. -/
def setCatchpoint (d : Debugger) (className : Option String) : Except Error Debugger := do
  let _ ← d.activeSession
  return { d with catchpoint := className }

/-- Sets the temporary breakpoint of a context. -/
def setTemporary (d : Debugger) (id : ContextId) (source : String) (target : BreakpointTarget)
    (guard : Option String) : Except Error (Breakpoint × Debugger) := do
  let bp : Breakpoint := ⟨0, source, target, guard⟩
  return (bp, ← d.command id fun context =>
    .ok { context with temporary := some bp, temporaryCount := context.temporaryCount + 1 })

/-- Clears the temporary breakpoint of a context. -/
def clearTemporary (d : Debugger) (id : ContextId) :
    Except Error (Option Breakpoint × Debugger) := do
  return (← d.inspect id fun context => .ok context.temporary,
    ← d.command id fun context => .ok { context with temporary := none })

end EventDebugger.Debugger
