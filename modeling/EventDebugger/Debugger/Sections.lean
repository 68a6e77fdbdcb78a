import EventDebugger.Debugger.Handling

/-!
# Sections

Running code between a start and a stop, from a fresh call stack, without being debugged, or with
post-mortems turned on. What a section changes is restored when it ends.
-/

namespace EventDebugger

variable {σ α : Type}

/-- Runs a section between a start and a stop. -/
def runStarted (body : Run σ α) : Run σ α := do
  let _ ← Run.onDebugger Debugger.start
  let a ← body
  let _ ← Run.attempt Debugger.stop
  return a

/-- Prepares the current context for code that is loaded: its call stack is emptied, and a halt on the
first line is armed if wanted. -/
def Debugger.prepareLoad (d : Debugger) (system : Nat) (stop : Bool) :
    Except Error Unit × Debugger :=
  match d.currentContext system with
  | (.error error, d) => (.error error, d)
  | (.ok id, d) =>
      let d := d.updateContext id fun context => { context with stack := [] }
      if stop then
        match d.command id Context.interrupt with
        | .error error => (.error error, d)
        | .ok d => (.ok (), d)
      else (.ok (), d)

/-- Runs a section between a start and a stop, from a fresh call stack of the current context. -/
def runLoaded (system : Nat) (stop : Bool) (body : Run σ α) : Run σ (Except Error α) :=
  runStarted do
    match ← Run.onDebugger fun d => d.prepareLoad system stop with
    | .error error => return .error error
    | .ok () => return .ok (← body)

/-- Runs a section whose events on the current context are not handled. -/
def runSkipped (system : Nat) (body : Run σ α) : Run σ α := do
  match ← Run.onDebugger fun d => d.currentContext system with
  | .error _ => body
  | .ok id =>
      let before := ((← Run.debugger).context id).skipped
      Run.onDebugger fun d => ((), d.updateContext id fun context => { context with skipped := true })
      let a ← body
      Run.onDebugger fun d =>
        ((), d.updateContext id fun context => { context with skipped := before })
      return a

/-- Turns post-mortems on or off while the debugger is active. -/
def Debugger.setPostMortem (d : Debugger) (on : Bool) : Except Error Debugger := do
  let _ ← d.activeSession
  return { d with settings := { d.settings with postMortem := on } }

/-- Turns post-mortems on, unless they are on already. -/
def Debugger.beginPostMortem (d : Debugger) : Except Error Debugger :=
  if d.settings.postMortem then .error .postMortemActive else d.setPostMortem true

/-- Runs a section with post-mortems turned on. -/
def runWithPostMortem (body : Run σ α) : Run σ (Except Error α) := do
  match ← Run.perform Debugger.beginPostMortem with
  | .error error => return .error error
  | .ok () =>
      let a ← body
      Run.onDebugger fun d =>
        ((), { d with settings := { d.settings with postMortem := false } })
      return .ok a

end EventDebugger
