import EventDebugger.Debugger.Sections
import EventDebugger.Recorder
import EventDebugger.Replay

/-!
# Recording

Replaying a program under the recorder, as a configuration says.
-/

namespace EventDebugger

/-- Why nothing was recorded. -/
inductive RecordingError where
  /-- A breakpoint on this source is not for exactly one of a line and a method. -/
  | unclearBreakpoint (source : String)
  /-- A command of the debugger or of the recorder failed. -/
  | debugger (error : Error)
deriving DecidableEq, Repr

/-- What is reported to the user. -/
def RecordingError.message : RecordingError → String
  | .unclearBreakpoint source =>
      "breakpoint on `" ++ source ++ "` needs exactly one of `line` or `method`"
  | .debugger error => error.message

/-- The failure of an event, whoever failed. -/
def RecordingError.ofHook : HookError Error → RecordingError
  | .frontEnd error | .debugger error => .debugger error

namespace Config

/-- The settings of a configuration. -/
def settings (config : Config) : Settings :=
  { Settings.standard with
    tracing := config.tracing
    postMortem := config.postMortem
    keepFrameBinding := config.keepFrameBinding
    debug := config.debug
    pruneInterval := config.pruneInterval.getD Settings.standard.pruneInterval }

end Config

/-- A computation under the recorder that may fail. -/
abbrev Recording (α : Type) := ExceptT RecordingError (Run Recorder) α

namespace Recording

/-- A computation whose failure is one of the debugger. -/
def ofRun {α : Type} (run : Run Recorder (Except Error α)) : Recording α :=
  ExceptT.mk do return (← run).mapError .debugger

/-- Adds a configured breakpoint. -/
def addBreakpoint (bp : BreakConfig) : Recording Unit :=
  match bp.target? with
  | none => throw (.unclearBreakpoint bp.source)
  | some target => do
      let _ ← ofRun (Run.attempt fun d => d.addBreakpoint bp.source target bp.cond)

/-- The index of the first thread that does not belong to the debugger. -/
def firstStepped? (program : Program) : Option Nat :=
  program.threads.findIdx? fun decl => !decl.isDebugger

/-- Arms the initial step of the first thread that does not belong to the debugger. -/
def prepareThread (config : Config) (program : Program) (index : Nat) (thread : Thread) :
    Run Recorder (Except Error Unit) :=
  match config.step with
  | some steps =>
      if firstStepped? program = some index then
        Run.perform fun d => do
          let (id, d) ← d.threadContext thread
          d.command id fun context => context.step steps false
      else return .ok ()
  | none => return .ok ()

/-- Replays a program. -/
def replay (config : Config) (program : Program) : Recording Unit := do
  config.breakpoints.forM addBreakpoint
  ofRun (Run.perform fun d => d.setCatchpoint config.catchpoint)
  let result ← EventDebugger.replay Recorder.frontEnd 1 program (prepareThread config program)
  match result with
  | .ok () => return ()
  | .error error => throw (.ofHook error)

/-- What is recorded of a program. -/
def records (config : Config) (program : Program) : Except RecordingError (List Record) :=
  let (result, _, recorder) := (runStarted (replay config program).run).run
    (.initial config.settings, .initial config.continueWith)
  result.map fun () => recorder.records.toList

/-- The text of what is recorded of a program. -/
def dump (config : Config) (program : Program) : Except RecordingError String :=
  (records config program).map Record.dump

end Recording

end EventDebugger
