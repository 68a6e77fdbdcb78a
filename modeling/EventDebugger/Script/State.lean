import EventDebugger.Debugger.Handling
import EventDebugger.Script.Command
import EventDebugger.Script.Inspection

/-!
# The state of a script

The names that a script gave, the scripts that the calls of the front-end execute, the jobs that wait,
and the calls of the front-end during the present step.
-/

namespace EventDebugger.Script

/-- The kinds of calls of the front-end. -/
inductive CallbackKind where
  | line
  | breakpoint
  | catchpoint
  | tracing
deriving DecidableEq, Repr

/-- The kind of a call. -/
def CallbackKind.of : Callback → CallbackKind
  | .line .. => .line
  | .breakpoint .. => .breakpoint
  | .catchpoint .. => .catchpoint
  | .tracing .. => .tracing

/-- Where a job stands. -/
inductive JobPhase where
  /-- Its event is being handled. -/
  | running
  | waiting (pending : PendingEvent)
  | finished (result : Except Failure Unit)

/-- An event that is notified on a system thread of its own. -/
structure Job where
  label : String
  phase : JobPhase

/-- The pending event of a job that waits. -/
def Job.pending? (job : Job) : Option PendingEvent :=
  match job.phase with
  | .waiting pending => some pending
  | _ => none

/-- The report of a job that finished. -/
def Job.report? (job : Job) : Option JobReport :=
  match job.phase with
  | .finished result => some ⟨job.label, result⟩
  | _ => none

/-- The state of a script. -/
structure State where
  /-- The labels of threads, the latest first. -/
  threads : List (String × Thread)
  exceptions : List (String × Value)
  scopes : List (String × Scope)
  contexts : List (String × ContextId)
  /-- What the calls of each kind execute, one list for a call. -/
  scripts : List (CallbackKind × List Command)
  /-- In the order of their creation. -/
  jobs : List Job
  /-- The calls of the front-end during the present step. -/
  log : Array CallbackReport
  /-- The number of system threads that were made beside the first one. -/
  systemCount : Nat

namespace State

/-- The state in which a script starts. -/
def initial (scripts : List (CallbackKind × List Command)) : State :=
  ⟨[], [], [], [], scripts, [], #[], 0⟩

/-- Takes the next commands for a kind of calls. -/
def takeScript (state : State) (kind : CallbackKind) : Option (List Command) × State :=
  match state.scripts.find? fun entry => entry.1 == kind with
  | some entry =>
      (some entry.2, { state with scripts := state.scripts.eraseP fun entry => entry.1 == kind })
  | none => (none, state)

/-- Starts a step with an empty log, and yields the one before. -/
def startLog (state : State) : Array CallbackReport × State := (state.log, { state with log := #[] })

/-- Ends a step, goes back to a log, and yields that of the step. -/
def endLog (outer : Array CallbackReport) (state : State) : Array CallbackReport × State :=
  (state.log, { state with log := outer })

/-- Adds a report to the log. -/
def addReport (state : State) (report : CallbackReport) : State :=
  { state with log := state.log.push report }

/-- Takes numbers for new system threads, and yields the first one. -/
def takeSystems (count : Nat) (state : State) : Nat × State :=
  (state.systemCount + 1, { state with systemCount := state.systemCount + count })

/-- Adds a job, and yields its index. -/
def addJob (label : String) (state : State) : Nat × State :=
  (state.jobs.length, { state with jobs := state.jobs ++ [⟨label, .running⟩] })

/-- Changes the phase of a job. -/
def setPhase (index : Nat) (phase : JobPhase) (state : State) : State :=
  { state with jobs := state.jobs.modify index fun job => { job with phase } }

/-- The first job that can go on, with its index. -/
def awake? (state : State) (d : Debugger) : Option (Nat × PendingEvent) := do
  let index ← state.jobs.findIdx? fun job => job.pending?.any d.isAwake
  let pending ← state.jobs[index]?.bind Job.pending?
  return (index, pending)

/-- Reports the jobs that finished and forgets them. -/
def takeFinished (state : State) : List JobReport × State :=
  (state.jobs.filterMap Job.report?,
    { state with jobs := state.jobs.filter fun job => job.report?.isNone })

end State

/-- A part of a command, which can fail. What was done before the failure stays. -/
abbrev Attempt (α : Type) := ExceptT Failure (Run State) α

namespace Attempt

/-- A part that cannot fail. -/
def ofRun {α : Type} (run : Run State α) : Attempt α := ExceptT.lift run

/-- Reads the debugger. -/
def debugger : Attempt Debugger := ofRun Run.debugger

/-- Reads the state of the script. -/
def state : Attempt State := ofRun Run.front

/-- Changes the state of the script. -/
def modifyState (f : State → State) : Attempt Unit := ofRun (Run.modifyFront f)

/-- A query or a change of the debugger. -/
def onDebugger {α : Type} (f : Debugger → Except Error α × Debugger) : Attempt α :=
  ExceptT.mk do return (← Run.onDebugger f).mapError .debugger

/-- A change of the debugger, made only if it succeeds. -/
def change {α : Type} (f : Debugger → Except Error (α × Debugger)) : Attempt α :=
  ExceptT.mk do return (← Run.attempt f).mapError .debugger

/-- A change of the debugger without result, made only if it succeeds. -/
def perform (f : Debugger → Except Error Debugger) : Attempt Unit :=
  ExceptT.mk do return (← Run.perform f).mapError .debugger

/-- A query of the debugger. -/
def query {α : Type} (f : Debugger → Except Error α) : Attempt α := do
  match f (← debugger) with
  | .ok a => return a
  | .error error => throw (.debugger error)

/-- A change of the host. -/
def onHost {α : Type} (f : Host → α × Host) : Attempt α :=
  ofRun (Run.onDebugger fun d =>
    let (a, host) := f d.host
    (a, { d with host }))

/-- A change of the host without result. -/
def modifyHost (f : Host → Host) : Attempt Unit := onHost fun host => ((), f host)

/-- What is there under a name. -/
def named {α : Type} (name : String) (found : Option α) : Attempt α :=
  match found with
  | some a => return a
  | none => throw (.unknown name)

/-- The thread with a label, or else with a name. -/
def thread (name : String) : Attempt Thread := do
  let labels := (← state).threads
  let host := (← debugger).host
  named name ((labels.lookup name).or (host.threadNamed? name))

/-- The scope with a name. -/
def scope (name : String) : Attempt Scope := do
  named name ((← state).scopes.lookup name)

/-- The exception with a label. -/
def exception (label : String) : Attempt Value := do
  named label ((← state).exceptions.lookup label)

/-- The value that is referred to. -/
def value : ValueRef → Attempt Value
  | .given value => return value
  | .exception label => exception label

/-- The post-mortem that is referred to. -/
def postMortem (ref : PostMortemRef) : Attempt PostMortem := do
  let found ← match ref with
    | .numbered index => do pure ((← debugger).postMortems[index]?.map (·.2))
    | .ofException label => do
        let exception ← exception label
        pure ((← debugger).postMortem? exception)
  match found with
  | some postMortem => return postMortem
  | none => throw .noPostMortem

/-- The reply of an attempt. -/
def reply (attempt : Attempt Reply) : Run State Reply := do
  match ← attempt.run with
  | .ok reply => return reply
  | .error failure => return .failed failure

end Attempt

/-- Where commands are executed: on which system thread, and in which call of the front-end. -/
structure Place where
  system : Nat
  /-- The context of the call, none outside of one. -/
  own : Option ContextId
deriving DecidableEq, Repr

/-- The context that is referred to. -/
def Attempt.context (place : Place) (ref : ContextRef) : Attempt ContextId := do
  match ref, place.own with
  | .own, some id => return id
  | .own, none | .current, _ => onDebugger fun d => d.currentContext place.system
  | .last, _ =>
      match ← query Debugger.lastContext with
      | some id => return id
      | none => throw .noContext
  | .dead ref, _ => return (← postMortem ref).context
  | .kept name, _ => named name ((← state).contexts.lookup name)
  | .ofThread name, _ =>
      let thread ← thread name
      change fun d => d.threadContext thread

end EventDebugger.Script
