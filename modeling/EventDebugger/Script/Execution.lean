import EventDebugger.Script.Notification

/-!
# Execution of scripts

The front-end of a script answers its calls with scripts of its own, which may notify events that call
it again. Each script is executed once, so the calls nest as deep as there are scripts at most: the
front-end for `n` scripts executes one with the front-end for `n - 1` scripts.

A command that fails is answered by its failure, and the script goes on. Only a command to fail ends
the script, and the call that executes it fails.
-/

namespace EventDebugger.Script

/-- What commands are executed with. -/
structure Environment where
  front : FrontEnd State String
  /-- Enough moves for all jobs. -/
  moves : Nat
  /-- Whether the current context is shown after an event. -/
  observed : Bool

/-- What executed commands yield: the reports of their steps, and the failure that ended them. -/
abbrev Executed := List StepReport × Option String

/-- The answer of a section. -/
def Executed.answer : Executed → Except String (Reply ⊕ List StepReport)
  | (_, some message) => .error message
  | (reports, none) => .ok (.inr reports)

/-- Executes commands a number of times. Yields what the last time yielded. -/
def executeTimes (body : Run State Executed) : Nat → Run State Executed
  | 0 => return ([], none)
  | 1 => body
  | n + 2 => do
      let executed ← body
      if executed.2.isSome then return executed else executeTimes body (n + 1)

/-- The answer of a section that may not be entered. -/
def sectionAnswer : Except Error Executed → Except String (Reply ⊕ List StepReport)
  | .ok executed => executed.answer
  | .error error => .ok (.inl (.failed (.debugger error)))

/-- The answer of a command that is no section. -/
def replyAnswer (attempt : Attempt Reply) : Run State (Except String (Reply ⊕ List StepReport)) := do
  return .ok (.inl (← attempt.reply))

/-- Whether the current context is shown after a command. -/
def Command.isObserved : Command → Bool
  | .event _ => true
  | _ => false

/-- Whether the callbacks of a command are listed by the number of their context. -/
def Command.isSorted : Command → Bool
  | .replay _ _ byContext => byContext
  | _ => false

/-- Executes a command as a step: lets the jobs move, and reports what happened. Inside a call of the
front-end no jobs are reported. -/
def reportStep (env : Environment) (place : Place) (command : Command)
    (execute : Run State (Except String (Reply ⊕ List StepReport))) :
    Run State (Except String StepReport) := do
  let outer ← Run.onFront State.startLog
  match ← execute with
  | .error message =>
      let _ ← Run.onFront (State.endLog outer)
      return .error message
  | .ok answer =>
      settle env.front env.moves
      let context ←
        if env.observed && command.isObserved && (← Run.debugger).isStarted then do
          let id ← Run.onDebugger fun d => d.currentContext place.system
          let d ← Run.debugger
          pure (some (id.bind d.glance))
        else pure none
      let jobs ← if place.own.isSome then pure [] else Run.onFront State.takeFinished
      let log ← Run.onFront (State.endLog outer)
      let callbacks :=
        if command.isSorted then log.toList.mergeSort fun a b => a.1.number ≤ b.1.number
        else log.toList
      return .ok ⟨answer, callbacks, jobs, context⟩

namespace Command

mutual

/-- Executes a command. -/
def execute (env : Environment) (place : Place) :
    Command → Run State (Except String (Reply ⊕ List StepReport))
  | .fail message => return .error message
  | .host command => replyAnswer (command.perform place.system)
  | .debugger command => replyAnswer (command.perform place.system)
  | .context ref command => replyAnswer do command.perform (← Attempt.context place ref)
  | .keep ref name => replyAnswer (keepContext place ref name)
  | .same first second => replyAnswer (sameContext place first second)
  | .postMortems => replyAnswer listPostMortems
  | .postMortem ref => replyAnswer (describePostMortem ref)
  | .handlePostMortem ref => replyAnswer (enterPostMortem env.front place ref)
  | .event ref => replyAnswer (notifyHere env.front place ref)
  | .job label ref => replyAnswer (startJob env.front label ref)
  | .replay program prepared _ => replyAnswer (replayProgram env.front program prepared)
  | .run commands => do
      return (← runStarted (executeAll env place commands)).answer
  | .load stop commands => do
      return sectionAnswer (← runLoaded place.system stop (executeAll env place commands))
  | .skip commands => do
      return (← runSkipped place.system (executeAll env place commands)).answer
  | .withPostMortem commands => do
      return sectionAnswer (← runWithPostMortem (executeAll env place commands))
  | .repeat count commands => do
      return (← executeTimes (executeAll env place commands) count).answer

/-- Executes commands one after the other. -/
def executeAll (env : Environment) (place : Place) : List Command → Run State Executed
  | [] => return ([], none)
  | command :: commands => do
      match ← reportStep env place command (execute env place command) with
      | .error message => return ([], some message)
      | .ok report => do
          let (reports, failure) ← executeAll env place commands
          return (report :: reports, failure)

end

end Command

/-- The front-end of a script: each call is logged, after it executed the next script for calls of its
kind. -/
def frontEnd (moves : Nat) (observed : Bool) : Nat → FrontEnd State String
  | 0 => fun _ callback => do
      let view := (← Run.debugger).callbackView callback
      Run.modifyFront fun state => state.addReport (view, none)
      return .ok ()
  | n + 1 => fun system callback => do
      let view := (← Run.debugger).callbackView callback
      match ← Run.onFront fun state => state.takeScript (.of callback) with
      | none =>
          Run.modifyFront fun state => state.addReport (view, none)
          return .ok ()
      | some commands =>
          let env : Environment := ⟨frontEnd moves observed n, moves, observed⟩
          let (reports, failure) ←
            Command.executeAll env ⟨system, some callback.context⟩ commands
          Run.modifyFront fun state => state.addReport (view, some reports)
          match failure with
          | some message => return .error message
          | none => return .ok ()

/-- A debugger that is made with settings, and the scripts that act on it. -/
structure Scenario where
  settings : Settings
  observed : Bool
  /-- What the calls of each kind execute, one list for a call. -/
  scripts : List (CallbackKind × List Command)
  commands : List Command

namespace Scenario

/-- How many commands are executed at most. -/
def size (scenario : Scenario) : Nat :=
  scenario.scripts.foldl (fun n entry => n + Command.sizeAll entry.2) 0 +
    Command.sizeAll scenario.commands

/-- Enough moves for all jobs: there are no more jobs than commands, and a job moves four times at most
between the ends of two others. -/
def moves (scenario : Scenario) : Nat := 4 * (scenario.size + 1) * (scenario.size + 1)

/-- Runs a scenario over a new host. Yields the reports of its steps. -/
def run (scenario : Scenario) : List StepReport :=
  let front := frontEnd scenario.moves scenario.observed scenario.scripts.length
  let env : Environment := ⟨front, scenario.moves, scenario.observed⟩
  let executed := (Command.executeAll env ⟨0, none⟩ scenario.commands).run
    (.initial scenario.settings, .initial scenario.scripts)
  executed.1.1

end Scenario

end EventDebugger.Script
