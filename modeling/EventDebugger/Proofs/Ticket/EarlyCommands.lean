import EventDebugger.Proofs.Ticket.Interrupting

/-!
# Commands before the halt is over

The front-end is told of a breakpoint or of an exception before it is called on the line, and may command the
context to step in either call. On the entry of a method and on an exception both come to the same, unless
the command is forced. A halt on a line turns off the armed steps, so a command that was given before it is lost.

* `World.same_of_early_command`: when it makes no difference in which call the command is given.
* `World.lost_of_early_step`: a step that is lost.
-/

namespace EventDebugger

/-- The commands that let a context make steps: whether they are forced, and what they do. -/
def Script.ContextCommand.steps? : Script.ContextCommand → Option (Bool × (Context → Except Error Context))
  | .step n force => some (force, (·.step n force))
  | .stepOver n index force => some (force, (·.stepOver n index force))
  | _ => none

def Continuation.haltsOffLine : Continuation → Bool
  | .breakpointReported _ onLine => !onLine
  | .exceptionReported .. => true
  | .lineTraced .. | .resumed => false

namespace Context

def Admits (f : Context → Except Error Context) (g : Context → Context) (context : Context) : Prop :=
  f (g context) = (f context).map g

variable {command : Script.ContextCommand} {f : Context → Except Error Context} {force : Bool} {context : Context}

theorem number_of_steps (steps : command.steps? = some (force, f)) {context' : Context}
    (commanded : f context = .ok context') : context'.number = context.number := by
  cases command with
  | step n force' =>
      cases steps
      obtain ⟨_, _, stepped⟩ := except_bind_eq_ok commanded
      cases stepped
      rfl
  | stepOver n index force' =>
      cases steps
      obtain ⟨_, _, commanded⟩ := except_bind_eq_ok commanded
      simp only at commanded
      split at commanded
      · cases commanded
      · split at commanded
        · obtain ⟨_, _, stepped⟩ := except_bind_eq_ok commanded
          cases stepped
          rfl
        · cases commanded
          rfl
  | _ => cases steps

theorem admits_of_steps (steps : command.steps? = some (force, f)) {g : Context → Context}
    (depth : (g context).depth = context.depth) (empty : (g context).stack.isEmpty = context.stack.isEmpty)
    (step : ∀ stopNext, { g context with stopNext, forced := force } =
      g { context with stopNext, forced := force })
    (stepOver : ∀ stopLine targetDepth, { g context with stopLine, stepped := false, targetDepth, forced := force } =
      g { context with stopLine, stepped := false, targetDepth, forced := force }) :
    Admits f g context := by
  cases command with
  | step n force' =>
      cases steps
      simp only [Admits, Context.step]
      cases checkSteps n with
      | error error => rfl
      | ok n => exact congrArg Except.ok (step _)
  | stepOver n index force' =>
      cases steps
      simp only [Admits, Context.stepOver, depth, empty]
      cases checkSteps n with
      | error error => rfl
      | ok n =>
          cases context.stack.isEmpty with
          | true => rfl
          | false =>
              cases index with
              | none => exact congrArg Except.ok (stepOver _ _)
              | some index =>
                  change (checkFrame index context.depth >>= _) = Except.map g (checkFrame index context.depth >>= _)
                  cases checkFrame index context.depth with
                  | error error => rfl
                  | ok i => exact congrArg Except.ok (stepOver _ _)
  | _ => cases steps

theorem admits_setTopBinding (steps : command.steps? = some (force, f)) (binding : Option Binding) :
    Admits f (·.setTopBinding binding) context := by
  refine admits_of_steps steps ?_ ?_ (fun _ => rfl) fun _ _ => rfl
  · cases stack : context.stack <;> simp [setTopBinding, depth, stack, CallStack.modifyTop]
  · cases stack : context.stack <;> simp [setTopBinding, stack, CallStack.modifyTop]

theorem admits_savePosition (steps : command.steps? = some (force, f))
    (unforced : force = false ∨ context.stack = []) : Admits f savePosition context := by
  cases stack : context.stack with
  | nil =>
      refine admits_of_steps steps ?_ ?_ (fun _ => ?_) fun _ _ => ?_ <;> simp [savePosition, stack, depth]
  | cons frame rest =>
      have plain : force = false := unforced.resolve_right (by simp [stack])
      refine admits_of_steps steps ?_ ?_ (fun _ => ?_) fun _ _ => ?_ <;> simp [savePosition, stack, depth, plain]

end Context

namespace Debugger

open Context

variable {d : Debugger} {id : ContextId} {command : Script.ContextCommand} {f : Context → Except Error Context}
  {force : Bool}

def obey (d : Debugger) (id : ContextId) (f : Context → Except Error Context) : Debugger :=
  match d.command id f with
  | .ok d' => d'
  | .error _ => d

theorem updateContext_updateContext (d : Debugger) (id : ContextId) (f g : Context → Context) :
    (d.updateContext id f).updateContext id g = d.updateContext id fun context => g (f context) := by
  have same : (d.contexts.modify id f).modify id g = d.contexts.modify id fun context => g (f context) := by
    apply Array.ext
    · simp only [Array.size_modify]
    · intro i _ _
      simp only [Array.getElem_modify]
      split <;> rfl
  simp only [updateContext, same]

theorem updateContext_eq_self (unknown : d.contexts.size ≤ id) (f : Context → Context) : d.updateContext id f = d := by
  have same : d.contexts.modify id f = d.contexts := by
    apply Array.ext
    · exact Array.size_modify
    · intro i _ bound
      rw [Array.getElem_modify, if_neg (Nat.ne_of_gt (Nat.lt_of_lt_of_le bound unknown))]
  rw [updateContext, same]

theorem obey_eq (d : Debugger) (id : ContextId) (f : Context → Except Error Context) :
    d.obey id f = if d.isStarted then
      match f (d.context id) with
      | .ok context => d.updateContext id fun _ => context
      | .error _ => d
    else d := by
  simp only [obey, command, inspect]
  cases d.isStarted with
  | false => rfl
  | true => cases f (d.context id) <;> rfl

theorem obey_updateContext {g : Context → Context} (admits : Admits f g (d.context id)) :
    (d.updateContext id g).obey id f = (d.obey id f).updateContext id g := by
  by_cases known : id < d.contexts.size
  · have active : (d.updateContext id g).isStarted = d.isStarted := rfl
    rw [obey_eq, obey_eq, d.context_updateContext_self g known, active, admits]
    cases d.isStarted with
    | false => rfl
    | true =>
        cases f (d.context id) with
        | error error => rfl
        | ok context => exact (updateContext_updateContext d id g _).trans (updateContext_updateContext d id _ g).symm
  · have unknown (d' : Debugger) (same : d'.contexts.size = d.contexts.size) (g : Context → Context) :
        d'.updateContext id g = d' := updateContext_eq_self (same ▸ Nat.le_of_not_lt known) g
    have size : (d.obey id f).contexts.size = d.contexts.size := by
      rw [obey_eq]
      split
      · split
        · exact d.size_updateContext id _
        · rfl
      · rfl
    rw [unknown d rfl, unknown (d.obey id f) size]

theorem context_obey (steps : command.steps? = some (force, f)) :
    ((d.obey id f).context id).number = (d.context id).number := by
  rw [obey_eq]
  split
  · split
    · next commanded =>
        by_cases known : id < d.contexts.size
        · rw [d.context_updateContext_self _ known]
          exact number_of_steps steps commanded
        · rw [updateContext_eq_self (Nat.le_of_not_lt known)]
    · rfl
  · rfl

theorem obey_captureBinding (d : Debugger) (id : ContextId) (f : Context → Except Error Context) (system : Nat)
    (receiver : Option Value) :
    (d.obey id f).captureBinding system receiver =
      ((d.captureBinding system receiver).1, (d.captureBinding system receiver).2.obey id f) := by
  simp only [obey_eq, captureBinding]
  cases active : d.isStarted with
  | false =>
      have same (host : Host) : { d with host }.isStarted = false := active
      simp only [same, Bool.false_eq_true, if_false]
  | true =>
      have same (host : Host) : { d with host }.isStarted = true := active
      have context (host : Host) : { d with host }.context id = d.context id := rfl
      simp only [same, context, if_true]
      cases f (d.context id) <;> rfl

theorem obey_halt (steps : command.steps? = some (force, f))
    (unforced : force = false ∨ (d.context id).stack = []) (position : Position) :
    (d.obey id f).halt id position = ((d.halt id position).1, (d.halt id position).2.obey id f) := by
  have noted : { d.obey id f with lastHalted := some ((d.obey id f).context id).number } =
      { d with lastHalted := some (d.context id).number }.obey id f := by
    rw [context_obey steps, obey_eq, obey_eq]
    change _ = if d.isStarted then
      match f (d.context id) with
      | .ok _ => _
      | .error _ => _
    else _
    cases d.isStarted with
    | false => rfl
    | true => cases f (d.context id) <;> rfl
  simp only [halt, noted]
  rw [obey_updateContext (d := { d with lastHalted := some (d.context id).number })]
  exact admits_savePosition steps unforced

theorem obey_run (steps : command.steps? = some (force, f)) {next : Continuation} (offLine : next.haltsOffLine)
    (unforced : force = false ∨ (d.context id).stack = []) (system : Nat) :
    next.run (d.obey id f) system id = ((next.run d system id).1, (next.run d system id).2.obey id f) := by
  have bound (d : Debugger) (unforced : force = false ∨ (d.context id).stack = []) (binding : Option Binding)
      (position : Position) :
      ((d.obey id f).updateContext id (·.setTopBinding binding)).halt id position =
        (((d.updateContext id (·.setTopBinding binding)).halt id position).1,
          ((d.updateContext id (·.setTopBinding binding)).halt id position).2.obey id f) := by
    rw [← obey_updateContext (admits_setTopBinding steps binding)]
    refine obey_halt steps (unforced.imp_right fun empty => ?_) position
    refine d.preserves_updateContext (P := (·.stack = [])) id (fun {context} empty => ?_) empty
    simp only [setTopBinding, empty]
    rfl
  cases next with
  | breakpointReported position onLine =>
      cases onLine with
      | false => exact obey_halt steps unforced position
      | true => cases offLine
  | exceptionReported position receiver binding =>
      cases binding with
      | some binding => exact bound d unforced (some binding) position
      | none =>
          simp only [Continuation.run, obey_captureBinding]
          exact bound (d.captureBinding system receiver).2 unforced _ position
  | lineTraced | resumed => cases offLine

end Debugger

namespace Request

theorem serve_steps {command : Script.ContextCommand} {f : Context → Except Error Context} {force : Bool}
    (steps : command.steps? = some (force, f)) (id : ContextId) (system : Nat) (d : Debugger) :
    (Request.context id command).serve system d = d.obey id f := by
  have served (f : Context → Except Error Context) :
      ((Script.commandContext id f) (d, .initial [])).2.1 = d.obey id f := by
    have same := Script.Attempt.debugger_map (Script.Attempt.perform fun d => d.command id f)
      (fun _ => Script.Reply.done) d (.initial [])
    rw [Script.Attempt.debugger_perform] at same
    exact same
  cases command with
  | step | stepOver =>
      cases steps
      exact served _
  | _ => cases steps

end Request

namespace World

variable {w : World} {s : Nat}

theorem become_of_session {d : Debugger} (same : d.session = w.debugger.session) :
    w.become d = { w with debugger := d } := by
  have lasts : (w.debugger.session.isNone && d.session.isSome) = false := by
    rw [same]
    cases w.debugger.session <;> rfl
  simp only [become, lasts, Bool.false_eq_true, if_false]

theorem outcome_run_offLine {next : Continuation} (offLine : next.haltsOffLine) (d : Debugger) (system : Nat)
    (id : ContextId) : ∃ position, (next.run d system id).1 = .call (.line id position) .resumed := by
  cases next with
  | breakpointReported position onLine => exact ⟨position, Debugger.outcome_haltAt d id position onLine⟩
  | exceptionReported position receiver binding => exact ⟨position, rfl⟩
  | lineTraced | resumed => cases offLine

/-- While the front-end is told of a breakpoint on a method or of an exception, a command that is not forced,
or that is given while there is no frame, may as well be given when it is called on the line next: the world
is the same afterwards. -/
theorem same_of_early_command {task : Task} {rest : List Task} {callback : Callback} {next : Continuation}
    {command : Script.ContextCommand} {f : Context → Except Error Context} {force : Bool}
    (tasks : w.tasks s = task :: rest) (stage : task.stage = .called callback next) (offLine : next.haltsOffLine)
    (steps : command.steps? = some (force, f))
    (unforced : force = false ∨ (w.debugger.context task.context).stack = []) :
    ∃ told halted later, w.Step s (.request (.context task.context command)) told ∧ told.Step s .answer later ∧
      w.Halts s .answer halted task.context ∧ halted.Step s (.request (.context task.context command)) later := by
  let request : Request := .context task.context command
  let piece := next.run w.debugger s task.context
  let told := w.become (request.serve s w.debugger)
  let halted := w.proceed s task rest piece
  obtain ⟨position, outcome⟩ := outcome_run_offLine offLine w.debugger s task.context
  have free : w.IsFree s := by
    rintro _ first
    rw [tasks] at first
    cases first
    rw [stage]
    rfl
  have answer : w.Step s .answer halted := .answer tasks stage
  have free' : halted.IsFree s := by
    rintro _ first
    rw [tasks_proceed, outcome] at first
    cases first
    rfl
  have session (d : Debugger) : (request.serve s d).session = d.session := by
    rw [Request.serve_steps steps, Debugger.obey_eq]
    split
    · split <;> rfl
    · rfl
  -- Neither the command nor the halt ends the session, so that no activation is counted.
  have goesOn : piece.2.session = w.debugger.session := (w.debugger.touches_run s task.context next).session
  refine ⟨told, halted, halted.become (request.serve s halted.debugger), .request request free, ?_,
    halts_proceed answer rfl outcome, .request request free'⟩
  have toldIs : told = { w with debugger := request.serve s w.debugger } := become_of_session (session _)
  have run : next.run told.debugger s task.context = (piece.1, request.serve s piece.2) := by
    rw [toldIs, Request.serve_steps steps, Request.serve_steps steps]
    exact Debugger.obey_run steps offLine unforced s
  have same : told.proceed s task rest (next.run told.debugger s task.context) =
      halted.become (request.serve s halted.debugger) := by
    have first : halted =
        ({ w with debugger := piece.2 } : World).set s ({ task with stage := piece.1.stage } :: rest) := by
      rw [← become_of_session goesOn]
      rfl
    rw [become_of_session (session _), run, proceed, become_of_session, first, toldIs]
    · rfl
    · rw [session, goesOn, toldIs, session]
  exact same ▸ .answer (w := told) tasks stage

theorem same_of_early_step : (∃ got, Run (fun _ _ _ => True) startedWithTwo got (reported false)) ∧
    ∃ told halted later, (reported false).Step 0 (.request (.context 0 (.step 1 false))) told ∧
      told.Step 0 .answer later ∧ (reported false).Halts 0 .answer halted 0 ∧
      halted.Step 0 (.request (.context 0 (.step 1 false))) later := by
  have tasks : (reported false).tasks 0 = [{ ownTask (watched false) with
    stage := .called (.breakpoint 0 (watcher false)) (.breakpointReported ⟨"a.rb", 10⟩ false) }] := rfl
  have steps : (Script.ContextCommand.step 1 false).steps? = some (false, (·.step 1 false)) := rfl
  exact ⟨run_reported false, same_of_early_command tasks rfl rfl steps (.inl rfl)⟩

/-! ## A step that is lost -/

def toldOfLine : World :=
  unstarted.afterwards (ofFirst [.request (.debugger .start),
    .request (.debugger (.addBreakpoint "a.rb" (.line 1) none)), .arrive (lineOf 1), .ask, .dispatch])

def toSecondLine (early : Bool) : List (Nat × Act) :=
  let step : Move := .request (.context 0 (.step 1 false))
  ofFirst ((if early then [step, .answer, .answer] else [.answer, step, .answer]) ++
    [.release, .arrive (lineOf 2), .ask])

def beforeSecondLine (early : Bool) : World := toldOfLine.afterwards (toSecondLine early)

/-- A step that the front-end asks for when it is told of a breakpoint on a line is lost. -/
theorem lost_of_early_step :
    let after (early : Bool) := (beforeSecondLine early).afterwards (ofFirst [.dispatch])
    Course Anything unstarted toldOfLine ∧
      (∀ early, toldOfLine.follow? Anything (toSecondLine early) = some (beforeSecondLine early)) ∧
      (beforeSecondLine false).Halts 0 .dispatch (after false) 0 ∧
      (beforeSecondLine true).Step 0 .dispatch (after true) ∧
      ¬ (beforeSecondLine true).Halts 0 .dispatch (after true) 0 := by
  have followed (early : Bool) : toldOfLine.follow? Anything (toSecondLine early) = some (beforeSecondLine early) := by
    cases early <;> rfl
  have step (early : Bool) :
      (beforeSecondLine early).Step 0 .dispatch ((beforeSecondLine early).afterwards (ofFirst [.dispatch])) := by
    cases early <;> exact step_of_perform? rfl
  refine ⟨course_afterwards .., followed, ⟨step false, rfl, _, rfl, ⟨"a.rb", 2⟩, .resumed, rfl⟩, step true, ?_⟩
  exact silent_of_callsNoLine (by decide : (beforeSecondLine true).CallsNoLine 0 0 (.move .dispatch)) _ _ rfl

end World

end EventDebugger
