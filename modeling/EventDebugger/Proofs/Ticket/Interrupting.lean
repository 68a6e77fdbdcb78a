import EventDebugger.Proofs.Ticket.Deactivation
import EventDebugger.Proofs.Ticket.StepOver

/-!
# Interrupting a context

A context that is interrupted halts on the next line that it comes to, unless the line is at the position of its
last halt, or deeper than a step over that is pending: there the interrupt does not count. Until then nothing
turns the interrupt off, however many halts on methods and exceptions there are in between, except the halt on a
breakpoint of a line that was reported before.

* `World.Interrupts`: the ways to interrupt a context.
* `World.halts_on_next_line`: the halt.
* `World.passes_next_line`: a line that is passed over.
-/

namespace EventDebugger

/-- Whether the halt that follows the report turns off the armed steps. -/
def Continuation.isClearing : Continuation → Bool
  | .breakpointReported _ onLine => onLine
  | _ => false

namespace Context

variable {context : Context} {moved : Bool}

def interrupted (context : Context) : Context := { context with stopNext := .armed 1, forced := false }

def IsArmed (context : Context) : Prop := context.stopNext = .armed 1

theorem neutral_isArmed : Neutral IsArmed := ⟨fun h _ _ _ _ _ => h, fun _ _ _ h => h⟩

theorem IsArmed.of_steps {context' : Context} (armed : context.IsArmed) (same : context'.steps = context.steps) :
    context'.IsArmed := by
  have next : context'.stopNext = context.stopNext := congrArg (·.1) same
  exact next.trans armed

theorem IsArmed.due (armed : context.IsArmed)
    (within : ∀ target ∈ context.targetDepth, context.depth ≤ target)
    (counts : moved ∨ ∃ target ∈ context.targetDepth, context.depth < target) :
    (context.countLine moved).isStepDue := by
  have next : context.stopNext = .armed 1 := armed
  have ticked (new : moved) : (context.tickSteps moved).isStepDue := by
    simp only [tickSteps, new, Bool.true_or, if_true, isStepDue, next, Countdown.tick_armed_succ 0,
      Countdown.isDue_armed, beq_self_eq_true]
  unfold countLine
  split
  · next anywhere =>
      refine ticked (counts.resolve_right ?_)
      rintro ⟨target, is, -⟩
      rw [anywhere] at is
      cases is
  · next target is =>
      split
      · simp only [isStepDue, Countdown.isDue_armed, beq_self_eq_true, Bool.true_or]
      · next above =>
          rw [if_neg (Nat.not_lt_of_le (within target is))]
          refine ticked (counts.resolve_right ?_)
          rintro ⟨target', is', below⟩
          cases is.symm.trans is'
          exact above below

end Context

namespace Debugger

variable {d : Debugger} {system : Nat} {id : ContextId} {event : Event}

/-! ## Interrupts -/

theorem command_interrupt (active : d.isStarted) (id : ContextId) :
    d.command id Context.interrupt = .ok (d.updateContext id fun _ => (d.context id).interrupted) := by
  rw [command, inspect, if_pos active]
  rfl

theorem isArmed_interrupted (known : id < d.contexts.size) :
    ((d.updateContext id fun _ => (d.context id).interrupted).context id).IsArmed := by
  rw [d.context_updateContext_self _ known]
  rfl

theorem isStarted_currentContext (d : Debugger) (system : Nat) :
    (d.currentContext system).2.isStarted = d.isStarted :=
  isStarted_congr (d.tends_currentContext system).keeps.ticket

theorem isArmed_interrupt (active : d.isStarted) (own : (d.currentContext system).1 = .ok id)
    (known : id < (d.interrupt system).2.contexts.size) :
    ((d.interrupt system).2.context id).IsArmed := by
  have active' := (d.isStarted_currentContext system).trans active
  revert known
  simp only [interrupt]
  split
  · next found =>
      rw [found] at own
      cases own
  · next found =>
      rw [found] at own active'
      cases own
      rw [command_interrupt active']
      intro known
      rw [size_updateContext] at known
      exact isArmed_interrupted known

theorem isArmed_prepareLoad (active : d.isStarted) (own : (d.currentContext system).1 = .ok id)
    (known : id < (d.prepareLoad system true).2.contexts.size) :
    ((d.prepareLoad system true).2.context id).IsArmed := by
  have active' := (d.isStarted_currentContext system).trans active
  revert known
  simp only [prepareLoad, if_true]
  split
  · next found =>
      rw [found] at own
      cases own
  · next d₁ found =>
      rw [found] at own active'
      cases own
      rw [command_interrupt (d := d₁.updateContext id fun context => { context with stack := [] }) active']
      intro known
      rw [size_updateContext] at known
      exact isArmed_interrupted known

theorem serve_interrupt (active : d.isStarted) :
    (Request.context id .interrupt).serve system d = d.updateContext id fun _ => (d.context id).interrupted := by
  have served := Script.Attempt.debugger_map (Script.Attempt.perform fun d => d.command id Context.interrupt)
    (fun _ => Script.Reply.done) d (.initial [])
  rw [Script.Attempt.debugger_perform, command_interrupt active id] at served
  exact served

theorem serve_interruptCurrent : (Request.debugger .interrupt).serve system d = (d.interrupt system).2 :=
  Script.Attempt.debugger_map (Script.Attempt.onDebugger fun d => d.interrupt system) (fun _ => Script.Reply.done) d
    (.initial [])

theorem serve_interruptLast (active : d.isStarted) (halted : d.lastContext = .ok (some id))
    (alive : d.host.isAlive (d.context id).thread) :
    (Request.debugger .interruptLast).serve system d = d.updateContext id fun _ => (d.context id).interrupted := by
  have changed : d.interruptLast = .ok (some id, d.updateContext id fun _ => (d.context id).interrupted) := by
    rw [interruptLast, halted]
    change (if d.host.isAlive (d.context id).thread = true then _ else _) = _
    rw [if_pos alive, command_interrupt active id]
    rfl
  have served : (Request.debugger .interruptLast).serve system d =
      (Script.Attempt.change interruptLast (d, .initial [])).2.1 := by
    let report (id : Option ContextId) : Script.Attempt Script.Reply := do
      let d ← Script.Attempt.debugger
      return .ofOption .number (id.map fun id => (d.context id).number)
    change (ExceptT.bindCont report (Script.Attempt.change interruptLast (d, .initial [])).1
      (Script.Attempt.change interruptLast (d, .initial [])).2).2.1 = _
    cases (Script.Attempt.change interruptLast (d, .initial [])).1 <;> rfl
  rw [served, Script.Attempt.debugger_change, changed]

theorem keeps_armed_prepareLoad (d : Debugger) (system : Nat) (stop : Bool) :
    Preserves Context.IsArmed id d (d.prepareLoad system stop).2 := by
  have current : Preserves Context.IsArmed id d (d.currentContext system).2 :=
    preserves_currentContext Context.neutral_isArmed.tolerant d system
  simp only [prepareLoad]
  split
  · next found => simpa only [found] using current
  · next own d₁ found =>
      rw [found] at current
      have emptied : Preserves Context.IsArmed id d
          (d₁.updateContext own fun context => { context with stack := [] }) :=
        current.trans (d₁.preserves_updateContext own fun h => h)
      split
      · split
        · exact emptied
        · next commanded =>
            apply emptied.trans (preserves_command (fun {context context'} interrupted _ => ?_) commanded)
            cases interrupted
            exact rfl
      · exact emptied

/-! ## Pieces that turn nothing off -/

theorem armed_dispatch (known : id < d.contexts.size) (armed : (d.context id).IsArmed)
    (unchecked : (d.context id).skipped ∨ event.line? = none ∨
      (d.settings.tracing || (d.context id).tracing) = true) :
    ((d.dispatch system id event).2.context id).IsArmed := by
  cases heeded : (d.context id).skipped with
  | true =>
      rw [dispatch, heeded, if_pos rfl]
      exact armed
  | false =>
      have unchecked := unchecked.resolve_left (by rw [heeded]; exact Bool.false_ne_true)
      have steps := (carries_dispatch known system heeded unchecked).1
      rw [Context.steps_seeing] at steps
      split at steps
      · rw [Context.steps_returnFrom] at steps
        split at steps
        · exact congrArg (·.1) steps
        · exact armed.of_steps steps
      · exact armed.of_steps steps

def Unclearing (piece : Outcome × Debugger) : Prop :=
  ∀ callback next, piece.1 = .call callback next → next.isClearing = false

theorem Unclearing.done : Unclearing (.done, d) := by rintro _ _ ⟨⟩

theorem unclearing_halt (position : Position) : Unclearing (d.halt id position) := by
  rintro _ _ ⟨⟩
  rfl

theorem unclearing_onCall (position : Position) : Unclearing (d.onCall system id event position) := by
  rw [onCall_eq]
  dsimp only
  split
  · exact .done
  · next found _ =>
      split
      · simp only [haltOnBreakpoint]
        split
        · exact unclearing_halt position
        · rintro _ _ ⟨⟩
          rfl
      · exact .done

theorem unclearing_onRaise (position : Position) (exception : Value) :
    Unclearing (d.onRaise system id event position exception) := by
  simp only [onRaise]
  split
  · exact .done
  · split
    · exact .done
    · split
      · rintro _ _ ⟨⟩
        rfl
      · exact .done

theorem unclearing_dispatch (known : id < d.contexts.size)
    (unchecked : (d.context id).skipped ∨ event.line? = none ∨
      (d.settings.tracing || (d.context id).tracing) = true) : Unclearing (d.dispatch system id event) := by
  cases heeded : (d.context id).skipped with
  | true =>
      rw [dispatch, heeded, if_pos rfl]
      exact .done
  | false =>
      have unchecked := unchecked.resolve_left (by rw [heeded]; exact Bool.false_ne_true)
      cases at' : event.position with
      | none =>
          simp only [dispatch, heeded, at', Bool.false_eq_true, if_false]
          split <;> exact .done
      | some position =>
          cases kind : event.kind with
          | line conditional =>
              cases conditional with
              | true =>
                  rw [dispatch_conditional system id event position d heeded at' kind]
                  exact .done
              | false =>
                  have traced := unchecked.resolve_left (by simp [Event.line?, kind, at'])
                  rw [dispatch_line system id event position d heeded at' kind]
                  dsimp only
                  rw [tracing_placed known, traced, if_pos rfl]
                  rintro _ _ ⟨⟩
                  rfl
          | call =>
              rw [dispatch_call system id event position d heeded at' kind]
              exact unclearing_onCall position
          | raise exception =>
              simp only [dispatch, heeded, at', dispatchAt, kind, Bool.false_eq_true, if_false]
              exact unclearing_onRaise position exception
          | «return» | classClose | classOpen =>
              simp only [dispatch, heeded, at', dispatchAt, kind, Bool.false_eq_true, if_false]
              exact .done
          | nativeCall | nativeReturn =>
              simp only [dispatch, heeded, at', dispatchAt, kind, Bool.false_eq_true, if_false]
              split <;> exact .done

theorem steps_run (d : Debugger) (system : Nat) (id : ContextId) {next : Continuation}
    (unclearing : next.isClearing = false)
    (uncounted : ∀ position receiver moved, next ≠ .lineTraced position receiver moved) :
    ((next.run d system id).2.context id).steps = (d.context id).steps ∧ Unclearing (next.run d system id) := by
  cases next with
  | lineTraced position receiver moved => exact absurd rfl (uncounted position receiver moved)
  | breakpointReported position onLine =>
      obtain rfl : onLine = false := unclearing
      exact ⟨(carries_halt rfl position).1, unclearing_halt position⟩
  | exceptionReported position receiver binding =>
      refine ⟨?_, unclearing_halt position⟩
      have bound (binding : Option Binding) :
          ((d.updateContext id (·.setTopBinding binding)).context id).gait = (d.context id).gait :=
        gait_updateContext rfl _ fun _ => rfl
      simp only [Continuation.run]
      split
      · exact (carries_halt (congrArg (·.2.2.2) (bound _)) position).1
      · exact (carries_halt (congrArg (·.2.2.2) (bound _)) position).1
  | resumed => exact ⟨rfl, .done⟩

end Debugger

namespace World

variable {w w' w₁ w₂ w₃ : World} {s : Nat} {move : Move} {act : Act} {id : ContextId} {position : Position}
  {moved : Bool}

/-- A step that interrupts a context: it is told so, or its thread asks for it or begins to load code that is to
be halted, or it is the one that halted last, and its thread is alive. -/
inductive Interrupts (id : ContextId) (w : World) (s : Nat) : Act → Prop where
  | command : Interrupts id w s (.move (.request (.context id .interrupt)))
  | current (own : (w.debugger.currentContext s).1 = .ok id) :
      Interrupts id w s (.move (.request (.debugger .interrupt)))
  | last (halted : w.debugger.lastContext = .ok (some id))
      (alive : w.debugger.host.isAlive (w.debugger.context id).thread) :
      Interrupts id w s (.move (.request (.debugger .interruptLast)))
  | load (own : (w.debugger.currentContext s).1 = .ok id) : Interrupts id w s (.load true)

theorem Interrupts.armed (h : w.Interrupts id s act) (acts : w.Acts s act w') (active : w.debugger.isStarted)
    (known : id < w'.debugger.contexts.size) : (w'.debugger.context id).IsArmed := by
  cases acts with
  | move step =>
      cases step with
      | request request free =>
          change id < (request.serve s w.debugger).contexts.size at known
          change ((request.serve s w.debugger).context id).IsArmed
          cases h with
          | command =>
              rw [Debugger.serve_interrupt active] at known ⊢
              rw [Debugger.size_updateContext] at known
              exact Debugger.isArmed_interrupted known
          | current own =>
              rw [Debugger.serve_interruptCurrent] at known ⊢
              exact Debugger.isArmed_interrupt active own known
          | last halted alive =>
              rw [Debugger.serve_interruptLast active halted alive] at known ⊢
              rw [Debugger.size_updateContext] at known
              exact Debugger.isArmed_interrupted known
      | _ => cases h
  | load stop free =>
      cases h with
      | load own => exact Debugger.isArmed_prepareLoad active own known
  | _ => cases h

/-- The line that a step checks, if it does, and whether it is not at the position of the last halt: the line is
dispatched without a report, or its report is over. -/
def comesTo (w : World) (s : Nat) (move : Move) (id : ContextId) : Option (Position × Bool) :=
  match w.rechecks s move id with
  | some (position, _, moved) => some (position, moved)
  | none =>
      if (w.debugger.context id).skipped || (w.debugger.settings.tracing || (w.debugger.context id).tracing) then none
      else (w.takes s move id).head?.bind fun event => event.line?.map fun position =>
        (position, decide ((w.debugger.context id).lastPosition ≠ some position))

theorem takes_cases {event : Event} (takes : (w.takes s move id).head? = some event) :
    ∃ task rest, w.tasks s = task :: rest ∧ task.context = id ∧ move = .dispatch ∧ task.stage = .admitted event := by
  unfold World.takes at takes
  split at takes
  · next tasks =>
      split at takes
      · next stage =>
          split at takes
          · next own =>
              cases takes
              exact ⟨_, _, tasks, own, rfl, stage⟩
          · cases takes
      · cases takes
  · cases takes

theorem rechecks_cases {receiver : Option Value}
    (checks : w.rechecks s move id = some (position, receiver, moved)) :
    ∃ task rest callback, w.tasks s = task :: rest ∧ task.context = id ∧ move = .answer ∧
      task.stage = .called callback (.lineTraced position receiver moved) := by
  unfold rechecks at checks
  split at checks
  · next tasks =>
      split at checks
      · next stage =>
          obtain ⟨own, same⟩ := Option.ite_none_right_eq_some.mp checks
          cases same
          exact ⟨_, _, _, tasks, own, rfl, stage⟩
      · cases checks
  · cases checks

/-- Steps that do not tell a context to step, and with which it comes to no line. -/
def Lineless (id : ContextId) (w : World) (s : Nat) : Act → Prop
  | .move move => w.Continues id s move ∧ w.comesTo s move id = none
  | .load _ | .meet | .skip .. | .keep _ => True

structure Interrupted (id : ContextId) (w : World) : Prop where
  known : id < w.debugger.contexts.size
  armed : (w.debugger.context id).IsArmed
  unclearing : w.Remaining (·.isClearing = false) id

theorem comesTo_event {task : Task} {rest : List Task} {event : Event} (tasks : w.tasks s = task :: rest)
    (stage : task.stage = .admitted event) :
    w.comesTo s .dispatch task.context =
      if (w.debugger.context task.context).skipped ||
          (w.debugger.settings.tracing || (w.debugger.context task.context).tracing) then none
      else event.line?.map fun position =>
        (position, decide ((w.debugger.context task.context).lastPosition ≠ some position)) := by
  simp only [comesTo, rechecks, takes_eq tasks stage, if_true, List.head?_cons, Option.bind_some]

theorem comesTo_answer {task : Task} {rest : List Task} {callback : Callback} {next : Continuation}
    (tasks : w.tasks s = task :: rest) (stage : task.stage = .called callback next) :
    w.comesTo s .answer task.context = match next with
      | .lineTraced position _ moved => some (position, moved)
      | _ => none := by
  have none : w.takes s .answer task.context = [] := takes_eq_nil (by rintro ⟨⟩)
  cases next <;>
    simp only [comesTo, rechecks, tasks, stage, none, if_true, List.head?_nil, Option.bind_none, ite_self]

theorem Interrupted.step (h : w.Interrupted id) (step : w.Step s move w') (continues : w.Continues id s move)
    (lineless : w.comesTo s move id = none) : w'.Interrupted id := by
  cases step.regards h.known continues with
  | event tasks stage own is =>
      subst own is
      rename_i task rest event
      have unchecked : (w.debugger.context task.context).skipped ∨ event.line? = none ∨
          (w.debugger.settings.tracing || (w.debugger.context task.context).tracing) = true := by
        rw [comesTo_event tasks stage, ite_eq_left_iff, Bool.or_eq_true, Option.map_eq_none_iff] at lineless
        tauto
      exact ⟨step.known h.known, Debugger.armed_dispatch h.known h.armed unchecked,
        h.unclearing.proceed tasks fun _ => Debugger.unclearing_dispatch h.known unchecked⟩
  | answer tasks stage own is =>
      subst own is
      rename_i task rest callback next
      have uncounted : ∀ position receiver moved, next ≠ .lineTraced position receiver moved := by
        rintro position receiver moved rfl
        rw [comesTo_answer tasks stage] at lineless
        cases lineless
      obtain ⟨steps, unclearing⟩ := w.debugger.steps_run s task.context
        (h.unclearing s task (mem_innermost tasks) rfl stage) uncounted
      exact ⟨step.known h.known, h.armed.of_steps steps, h.unclearing.proceed tasks fun _ => unclearing⟩
  | apart none silent keeps called =>
      exact ⟨step.known h.known, keeps Context.neutral_isArmed h.armed, h.unclearing.apart called⟩

theorem Interrupted.acts (h : w.Interrupted id) (acts : w.Acts s act w') (lineless : w.Lineless id s act) :
    w'.Interrupted id := by
  have known := Nat.lt_of_lt_of_le h.known acts.lodges.size
  cases acts with
  | move step => exact h.step step lineless.1 lineless.2
  | load stop free => exact ⟨known, w.debugger.keeps_armed_prepareLoad s stop h.armed, h.unclearing⟩
  | meet free =>
      exact ⟨known, Debugger.preserves_currentContext Context.neutral_isArmed.tolerant _ s h.armed, h.unclearing⟩
  | skip other on free =>
      have kept : Debugger.Preserves Context.IsArmed id w.debugger
          (w.debugger.updateContext other fun context => { context with skipped := on }) :=
        w.debugger.preserves_updateContext other fun h => h
      exact ⟨known, kept h.armed, h.unclearing⟩
  | keep on free => exact ⟨known, h.armed, h.unclearing⟩

theorem Course.interrupted (course : Course (Lineless id) w w') (h : w.Interrupted id) : w'.Interrupted id := by
  induction course with
  | refl => exact h
  | step course next lineless ih => exact ih.acts next lineless

theorem Interrupted.halts (h : w.Interrupted id) (step : w.Step s move w')
    (comes : w.comesTo s move id = some (position, moved))
    (within : ∀ target ∈ (w.debugger.context id).targetDepth, (w'.debugger.context id).depth ≤ target)
    (counts : moved ∨ ∃ target ∈ (w.debugger.context id).targetDepth, (w'.debugger.context id).depth < target) :
    w.Halts s move w' id ∧ (w'.tasks s).head?.map (·.stage) = some (.called (.line id position) .resumed) ∧
      (w'.debugger.context id).reason = .step := by
  -- The line is checked in the context as it is, or as it was placed for the event: with the steps that were armed.
  have checked {task : Task} {rest : List Task} {d : Debugger} {receiver : Option Value}
      (is : w' = w.proceed s task rest (d.checkLine s id position receiver moved)) (dispatches : move.isDispatch)
      (known : id < d.contexts.size) (steps : (d.context id).steps = (w.debugger.context id).steps) :
      w.Halts s move w' id ∧ (w'.tasks s).head?.map (·.stage) = some (.called (.line id position) .resumed) ∧
        (w'.debugger.context id).reason = .step := by
    subst is
    have target : (d.context id).targetDepth = (w.debugger.context id).targetDepth := congrArg (·.2.2.1) steps
    have frames : ((w.proceed s task rest (d.checkLine s id position receiver moved)).debugger.context id).depth =
        (d.context id).depth := Debugger.depth_checkLine
    rw [frames, ← target] at within counts
    have due := (h.armed.of_steps steps).due within counts
    obtain ⟨outcome, reason, -⟩ := Debugger.checkLine_due s position receiver known due
    refine ⟨halts_proceed step dispatches outcome, ?_, reason⟩
    rw [tasks_proceed, outcome]
    rfl
  unfold comesTo at comes
  split at comes
  · next checks =>
      cases comes
      obtain ⟨task, rest, callback, tasks, rfl, rfl, stage⟩ := rechecks_cases checks
      cases step with
      | answer tasks' stage' =>
          cases tasks.symm.trans tasks'
          cases stage.symm.trans stage'
          exact checked rfl rfl h.known rfl
  · obtain ⟨traced, first⟩ := Option.ite_none_left_eq_some.mp comes
    rw [Bool.or_eq_true, not_or, Bool.not_eq_true, Bool.not_eq_true] at traced
    obtain ⟨event, takes, first⟩ := Option.bind_eq_some_iff.mp first
    obtain ⟨position', line, same⟩ := Option.map_eq_some_iff.mp first
    cases same
    obtain ⟨task, rest, tasks, rfl, rfl, stage⟩ := takes_cases takes
    cases step with
    | dispatch tasks' stage' =>
        cases tasks.symm.trans tasks'
        cases stage.symm.trans stage'
        have known := Nat.lt_of_lt_of_le h.known (w.debugger.touches_placed s task.context event position).size
        have placed := Debugger.gait_placed h.known s event position
        exact checked (by rw [Debugger.dispatch_checks h.known traced.1 traced.2 line]) rfl known
          (congrArg (·.2.2.2) placed)

/-- A context that is interrupted halts on the next line that it comes to, for the reason of a step, if the line
is not at the position of its last halt and no deeper than the frame of a step over that is pending, or if it is
below that frame. -/
theorem halts_on_next_line (active : w.debugger.isStarted) {s₁ : Nat} (acts : w.Acts s₁ act w₁)
    (interrupts : w.Interrupts id s₁ act) (known : id < w₁.debugger.contexts.size)
    (unclearing : w₁.Remaining (·.isClearing = false) id) (course : Course (Lineless id) w₁ w₂)
    (step : w₂.Step s move w₃) (comes : w₂.comesTo s move id = some (position, moved))
    (within : ∀ target ∈ (w₂.debugger.context id).targetDepth, (w₃.debugger.context id).depth ≤ target)
    (counts : moved ∨ ∃ target ∈ (w₂.debugger.context id).targetDepth, (w₃.debugger.context id).depth < target) :
    w₂.Halts s move w₃ id ∧ (w₃.tasks s).head?.map (·.stage) = some (.called (.line id position) .resumed) ∧
      (w₃.debugger.context id).reason = .step := by
  have interrupted : w₁.Interrupted id := ⟨known, interrupts.armed acts active known, unclearing⟩
  exact (course.interrupted interrupted).halts step comes within counts

/-! ## A call on the way -/

instance (act : Act) : Decidable (Lineless id w s act) :=
  match act with
  | .move move => inferInstanceAs (Decidable (w.Continues id s move ∧ w.comesTo s move id = none))
  | .load _ | .meet | .skip .. | .keep _ => isTrue trivial

def toldToInterrupt (w : World) : World := w.become ((Request.debugger .interrupt).serve 0 w.debugger)

def interruptedBefore (w : World) (events : List Event) (line : Event) : World :=
  (toldToInterrupt w).afterwards (ofFirst (events.flatMap Move.ofEvent ++ [.arrive line, .ask]))

def calledMeanwhile : World :=
  interruptedBefore (toldToStepOver onFirstLine) [eventOf .call "f" 10, eventOf .return "f" 12] (lineOf 2)

theorem halts_after_call :
    let w := toldToStepOver onFirstLine
    let w' := calledMeanwhile.afterwards (ofFirst [.dispatch])
    (w.debugger.context 0).targetDepth = some 1 ∧
      w.Interrupts 0 0 (.move (.request (.debugger .interrupt))) ∧
      Course (Lineless 0) (toldToInterrupt w) calledMeanwhile ∧
      calledMeanwhile.comesTo 0 .dispatch 0 = some (⟨"a.rb", 2⟩, true) ∧ calledMeanwhile.Halts 0 .dispatch w' 0 := by
  have interrupts : (toldToStepOver onFirstLine).Interrupts 0 0 (.move (.request (.debugger .interrupt))) :=
    .current rfl
  have told : (toldToStepOver onFirstLine).Acts 0 (.move (.request (.debugger .interrupt)))
      (toldToInterrupt (toldToStepOver onFirstLine)) := .move (.request _ (by rintro _ ⟨⟩))
  have unclearing : (toldToInterrupt (toldToStepOver onFirstLine)).Remaining (·.isClearing = false) 0 := by
    intro s task member
    cases s <;> cases member
  have course : Course (Lineless 0) (toldToInterrupt (toldToStepOver onFirstLine)) calledMeanwhile :=
    course_of_follow? (ofFirst ([eventOf .call "f" 10, eventOf .return "f" 12].flatMap Move.ofEvent ++
      [.arrive (lineOf 2), .ask])) rfl
  have last : calledMeanwhile.Step 0 .dispatch (calledMeanwhile.afterwards (ofFirst [.dispatch])) :=
    step_of_perform? rfl
  have comes : calledMeanwhile.comesTo 0 .dispatch 0 = some (⟨"a.rb", 2⟩, true) := rfl
  obtain ⟨halts, -, -⟩ := halts_on_next_line rfl told interrupts (by decide) unclearing course last comes (by decide)
    (.inl rfl)
  exact ⟨rfl, interrupts, course, comes, halts⟩

/-! ## A line that is passed over -/

def inMethod : World := (toldToStepOver onFirstLine).afterwards (ofFirst (Move.ofEvent (eventOf .call "f" 10)))

def beforeMethodLine : World := interruptedBefore inMethod [] (lineOf 11)

/-- The line is deeper than the frame of the step over, so the interrupt does not count there. -/
theorem passes_next_line :
    let w' := beforeMethodLine.afterwards (ofFirst [.dispatch])
    Course Anything unstarted inMethod ∧ inMethod.debugger.isStarted ∧
      inMethod.Interrupts 0 0 (.move (.request (.debugger .interrupt))) ∧
      inMethod.Step 0 (.request (.debugger .interrupt)) (toldToInterrupt inMethod) ∧
      (toldToInterrupt inMethod).Unreported 0 ∧ Course (Lineless 0) (toldToInterrupt inMethod) beforeMethodLine ∧
      beforeMethodLine.takes 0 .dispatch 0 = [lineOf 11] ∧
      beforeMethodLine.comesTo 0 .dispatch 0 = some (⟨"a.rb", 11⟩, true) ∧ beforeMethodLine.Step 0 .dispatch w' ∧
      ¬ beforeMethodLine.Halts 0 .dispatch w' 0 := by
  have reached : Course Anything unstarted inMethod :=
    course_of_follow? (Act.ofMoves ((0, .request (.debugger .start)) :: stepsOf [eventOf (.line false) "main" 1]) ++
      ofFirst (.request (.context 0 (.stepOver 1 none false)) :: Move.ofEvent (eventOf .call "f" 10))) rfl
  have told : inMethod.Step 0 (.request (.debugger .interrupt)) (toldToInterrupt inMethod) :=
    .request _ (by rintro _ ⟨⟩)
  have unreported : (toldToInterrupt inMethod).Unreported 0 := by
    intro s task member
    cases s <;> cases member
  have course : Course (Lineless 0) (toldToInterrupt inMethod) beforeMethodLine :=
    course_of_follow? (ofFirst [.arrive (lineOf 11), .ask]) rfl
  have last : beforeMethodLine.Step 0 .dispatch (beforeMethodLine.afterwards (ofFirst [.dispatch])) :=
    step_of_perform? rfl
  refine ⟨reached, rfl, .current rfl, told, unreported, course, rfl, rfl, last, ?_⟩
  exact silent_of_callsNoLine (by decide : beforeMethodLine.CallsNoLine 0 0 (.move .dispatch)) _ _ rfl

end World

end EventDebugger
