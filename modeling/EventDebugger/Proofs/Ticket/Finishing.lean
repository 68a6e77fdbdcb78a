import EventDebugger.Proofs.Ticket.Unwinding

/-!
# Finishing frames of any code

Returns may close several frames at once, or all of them, and what is remembered of a frame to be finished is
its depth only. Whatever is dispatched, the context halts only once the frame is gone. If nothing that opens a
frame at its depth or above happens from there on, it is the return from the depth of the frame that makes the
context halt, and it halts in a frame below.

* `World.halts_in_caller`: when the context halts, and how deep.
* `World.halts_in_callee`: a halt in another method that is called after the frame has returned.
-/

namespace EventDebugger

/-! ## Contexts -/

namespace Context

variable {depth : Nat} {context : Context}

def Waits (depth : Nat) (context : Context) : Prop := context.steps = (.off, .off, none, some depth)

def StepsOnce (context : Context) : Prop := context.steps = (.armed 1, .off, none, none)

def Finishes (depth : Nat) (context : Context) : Prop :=
  context.Waits depth ∨ context.StepsOnce ∨ context.Disarmed

theorem Waits.countLine (h : context.Waits depth) (moved : Bool) :
    (context.countLine moved).Waits depth ∧ (context.countLine moved).isStepDue = false := by
  simp only [Waits, steps, Prod.mk.injEq] at h ⊢
  simp only [Context.countLine, h, tickSteps, isStepDue, Countdown.tick_off, ite_self, true_and]
  rfl

theorem StepsOnce.countLine {moved : Bool} (h : context.StepsOnce)
    (undue : (context.countLine moved).isStepDue = false) : (context.countLine moved).StepsOnce := by
  simp only [StepsOnce, steps, Prod.mk.injEq] at h ⊢
  simp only [Context.countLine, h, tickSteps, isStepDue, Countdown.tick_off, ite_self, and_true] at undue ⊢
  split at undue
  · cases undue
  · next uncounted => rw [if_neg uncounted]

theorem Waits.returnFrom_here (h : context.Waits depth) (here : context.depth = depth) (method : Option String) :
    (context.returnFrom method).StepsOnce := by
  have pending : context.finishDepth = some context.depth := (congrArg (·.2.2.2) h).trans (congrArg some here.symm)
  simp only [Waits, steps, Prod.mk.injEq] at h
  rw [StepsOnce, steps_returnFrom, if_pos pending]
  simp only [h]

theorem Waits.returnFrom_away (h : context.Waits depth) (away : context.depth ≠ depth) (method : Option String) :
    (context.returnFrom method).Waits depth := by
  have other : context.finishDepth ≠ some context.depth := by
    rw [show context.finishDepth = some depth from congrArg (·.2.2.2) h]
    exact fun same => away (Option.some.inj same).symm
  rw [Waits, steps_returnFrom, if_neg other]
  exact h

theorem returnFrom_unfinished (unfinished : context.finishDepth = none) (method : Option String) :
    (context.returnFrom method).steps = context.steps := by
  rw [steps_returnFrom, unfinished, if_neg (Option.some_ne_none _).symm]

end Context

/-- Whether an event is going to halt once the front-end returns: a breakpoint or an exception was reported. -/
def Continuation.isDecided : Continuation → Bool
  | .breakpointReported .. | .exceptionReported .. => true
  | _ => false

def Outcome.passes : Outcome → Bool
  | .done | .call (.tracing ..) (.lineTraced ..) => true
  | _ => false

/-! ## Pieces of dispatch -/

namespace Debugger

variable {d : Debugger} {system : Nat} {id : ContextId} {event : Event} {piece : Outcome × Debugger}

inductive Advances (id : ContextId) (d : Debugger) (piece : Outcome × Debugger) : Prop where
  | stays (same : (piece.2.context id).steps = (d.context id).steps) (passes : piece.1.passes)
  | returns (method : Option String)
      (same : (piece.2.context id).steps = ((d.context id).returnFrom method).steps)
      (fewer : 0 < (d.context id).depth → (piece.2.context id).depth < (d.context id).depth)
      (passes : piece.1.passes)
  | counts (context : Context) (moved : Bool) (before : context.steps = (d.context id).steps)
      (undue : (context.countLine moved).isStepDue = false)
      (same : (piece.2.context id).steps = (context.countLine moved).steps) (passes : piece.1.passes)
  | halts (context : Context) (moved : Bool) (before : context.steps = (d.context id).steps)
      (due : (context.countLine moved).isStepDue)
      (spent : (piece.2.context id).steps = (.off, .off, none, (d.context id).finishDepth))
      (outcome : ∃ position, piece.1 = .call (.line id position) .resumed)

theorem not_haltsOn_of_passes (passes : piece.1.passes) : ¬ HaltsOn id piece := by
  rintro ⟨_, _, halts⟩
  rw [halts] at passes
  cases passes

theorem passes_of_done {outcome : Outcome} (done : outcome = .done) : outcome.passes := by rw [done]; rfl

theorem Advances.undecided (h : Advances id d piece) :
    ∀ callback next, piece.1 = .call callback next → next.isDecided = false := by
  intro callback next calls
  have quiet (passes : piece.1.passes) : next.isDecided = false := by
    rw [calls] at passes
    cases next with
    | lineTraced | resumed => rfl
    | breakpointReported | exceptionReported => cases callback <;> cases passes
  cases h with
  | stays _ passes | returns _ _ _ passes | counts _ _ _ _ _ passes => exact quiet passes
  | halts _ _ _ _ _ outcome =>
      obtain ⟨position, outcome⟩ := outcome
      rw [outcome] at calls
      cases calls
      rfl

theorem advances_checkLine {d₀ : Debugger} (known : id < d.contexts.size)
    (before : (d.context id).steps = (d₀.context id).steps) {position : Position} {receiver : Option Value}
    {moved : Bool}
    (fails : ∀ bp ∈ d.breakpointsFor id, bp.matchesPosition position → d.guardHoldsFor system receiver bp = false) :
    Advances id d₀ (d.checkLine system id position receiver moved) := by
  cases due : ((d.context id).countLine moved).isStepDue with
  | true =>
      obtain ⟨outcome, -, spent⟩ := checkLine_due system position receiver known due
      refine .halts _ moved before due (spent.trans ?_) ⟨position, outcome⟩
      exact congrArg (Countdown.off, Countdown.off, none, ·) (congrArg (·.2.2.2) before)
  | false =>
      obtain ⟨done, gait⟩ := checkLine_undue known due fails
      exact .counts _ moved before due (congrArg (·.2.2.2) gait) (passes_of_done done)

theorem advances_dispatch (known : id < d.contexts.size) (dismisses : d.Dismisses system id event) :
    Advances id d (d.dispatch system id event) := by
  cases heeded : (d.context id).skipped with
  | true =>
      have skips : d.dispatch system id event = (.done, d) := by rw [dispatch, heeded, if_pos rfl]
      rw [skips]
      exact .stays rfl rfl
  | false =>
      -- A line that is not traced is checked; anything else changes the steps only where it closes a frame.
      by_cases unchecked : event.line? = none ∨ (d.settings.tracing || (d.context id).tracing) = true
      · have steps := (carries_dispatch known system heeded unchecked).1
        rw [Context.steps_seeing] at steps
        have passes : (d.dispatch system id event).1.passes := by
          cases line : event.line? with
          | none => exact passes_of_done (dismisses.done known heeded line)
          | some position =>
              obtain ⟨kind, at'⟩ := Event.of_line? line
              have traced := unchecked.resolve_left (by rw [line]; exact Option.some_ne_none _)
              rw [dispatch_line system id event position d heeded at' kind]
              dsimp only
              rw [tracing_placed known, traced, if_pos rfl]
              rfl
        split at steps
        · next returns => exact .returns _ steps (depth_lt_of_returns known system heeded returns) passes
        · exact .stays steps passes
      · rw [not_or, Bool.not_eq_true] at unchecked
        obtain ⟨position, line⟩ := Option.ne_none_iff_exists'.mp unchecked.1
        have placed := gait_placed known system event position
        have known' := Nat.lt_of_lt_of_le known (d.touches_placed system id event position).size
        rw [dispatch_checks known heeded unchecked.2 line]
        exact advances_checkLine known' (congrArg (·.2.2.2) placed) (dismisses.fails_line line)

/-! ## Phases of a return -/

namespace Advances

variable {depth : Nat} (h : Advances id d piece)
include h

theorem waits (waits : (d.context id).Waits depth) (positive : 0 < depth) :
    ¬ HaltsOn id piece ∧ ((piece.2.context id).Waits depth ∨
      (d.context id).depth = depth ∧ (piece.2.context id).depth < depth ∧ (piece.2.context id).StepsOnce) := by
  have uncounted {context : Context} (before : context.steps = (d.context id).steps) (moved : Bool) :
      (context.countLine moved).Waits depth ∧ (context.countLine moved).isStepDue = false :=
    Context.Waits.countLine (before.trans waits) moved
  cases h with
  | stays same passes => exact ⟨not_haltsOn_of_passes passes, .inl (same.trans waits)⟩
  | returns method same fewer passes =>
      refine ⟨not_haltsOn_of_passes passes, ?_⟩
      by_cases here : (d.context id).depth = depth
      · refine .inr ⟨here, here ▸ fewer (here ▸ positive), same.trans ?_⟩
        exact Context.Waits.returnFrom_here waits here method
      · exact .inl (same.trans (Context.Waits.returnFrom_away waits here method))
  | counts context moved before undue same passes =>
      exact ⟨not_haltsOn_of_passes passes, .inl (same.trans (uncounted before moved).1)⟩
  | halts context moved before due spent outcome =>
      rw [(uncounted before moved).2] at due
      cases due

theorem stepsOnce (armed : (d.context id).StepsOnce) :
    (piece.2.context id).StepsOnce ∧ ¬ HaltsOn id piece ∨ (piece.2.context id).Disarmed := by
  have unfinished : (d.context id).finishDepth = none := congrArg (·.2.2.2) armed
  cases h with
  | stays same passes => exact .inl ⟨same.trans armed, not_haltsOn_of_passes passes⟩
  | returns method same fewer passes =>
      have kept := (Context.returnFrom_unfinished unfinished method).trans armed
      exact .inl ⟨same.trans kept, not_haltsOn_of_passes passes⟩
  | counts context moved before undue same passes =>
      have counted := Context.StepsOnce.countLine (before.trans armed) undue
      exact .inl ⟨same.trans counted, not_haltsOn_of_passes passes⟩
  | halts context moved before due spent outcome => exact .inr (spent.trans (by rw [unfinished]))

theorem disarmed (disarmed : (d.context id).Disarmed) : (piece.2.context id).Disarmed ∧ ¬ HaltsOn id piece := by
  have unfinished : (d.context id).finishDepth = none := congrArg (·.2.2.2) disarmed
  cases h with
  | stays same passes => exact ⟨same.trans disarmed, not_haltsOn_of_passes passes⟩
  | returns method same fewer passes =>
      have kept := (Context.returnFrom_unfinished unfinished method).trans disarmed
      exact ⟨same.trans kept, not_haltsOn_of_passes passes⟩
  | counts context moved before undue same passes =>
      have counted := Context.Disarmed.countLine (before.trans disarmed) moved
      exact ⟨same.trans counted, not_haltsOn_of_passes passes⟩
  | halts context moved before due spent outcome =>
      rw [(Context.Disarmed.countLine (before.trans disarmed) moved).not_due] at due
      cases due

theorem phase (phase : (d.context id).Finishes depth) (positive : 0 < depth) :
    (piece.2.context id).Finishes depth ∧ (HaltsOn id piece → (piece.2.context id).Disarmed) := by
  rcases phase with waits | armed | disarmed
  · obtain ⟨silent, waits | ⟨-, -, armed⟩⟩ := h.waits waits positive
    · exact ⟨.inl waits, fun halts => absurd halts silent⟩
    · exact ⟨.inr (.inl armed), fun halts => absurd halts silent⟩
  · rcases h.stepsOnce armed with ⟨armed, silent⟩ | disarmed
    · exact ⟨.inr (.inl armed), fun halts => absurd halts silent⟩
    · exact ⟨.inr (.inr disarmed), fun _ => disarmed⟩
  · exact ⟨.inr (.inr (h.disarmed disarmed).1), fun _ => (h.disarmed disarmed).1⟩

end Advances

theorem depth_line_le (known : id < d.contexts.size) (line : event.kind.isLine) :
    ((d.dispatch system id event).2.context id).depth ≤ max 1 (d.context id).depth := by
  cases heeded : (d.context id).skipped with
  | true =>
      rw [dispatch, heeded, if_pos rfl]
      exact Nat.le_max_right _ _
  | false =>
      have same := congrArg List.length (unbound_dispatch system known heeded event)
      rw [CallStack.length_unbound, CallStack.length_unbound] at same
      rw [Context.depth, same, Event.reshape]
      cases kind : event.kind with
      | line conditional =>
          cases event.position with
          | none => exact Nat.le_max_right _ _
          | some position =>
              simp only [Event.reshapeAt, kind]
              split
              · exact Nat.le_max_left _ _
              · rw [CallStack.length_modifyTop]
                exact Nat.le_max_right _ _
      | _ =>
          rw [kind] at line
          cases line

end Debugger

/-! ## Frames that are left -/

/-- The number of frames after events, where there was a number of them before. -/
def lastDepth (first : Nat) (trace : List (Event × Nat)) : Nat := trace.getLast?.elim first (·.2)

theorem lastDepth_concat (first : Nat) (trace : List (Event × Nat)) (entry : Event × Nat) :
    lastDepth first (trace ++ [entry]) = entry.2 := by
  rw [lastDepth, List.getLast?_concat, Option.elim_some]

/-- The first of some events that leaves fewer frames than up to a depth. -/
structure Leaves (depth : Nat) (trace before : List (Event × Nat)) (closing : Event × Nat)
    (after : List (Event × Nat)) : Prop where
  whole : trace = before ++ closing :: after
  kept : ∀ entry ∈ before, depth ≤ entry.2
  left : closing.2 < depth

/-- How far a context that waits for the return from a depth got with some events. If it stays below once the
frame is left, what armed a step was the return from that depth. -/
inductive Finishing (depth first : Nat) (trace : List (Event × Nat)) (context : Context) : Prop where
  | waits (waits : context.Waits depth) (kept : ∀ entry ∈ trace, depth ≤ entry.2)
  | left {before after : List (Event × Nat)} {closing : Event × Nat} (leaves : Leaves depth trace before closing after)
      (phase : context.Finishes depth)
      (below : 1 < depth → (∀ entry ∈ after, entry.1.kind.isLine = false → entry.2 < depth) →
        context.depth < depth ∧ (¬ context.Waits depth → lastDepth first before = depth))

namespace Finishing

theorem congr {depth first : Nat} {trace : List (Event × Nat)} {context context' : Context}
    (h : Finishing depth first trace context) (steps : context'.steps = context.steps)
    (frames : context'.depth = context.depth) : Finishing depth first trace context' := by
  cases h with
  | waits waits kept => exact .waits (steps.trans waits) kept
  | left leaves phase below =>
      refine .left leaves ?_ ?_
      · simpa only [Context.Finishes, Context.Waits, Context.StepsOnce, Context.Disarmed, steps] using phase
      · simpa only [Context.Waits, steps, frames] using below

variable {d : Debugger} {id : ContextId} {piece : Outcome × Debugger} {depth first : Nat}
  {trace entries : List (Event × Nat)}

theorem next (h : Finishing depth first trace (d.context id)) (advances : Debugger.Advances id d piece)
    (positive : 0 < depth) (reached : (d.context id).depth = lastDepth first trace)
    (shape : entries = [] ∧ (piece.2.context id).depth = (d.context id).depth ∨
      ∃ event : Event, entries = [(event, (piece.2.context id).depth)] ∧
        (event.kind.isLine → (piece.2.context id).depth ≤ max 1 (d.context id).depth)) :
    Finishing depth first (trace ++ entries) (piece.2.context id) := by
  cases h with
  | waits waits kept =>
      -- The first event that leaves fewer frames is the one that closes the frame, whether it arms the step or not.
      obtain ⟨-, waits' | ⟨here, fewer, armed⟩⟩ := advances.waits waits positive
      · rcases shape with ⟨rfl, -⟩ | ⟨event, rfl, -⟩
        · rw [List.append_nil]
          exact .waits waits' kept
        · by_cases keeps : depth ≤ (piece.2.context id).depth
          · exact .waits waits' (List.forall_mem_append.mpr ⟨kept, List.forall_mem_singleton.mpr keeps⟩)
          · have left := Nat.lt_of_not_le keeps
            exact .left ⟨rfl, kept, left⟩ (.inl waits') fun _ _ => ⟨left, fun spent => absurd waits' spent⟩
      · rcases shape with ⟨-, same⟩ | ⟨event, rfl, -⟩
        · omega
        · exact .left ⟨rfl, kept, fewer⟩ (.inr (.inl armed)) fun _ _ => ⟨fewer, fun _ => reached.symm.trans here⟩
  | @left before after closing leaves phase below =>
      have whole : trace ++ entries = before ++ closing :: (after ++ entries) := by
        rw [leaves.whole, List.append_assoc, List.cons_append]
      refine .left ⟨whole, leaves.kept, leaves.left⟩ (advances.phase phase positive).1 fun deep lower => ?_
      obtain ⟨fewer, last⟩ := below deep fun entry member => lower entry (List.mem_append_left _ member)
      -- A line opens a frame only where there is none, so the context stays below, where no return arms a step.
      refine ⟨?_, fun spent => last fun waits => ?_⟩
      · rcases shape with ⟨-, same⟩ | ⟨event, rfl, line⟩
        · exact same ▸ fewer
        · cases kind : event.kind.isLine with
          | true => exact Nat.lt_of_le_of_lt (line kind) (Nat.max_lt.mpr ⟨deep, fewer⟩)
          | false => exact lower (event, _) (List.mem_append_right _ List.mem_cons_self) kind
      · obtain ⟨-, waits' | ⟨here, -, -⟩⟩ := advances.waits waits positive
        · exact spent waits'
        · exact absurd here (Nat.ne_of_lt fewer)

theorem halts (h : Finishing depth first trace (d.context id)) (advances : Debugger.Advances id d piece)
    (positive : 0 < depth) (halts : Debugger.HaltsOn id piece) : (piece.2.context id).Disarmed := by
  cases h with
  | waits waits kept => exact absurd halts (advances.waits waits positive).1
  | left leaves phase below => exact (advances.phase phase positive).2 halts

end Finishing

namespace World

variable {w w' w₁ w₂ w₃ : World} {s : Nat} {move : Move} {act : Act} {id : ContextId} {depth first : Nat}
  {trace : List (Event × Nat)}

/-- Steps that do not tell a context to step, and with which no breakpoint and no exception makes it halt.
Sections are allowed, but its thread loads no code. -/
def Unsteered (id : ContextId) (w : World) (s : Nat) : Act → Prop
  | .move move =>
      w.Continues id s move ∧ (∀ event ∈ w.takes s move id, w.debugger.Dismisses s id event) ∧
        ∀ line ∈ w.rechecks s move id, ∀ bp ∈ w.debugger.breakpointsFor id, bp.matchesPosition line.1 →
          w.debugger.guardHoldsFor s line.2.1 bp = false
  | .load _ => (w.debugger.currentContext s).1 ≠ .ok id
  | .meet | .skip .. | .keep _ => True

structure Finishing (id : ContextId) (depth first : Nat) (trace : List (Event × Nat)) (w : World) : Prop where
  known : id < w.debugger.contexts.size
  undecided : w.Remaining (·.isDecided = false) id
  reached : (w.debugger.context id).depth = lastDepth first trace
  context : EventDebugger.Finishing depth first trace (w.debugger.context id)

theorem Finishing.proceed (h : w.Finishing id depth first trace) {task : Task} {rest : List Task}
    {piece : Outcome × Debugger} {entries : List (Event × Nat)}
    (step : w.Step s move (w.proceed s task rest piece)) (dispatches : move.isDispatch)
    (tasks : w.tasks s = task :: rest) (advances : Debugger.Advances id w.debugger piece) (positive : 0 < depth)
    (shape : entries = [] ∧ (piece.2.context id).depth = (w.debugger.context id).depth ∨
      ∃ event : Event, entries = [(event, (piece.2.context id).depth)] ∧
        (event.kind.isLine → (piece.2.context id).depth ≤ max 1 (w.debugger.context id).depth)) :
    (w.proceed s task rest piece).Finishing id depth first (trace ++ entries) ∧
      (w.Halts s move (w.proceed s task rest piece) id → (piece.2.context id).Disarmed) := by
  refine ⟨⟨step.known h.known, h.undecided.proceed tasks fun _ => advances.undecided, ?_,
    h.context.next advances positive h.reached shape⟩, fun halts => ?_⟩
  · rcases shape with ⟨rfl, same⟩ | ⟨event, rfl, -⟩
    · rw [List.append_nil, ← h.reached, ← same]
      rfl
    · rw [lastDepth_concat]
      rfl
  · exact h.context.halts advances positive ((halts_proceed_iff step dispatches).mp halts)

theorem Finishing.apart (h : w.Finishing id depth first trace) (known : id < w'.debugger.contexts.size)
    (undecided : w'.Remaining (·.isDecided = false) id)
    (keeps : ∀ steps frames, Debugger.Preserves (fun context => context.steps = steps ∧ context.depth = frames) id
      w.debugger w'.debugger) : w'.Finishing id depth first trace := by
  obtain ⟨steps, frames⟩ := keeps _ _ ⟨rfl, rfl⟩
  exact ⟨known, undecided, frames.trans h.reached, h.context.congr steps frames⟩

theorem neutral_steps (steps : Countdown × Countdown × Option Nat × Option Nat) (frames : Nat) :
    Neutral fun context : Context => context.steps = steps ∧ context.depth = frames :=
  ⟨fun h _ _ _ _ _ => h, fun _ _ _ h => h⟩

theorem Finishing.step (h : w.Finishing id depth first trace) (step : w.Step s move w')
    (ok : w.Unsteered id s (.move move)) (positive : 0 < depth) :
    w'.Finishing id depth first (trace ++ w.strides s (.move move) w' id) ∧
      (w.Halts s move w' id → (w'.debugger.context id).Disarmed) := by
  obtain ⟨continues, dismisses, fails⟩ := ok
  rw [strides_eq]
  cases step.regards h.known continues with
  | event tasks stage own is =>
      subst own is
      rename_i task rest event
      have takes : w.takes s .dispatch task.context = [event] := by rw [takes_eq tasks stage, if_pos rfl]
      rw [takes] at dismisses ⊢
      have advances := Debugger.advances_dispatch h.known (dismisses event (List.mem_singleton_self _))
      exact h.proceed step rfl tasks advances positive
        (.inr ⟨event, rfl, fun line => Debugger.depth_line_le h.known line⟩)
  | answer tasks stage own is =>
      subst own is
      rename_i task rest callback next
      rw [takes_eq_nil (by rintro ⟨⟩)]
      have advances : Debugger.Advances task.context w.debugger (next.run w.debugger s task.context) := by
        cases next with
        | lineTraced position receiver moved =>
            refine Debugger.advances_checkLine h.known rfl (fails (position, receiver, moved) ?_)
            simp only [rechecks, tasks, stage, if_true, Option.mem_def]
        | resumed => exact .stays rfl rfl
        | breakpointReported | exceptionReported => cases h.undecided s task (mem_innermost tasks) rfl stage
      exact h.proceed step rfl tasks advances positive (.inl ⟨rfl, Debugger.depth_run _⟩)
  | apart none silent keeps called =>
      rw [none, List.map_nil, List.append_nil]
      exact ⟨h.apart (step.known h.known) (h.undecided.apart called) fun steps frames =>
        keeps (neutral_steps steps frames), fun halts => absurd halts silent⟩

theorem Finishing.acts (h : w.Finishing id depth first trace) (acts : w.Acts s act w') (ok : w.Unsteered id s act)
    (positive : 0 < depth) : w'.Finishing id depth first (trace ++ w.strides s act w' id) := by
  have known := Nat.lt_of_lt_of_le h.known acts.lodges.size
  cases acts with
  | move step => exact (h.step step ok positive).1
  | load stop free =>
      rw [strides_eq_nil (by rintro _ ⟨⟩), List.append_nil]
      exact h.apart known h.undecided fun steps frames =>
        Debugger.preserves_prepareLoad (neutral_steps steps frames).tolerant _ s stop ok
  | meet free =>
      rw [strides_eq_nil (by rintro _ ⟨⟩), List.append_nil]
      exact h.apart known h.undecided fun steps frames =>
        Debugger.preserves_currentContext (neutral_steps steps frames).tolerant _ s
  | skip other on free =>
      rw [strides_eq_nil (by rintro _ ⟨⟩), List.append_nil]
      exact h.apart known h.undecided fun steps frames => Debugger.preserves_updateContext _ other fun h => h
  | keep on free =>
      rw [strides_eq_nil (by rintro _ ⟨⟩), List.append_nil]
      exact h.apart known h.undecided fun steps frames => .of_contexts rfl

theorem Strides.finishing (strides : Strides (Unsteered id) id w₁ trace w₂) (h : w₁.Finishing id depth first [])
    (positive : 0 < depth) : w₂.Finishing id depth first trace := by
  induction strides with
  | refl => exact h
  | step strides next ok ih => exact ih.acts next ok positive

/-- A context that was told to finish a frame halts only once the frame is gone. If from there on nothing but
lines happens unless further below, it halts in a frame below, and it was the return from the depth of the frame
that made it halt. -/
theorem halts_in_caller (active : w.debugger.isStarted) (known : id < w.debugger.contexts.size)
    (rests : (w.debugger.context id).AtRest) (frame : Nat) (valid : frame < (w.debugger.context id).depth)
    (undecided : w.Remaining (·.isDecided = false) id) {s₁ : Nat}
    (told : w.Step s₁ (.request (.context id (.stopFrame frame))) w₁)
    (strides : Strides (Unsteered id) id w₁ trace w₂) (step : w₂.Step s move w₃)
    (ok : w₂.Unsteered id s (.move move)) (halts : w₂.Halts s move w₃ id)
    (chosen : depth = (w.debugger.context id).depth - frame) :
    ∃ before closing after, Leaves depth (trace ++ w₂.strides s (.move move) w₃ id) before closing after ∧
      (1 < depth → (∀ entry ∈ after, entry.1.kind.isLine = false → entry.2 < depth) →
        (w₃.debugger.context id).depth < depth ∧ lastDepth (w.debugger.context id).depth before = depth) := by
  have positive : 0 < depth := by omega
  have told : w₁.Finishing id depth (w.debugger.context id).depth [] := by
    obtain ⟨context, tasks⟩ := context_of_told active known valid told
    rw [← chosen] at context
    refine ⟨told.known known, ?_, by rw [context]; rfl, .waits ?_ (List.forall_mem_nil _)⟩
    · rw [World.Remaining, tasks]
      exact undecided
    rw [context]
    simp only [Context.Waits, Context.steps, rests.next, rests.line, rests.anywhere]
  obtain ⟨finished, spent⟩ := (strides.finishing told positive).step step ok positive
  have passed : ¬ (w₃.debugger.context id).Waits depth := by
    intro waits
    cases (spent halts).symm.trans waits
  cases finished.context with
  | waits waits => exact absurd waits passed
  | left leaves phase below =>
      refine ⟨_, _, _, leaves, fun deep lower => ?_⟩
      obtain ⟨fewer, last⟩ := below deep lower
      exact ⟨fewer, last passed⟩

/-! ## Calls after the return -/

instance (act : Act) : Decidable (Unsteered id w s act) :=
  match act with
  | .move move => inferInstanceAs (Decidable (w.Continues id s move ∧ _ ∧ _))
  | .load _ => inferInstanceAs (Decidable ((w.debugger.currentContext s).1 ≠ .ok id))
  | .meet | .skip .. | .keep _ => isTrue trivial

def finishingBefore (events : List Event) (last : Event) : World :=
  (toldToFinish onInner).afterwards
    (ofFirst ([.answer, .release] ++ events.flatMap Move.ofEvent ++ [.arrive last, .ask]))

def backInCaller : World := finishingBefore [eventOf .return "f" 7] (lineOf 2)

theorem halts_in_caller_of_line :
    let w' := backInCaller.afterwards (ofFirst [.dispatch])
    Strides (Unsteered 0) 0 (toldToFinish onInner) [(eventOf .return "f" 7, 1)] backInCaller ∧
      backInCaller.Halts 0 .dispatch w' 0 ∧ (w'.debugger.context 0).depth < 2 := by
  have undecided : onInner.Remaining (·.isDecided = false) 0 := by
    have unreported : onInner.Unreported 0 := .of_halted rfl rfl fun _ => rfl
    intro s task member own callback next stage
    rw [unreported s task member own stage]
    rfl
  have told : onInner.Step 0 (.request (.context 0 (.stopFrame 0))) (toldToFinish onInner) :=
    .request _ (by rintro _ ⟨⟩; rfl)
  have strides : Strides (Unsteered 0) 0 (toldToFinish onInner) [(eventOf .return "f" 7, 1)] backInCaller := by
    have followed : (toldToFinish onInner).follow? (Unsteered 0) (ofFirst ([.answer, .release] ++
      Move.ofEvent (eventOf .return "f" 7) ++ [.arrive (lineOf 2), .ask])) = some backInCaller := rfl
    exact Strides.follow _ .refl (fun _ _ _ ok => ok) followed
  have last : backInCaller.Step 0 .dispatch (backInCaller.afterwards (ofFirst [.dispatch])) := step_of_perform? rfl
  have halts : backInCaller.Halts 0 .dispatch (backInCaller.afterwards (ofFirst [.dispatch])) 0 :=
    ⟨last, rfl, _, rfl, ⟨"a.rb", 2⟩, .resumed, rfl⟩
  obtain ⟨before, closing, after, leaves, below⟩ := halts_in_caller rfl (by decide) ⟨rfl, rfl, rfl⟩ 0
    (by decide) undecided told strides last (by decide) halts rfl
  have lower : ∀ entry ∈ [(eventOf .return "f" 7, 1)] ++
      backInCaller.strides 0 (.move .dispatch) (backInCaller.afterwards (ofFirst [.dispatch])) 0, entry.2 < 2 := by
    decide
  rw [leaves.whole] at lower
  refine ⟨strides, halts, (below (by decide) fun entry member _ => lower entry ?_).1⟩
  exact List.mem_append_right before (List.mem_cons_of_mem closing member)

def inCallee : World :=
  finishingBefore [eventOf .return "f" 7, eventOf .call "g" 20] (eventOf (.line false) "g" 21)

/-- The step that the return arms is not bound to the caller, so the context halts in the method that is called
from there. -/
theorem halts_in_callee :
    let w := onInner
    let w' := inCallee.afterwards (ofFirst [.dispatch])
    w.debugger.isStarted ∧ (w.debugger.context 0).dead = false ∧ (w.debugger.context 0).AtRest ∧
      (w.debugger.context 0).depth = 2 ∧ w.Unreported 0 ∧
      w.Step 0 (.request (.context 0 (.stopFrame 0))) (toldToFinish w) ∧
      Strides (Unsteered 0) 0 (toldToFinish w) [(eventOf .return "f" 7, 1), (eventOf .call "g" 20, 2)] inCallee ∧
      inCallee.Step 0 .dispatch w' ∧ inCallee.Unsteered 0 0 (.move .dispatch) ∧ inCallee.Halts 0 .dispatch w' 0 ∧
      ¬ (w'.debugger.context 0).depth ≤ 1 ∧
      (w'.debugger.context 0).stack.head?.map (·.openedFor) = some (some "g") := by
  have told : onInner.Step 0 (.request (.context 0 (.stopFrame 0))) (toldToFinish onInner) :=
    .request _ (by rintro _ ⟨⟩; rfl)
  have strides : Strides (Unsteered 0) 0 (toldToFinish onInner)
      [(eventOf .return "f" 7, 1), (eventOf .call "g" 20, 2)] inCallee := by
    have followed : (toldToFinish onInner).follow? (Unsteered 0) (ofFirst ([.answer, .release] ++
      [eventOf .return "f" 7, eventOf .call "g" 20].flatMap Move.ofEvent ++
      [.arrive (eventOf (.line false) "g" 21), .ask])) = some inCallee := rfl
    exact Strides.follow _ .refl (fun _ _ _ ok => ok) followed
  have last : inCallee.Step 0 .dispatch (inCallee.afterwards (ofFirst [.dispatch])) := step_of_perform? rfl
  exact ⟨rfl, rfl, ⟨rfl, rfl, rfl⟩, rfl, .of_halted rfl rfl fun _ => rfl, told, strides, last, by decide,
    ⟨last, rfl, _, rfl, ⟨"a.rb", 21⟩, .resumed, rfl⟩, by decide, rfl⟩

end World

end EventDebugger
