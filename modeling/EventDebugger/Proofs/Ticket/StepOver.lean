import EventDebugger.Proofs.Ticket.Balance
import EventDebugger.Proofs.Ticket.Steps

/-!
# Stepping over calls

A context that is told to step over halts in the frame of its choice, after a number of lines that count there,
or in a frame below, whichever comes first; it never halts in a method that is called from there. In the frame a
line counts if it is not at the position of the last halt, or if anything else than a line happened since
another one counted.

* `World.halts_after_stepOver`: the halt, its position and its reason.
* `World.halts_over_same_line`: a halt on a line that should not count.
-/

namespace EventDebugger

/-- How many lines have counted for a step over, and whether anything else than a line happened since the last
one of them, or since the command. -/
structure Tally where
  counted : Nat
  stirred : Bool
deriving DecidableEq, Repr

namespace Tally

variable (depth : Nat) (force : Bool) (last : Option Position)

/-- Whether an event is a line that counts, if it is in the frame of the step over. -/
def counts (tally : Tally) (event : Event) : Bool :=
  event.line?.any fun position => decide (last ≠ some position) || force || tally.stirred

def next (tally : Tally) (entry : Event × Nat) : Tally :=
  if entry.2 = depth ∧ tally.counts force last entry.1 then ⟨tally.counted + 1, false⟩
  else { tally with stirred := tally.stirred || !entry.1.kind.isLine }

def after (trace : List (Event × Nat)) : Tally := trace.foldl (next depth force last) ⟨0, false⟩

/-- Whether an event is a line below the frame of the step over, or the last one to count in it. -/
def Due (n : Nat) (tally : Tally) (entry : Event × Nat) : Prop :=
  entry.1.line?.isSome ∧
    (entry.2 < depth ∨ entry.2 = depth ∧ tally.counts force last entry.1 ∧ tally.counted + 1 = n)

variable {depth force last} {n : Nat} {tally : Tally} {entry : Event × Nat} {trace trace' : List (Event × Nat)}

theorem counted_le_next : tally.counted ≤ (tally.next depth force last entry).counted := by
  unfold next
  split
  · exact Nat.le_succ _
  · exact Nat.le_refl _

theorem counted_le_foldl :
    tally.counted ≤ (trace.foldl (next depth force last) tally).counted := by
  induction trace generalizing tally with
  | nil => exact Nat.le_refl _
  | cons entry trace ih => exact Nat.le_trans counted_le_next ih

theorem next_lt (fewer : tally.counted < n) (undue : ¬ tally.Due depth force last n entry) :
    (tally.next depth force last entry).counted < n := by
  unfold next
  split
  · next counts =>
      obtain ⟨here, counts⟩ := counts
      have line : entry.1.line?.isSome := by
        cases line : entry.1.line? with
        | none =>
            rw [Tally.counts, line] at counts
            cases counts
        | some => rfl
      have more : tally.counted + 1 ≠ n := fun last => undue ⟨line, .inr ⟨here, counts, last⟩⟩
      dsimp only
      omega
  · exact fewer

end Tally

/-! ## Contexts -/

namespace Context

structure StepsOver (depth n : Nat) (force : Bool) (last : Option Position) (stirred : Bool) (context : Context) :
    Prop where
  live : context.dead = false
  heeded : context.skipped = false
  gait : context.gait = (stirred, force, last, .off, .armed n, some depth, none)

namespace StepsOver

variable {depth n : Nat} {force : Bool} {last : Option Position} {stirred moved : Bool} {context : Context}
  (h : context.StepsOver depth n force last stirred)
include h

theorem gait_seeing (opens : Option TypeRef → Bool → Bool) (event : Event) :
    (context.seeing opens event).gait =
      (stirred || !event.kind.isLine, force, last, .off, .armed n, some depth, none) := by
  have gait := h.gait
  simp only [Context.gait, steps, Prod.mk.injEq] at gait
  obtain ⟨stepped, forced, saved, next, line, target, finish⟩ := gait
  simp only [seeing, returnFrom, noteEvent, finish, reduceCtorEq, if_false]
  split <;> simp only [Context.gait, steps, stepped, forced, saved, next, line, target]

theorem countLine_deeper (deeper : depth < context.depth) : context.countLine moved = context := by
  have target : context.targetDepth = some depth := congrArg (·.2.2.2.2.2.1) h.gait
  simp only [countLine, target, if_neg (Nat.lt_asymm deeper), if_pos deeper]

theorem due_below (below : context.depth < depth) : (context.countLine moved).isStepDue := by
  have target : context.targetDepth = some depth := congrArg (·.2.2.2.2.2.1) h.gait
  simp only [countLine, target, if_pos below, isStepDue, Countdown.isDue_armed, beq_self_eq_true, Bool.true_or]

theorem countLine_here (here : context.depth = depth) (moved : Bool) : (context.countLine moved).gait =
    (false, force, last, .off, if moved || force || stirred then (Countdown.armed n).tick else .armed n,
      some depth, none) := by
  have gait := h.gait
  simp only [Context.gait, steps, Prod.mk.injEq] at gait
  obtain ⟨stepped, forced, saved, next, line, target, finish⟩ := gait
  simp only [countLine, target, here, Nat.lt_irrefl, if_false, tickSteps, Context.gait, steps, stepped, forced, saved,
    next, line, finish, Countdown.tick_off, ite_self]

end StepsOver

/-! ## Lines -/

section

variable {depth n : Nat} {force : Bool} {last : Option Position} {tally : Tally} {context : Context} {event : Event}
  {position : Position} (h : context.StepsOver depth (n - tally.counted) force last tally.stirred)
  (line : event.line? = some position) (fewer : tally.counted < n)

include h line

theorem StepsOver.due (due : tally.Due depth force last n (event, context.depth)) :
    (context.countLine (decide (last ≠ some position))).isStepDue := by
  obtain ⟨-, below | ⟨here, counts, final⟩⟩ := due
  · exact h.due_below below
  · have counted := h.countLine_here here (decide (last ≠ some position))
    rw [Tally.counts, line, Option.any_some] at counts
    rw [if_pos counts, show n - tally.counted = 0 + 1 by omega, Countdown.tick_armed_succ] at counted
    have zero : (context.countLine (decide (last ≠ some position))).stopLine = .armed 0 :=
      congrArg (·.2.2.2.2.1) counted
    rw [isStepDue, zero, Countdown.isDue_armed, beq_self_eq_true, Bool.or_true]

include fewer in
theorem StepsOver.undue (undue : ¬ tally.Due depth force last n (event, context.depth)) :
    let tally' := tally.next depth force last (event, context.depth)
    (context.countLine (decide (last ≠ some position))).isStepDue = false ∧
      (context.countLine (decide (last ≠ some position))).gait =
        (tally'.stirred, force, last, .off, .armed (n - tally'.counted), some depth, none) := by
  have remain := Tally.next_lt fewer undue
  have isLine : event.kind.isLine := by
    rw [(Event.of_line? line).1]
    rfl
  have notDue {context' : Context} {stirred : Bool} {m : Nat} (more : 0 < m)
      (gait : context'.gait = (stirred, force, last, .off, .armed m, some depth, none)) :
      context'.isStepDue = false := by
    have next : context'.stopNext = .off := congrArg (·.2.2.2.1) gait
    have line : context'.stopLine = .armed m := congrArg (·.2.2.2.2.1) gait
    rw [isStepDue, next, line, Countdown.isDue_armed, beq_eq_false_iff_ne.mpr (Nat.ne_of_gt more)]
    rfl
  have gait : (context.countLine (decide (last ≠ some position))).gait =
      ((tally.next depth force last (event, context.depth)).stirred, force, last, .off,
        .armed (n - (tally.next depth force last (event, context.depth)).counted), some depth, none) := by
    rcases Nat.lt_trichotomy context.depth depth with below | here | deeper
    · exact absurd ⟨by rw [line]; rfl, .inl below⟩ undue
    · have counted := h.countLine_here here (decide (last ≠ some position))
      rw [counted]
      unfold Tally.next at remain ⊢
      simp only [here, Tally.counts, line, Option.any_some, true_and] at remain ⊢
      split
      · next counts =>
          rw [if_pos counts] at remain
          dsimp only at remain
          rw [show n - tally.counted = n - (tally.counted + 1) + 1 by omega, Countdown.tick_armed_succ]
      · next stays =>
          have calm : tally.stirred = false := by
            revert stays
            cases tally.stirred <;> simp
          rw [isLine, calm]
          rfl
    · rw [h.countLine_deeper deeper, h.gait]
      simp only [Tally.next, Nat.ne_of_gt deeper, false_and, if_false, isLine, Bool.not_true, Bool.or_false]
  exact ⟨notDue (Nat.sub_pos_of_lt remain) gait, gait⟩

end

end Context

namespace Debugger

variable {d : Debugger} {system : Nat} {id : ContextId} {event : Event} {depth n : Nat} {force : Bool}
  {last : Option Position} {tally : Tally} (known : id < d.contexts.size)
  (h : (d.context id).StepsOver depth (n - tally.counted) force last tally.stirred) (fewer : tally.counted < n)
  (ignores : d.Ignores system id event)

include known h

theorem stepsOver_placed (system : Nat) {position : Position} (line : event.line? = some position) :
    ((d.placed system id event position).context id).StepsOver depth (n - tally.counted) force last
      tally.stirred := by
  have traits := (d.touches_placed system id event position).traits id known
  refine ⟨(congrArg (·.2.2.2.2.2.2.1) traits).trans h.live, (congrArg (·.2.2.2.2.1) traits).trans h.heeded, ?_⟩
  rw [gait_placed known, ← h.gait, (Event.of_line? line).1]
  simp only [Context.gait, Context.noteEvent, EventKind.isLine, Bool.not_true, Bool.or_false, Context.steps]

theorem depth_dispatch_line {position : Position} (line : event.line? = some position)
    (ignores : d.Ignores system id event) :
    ((d.dispatch system id event).2.context id).depth = ((d.placed system id event position).context id).depth := by
  rw [dispatch_checks known h.heeded ignores.untraced line, depth_checkLine]

include ignores

theorem stepsOver_due
    (due : tally.Due depth force last n (event, ((d.dispatch system id event).2.context id).depth)) :
    ∃ position, event.position = some position ∧
      (d.dispatch system id event).1 = .call (.line id position) .resumed ∧
      ((d.dispatch system id event).2.context id).reason = .step ∧
      ((d.dispatch system id event).2.context id).Disarmed := by
  obtain ⟨position, line⟩ : ∃ position, event.line? = some position := Option.isSome_iff_exists.mp due.1
  have placed := stepsOver_placed known h system line
  have known' := Nat.lt_of_lt_of_le known (d.touches_placed system id event position).size
  rw [depth_dispatch_line known h line ignores] at due
  obtain ⟨outcome, reason, disarmed⟩ := checkLine_due system position event.receiver known'
    (placed.due line due)
  have unfinished : ((d.placed system id event position).context id).finishDepth = none :=
    congrArg (·.2.2.2.2.2.2) placed.gait
  have last_eq : (d.context id).lastPosition = last := congrArg (·.2.2.1) h.gait
  rw [dispatch_checks known h.heeded ignores.untraced line, last_eq]
  rw [unfinished] at disarmed
  exact ⟨position, (Event.of_line? line).2, outcome, reason, disarmed⟩

include fewer in
theorem stepsOver_undue
    (undue : ¬ tally.Due depth force last n (event, ((d.dispatch system id event).2.context id).depth)) :
    let tally' := tally.next depth force last (event, ((d.dispatch system id event).2.context id).depth)
    (d.dispatch system id event).1 = .done ∧
      ((d.dispatch system id event).2.context id).StepsOver depth (n - tally'.counted) force last tally'.stirred := by
  have live := live_dispatch known h.live system event
  have heeded := (congrArg (·.2.2.2.2.1) (d.traits_dispatch system id event known)).trans h.heeded
  cases line : event.line? with
  | none =>
      obtain ⟨done, gait⟩ := ignores.dismisses.dispatch_other known h.heeded line
      refine ⟨done, live, heeded, ?_⟩
      rw [gait, h.gait_seeing]
      simp only [Tally.next, Tally.counts, line, Option.any_none, Bool.false_eq_true, and_false, if_false]
  | some position =>
      have placed := stepsOver_placed known h system line
      have known' := Nat.lt_of_lt_of_le known (d.touches_placed system id event position).size
      have depth_eq := depth_dispatch_line known h line ignores
      have last_eq : (d.context id).lastPosition = last := congrArg (·.2.2.1) h.gait
      rw [depth_eq] at undue ⊢
      obtain ⟨notDue, counted⟩ := placed.undue line fewer undue
      obtain ⟨done, gait⟩ := checkLine_undue known' notDue (ignores.dismisses.fails_line line)
      rw [dispatch_checks known h.heeded ignores.untraced line, last_eq] at live heeded ⊢
      exact ⟨done, live, heeded, gait.trans counted⟩

end Debugger

theorem Debugger.serve_stepOver {d : Debugger} (active : d.isStarted) (s : Nat) (id : ContextId) {n : Nat}
    (few : n < 4294967296) {index : Option Nat} (valid : index.getD 0 < (d.context id).depth) (force : Bool) :
    (Request.context id (.stepOver n (index.map Nat.cast) force)).serve s d =
      d.updateContext id fun _ => { d.context id with
        stopLine := .armed n, stepped := false,
        targetDepth := some ((d.context id).depth - index.getD 0), forced := force } := by
  have checked : Context.checkSteps n = .ok n := by
    rw [Context.checkSteps, if_pos ⟨by omega, by omega⟩, Int.toNat_natCast]
  have framed : (d.context id).stack.isEmpty = false := by
    cases stack : (d.context id).stack with
    | nil =>
        rw [Context.depth, stack] at valid
        cases valid
    | cons => rfl
  have commanded : d.command id (·.stepOver n (index.map Nat.cast) force) = .ok (d.updateContext id fun _ =>
      { d.context id with
        stopLine := .armed n, stepped := false,
        targetDepth := some ((d.context id).depth - index.getD 0), forced := force }) := by
    cases index with
    | none =>
        simp only [command, inspect, active, if_true, Context.stepOver, checked, framed]
        rfl
    | some i =>
        have chosen : Context.checkFrame (i : Int) (d.context id).depth = .ok i := by
          rw [Option.getD_some] at valid
          rw [Context.checkFrame, if_neg (by omega), if_neg (by omega), Int.toNat_natCast]
        simp only [command, inspect, active, if_true, Context.stepOver, checked, framed, Option.map_some, chosen]
        rfl
  have served := Script.Attempt.debugger_map
    (Script.Attempt.perform fun d => d.command id (·.stepOver n (index.map Nat.cast) force))
    (fun _ => Script.Reply.done) d (.initial [])
  rw [Script.Attempt.debugger_perform, commanded] at served
  exact served

namespace World

variable {w w' w₀ w₁ w₂ w₃ : World} {s : Nat} {move : Move} {id : ContextId} {depth n : Nat} {force : Bool}
  {last : Option Position} {tally : Tally} {trace : List (Event × Nat)}

/-- Steps that do not tell a context to step, and dispatch no event on which it halts unless for a step; no
sections among them. -/
def Unhindered (id : ContextId) (w : World) (s : Nat) (act : Act) : Prop :=
  ∃ move, act = .move move ∧ w.Undisturbed id s move

structure SteppingOver (id : ContextId) (depth n : Nat) (force : Bool) (last : Option Position) (tally : Tally)
    (w : World) : Prop where
  known : id < w.debugger.contexts.size
  context : (w.debugger.context id).StepsOver depth (n - tally.counted) force last tally.stirred
  fewer : tally.counted < n
  unreported : w.Unreported id

theorem neutral_stepsOver (depth n : Nat) (force : Bool) (last : Option Position) (stirred : Bool) :
    Neutral (Context.StepsOver depth n force last stirred) :=
  ⟨fun h _ _ _ _ _ => ⟨h.live, h.heeded, h.gait⟩, fun _ _ _ h => ⟨h.live, h.heeded, h.gait⟩⟩

theorem SteppingOver.step (h : w.SteppingOver id depth n force last tally) (step : w.Step s move w')
    (ok : w.Undisturbed id s move)
    (undue : ∀ entry ∈ w.strides s (.move move) w' id, ¬ tally.Due depth force last n entry) :
    w'.SteppingOver id depth n force last
        ((w.strides s (.move move) w' id).foldl (Tally.next depth force last) tally) ∧
      ¬ w.Halts s move w' id := by
  rw [strides_eq] at undue ⊢
  cases step.regards h.known ok.continues with
  | event tasks stage own is =>
      subst own is
      rename_i task rest event
      have takes : w.takes s .dispatch task.context = [event] := by rw [takes_eq tasks stage, if_pos rfl]
      have ignores := ok.ignores event (takes ▸ List.mem_singleton_self event)
      rw [takes] at undue ⊢
      have undue := undue _ (List.mem_singleton_self _)
      obtain ⟨done, context⟩ := Debugger.stepsOver_undue h.known h.context h.fewer ignores undue
      exact ⟨⟨step.known h.known, context, Tally.next_lt h.fewer undue, h.unreported.proceed tasks fun _ => done⟩,
        not_halts_of_done step rfl done⟩
  | answer tasks stage own is =>
      subst own is
      rw [takes_eq_nil (by rintro ⟨⟩)]
      obtain rfl := h.unreported s _ (mem_innermost tasks) rfl stage
      exact ⟨⟨h.known, h.context, h.fewer, h.unreported.proceed tasks fun _ => rfl⟩, not_halts_of_done step rfl rfl⟩
  | apart none silent keeps called =>
      rw [none]
      refine ⟨⟨step.known h.known, ?_, h.fewer, h.unreported.apart called⟩, silent⟩
      exact keeps (neutral_stepsOver _ _ force last _) h.context

theorem SteppingOver.halts (h : w.SteppingOver id depth n force last tally) (step : w.Step s move w')
    (ok : w.Undisturbed id s move) {event : Event} (takes : w.takes s move id = [event])
    (due : tally.Due depth force last n (event, (w'.debugger.context id).depth)) :
    w.Halts s move w' id ∧ ∃ position, event.position = some position ∧
      (w'.tasks s).head?.map (·.stage) = some (.called (.line id position) .resumed) ∧
      (w'.debugger.context id).stopReason = .step ∧ (w'.debugger.context id).Disarmed := by
  cases step.regards h.known ok.continues with
  | event tasks stage own is =>
      subst own is
      rename_i task rest event'
      rw [takes_eq tasks stage, if_pos rfl] at takes
      obtain rfl := List.singleton_inj.mp takes
      have ignores := ok.ignores event' (by rw [takes_eq tasks stage, if_pos rfl]; exact List.mem_singleton_self _)
      obtain ⟨position, at', outcome, reason, disarmed⟩ := Debugger.stepsOver_due h.known h.context ignores due
      have live := Debugger.live_dispatch h.known h.context.live s event'
      obtain ⟨halts, called, reason⟩ := halts_of_step step rfl outcome live reason
      exact ⟨halts, position, at', called, reason, disarmed⟩
  | answer => cases takes
  | apart none => cases none.symm.trans takes

theorem Strides.steppingOver (strides : Strides (Unhindered id) id w₁ trace w₂)
    (h : w₁.SteppingOver id depth n force last tally)
    (fewer : (trace.foldl (Tally.next depth force last) tally).counted < n)
    (inside : ∀ entry ∈ trace, entry.1.line?.isSome → depth ≤ entry.2) :
    w₂.SteppingOver id depth n force last (trace.foldl (Tally.next depth force last) tally) := by
  induction strides with
  | refl => exact h
  | @step w w' trace s act strides next ok ih =>
      obtain ⟨move, rfl, undisturbed⟩ := ok
      rw [List.foldl_append] at fewer ⊢
      have before := ih (Nat.lt_of_le_of_lt Tally.counted_le_foldl fewer)
        fun entry member => inside entry (List.mem_append_left _ member)
      cases next with
      | move step =>
          refine (before.step step undisturbed fun entry member due => ?_).1
          obtain ⟨line, below | ⟨here, counts, final⟩⟩ := due
          · exact Nat.not_le_of_lt below (inside entry (List.mem_append_right _ member) line)
          · -- The entry is the only one of the step, so the tally would be full after it.
            have all : w.strides s (.move move) w' id = [entry] := by
              rw [strides_eq] at member ⊢
              rcases w.takes_eq_nil_or s move id with none | ⟨event, takes⟩
              · rw [none] at member
                cases member
              · rw [takes] at member ⊢
                rw [List.mem_singleton.mp member]
                rfl
            rw [all, List.foldl_cons, List.foldl_nil, Tally.next, if_pos ⟨here, counts⟩, final] at fewer
            exact Nat.lt_irrefl n fewer

/-- A context that was told to step over halts on the last line that counts in the frame, or on the first one
below it, and on no event before: at its position, for the reason of a step, and so that no step is armed any
more. -/
theorem halts_after_stepOver (idle : ∀ s, w₀.tasks s = []) (own : w₀.debugger.host.OwnThreads)
    (tracked : w₀.debugger.WellTracked) (fresh : (w₀.debugger.context id).lastPosition = none)
    (halted : LastHalt (fun w s => ¬ w.ReportsUnframed s) id w₀ w last) (active : w.debugger.isStarted)
    (known : id < w.debugger.contexts.size) (live : (w.debugger.context id).dead = false)
    (heeded : (w.debugger.context id).skipped = false) (still : (w.debugger.context id).stopNext = .off)
    (unfinished : (w.debugger.context id).finishDepth = none) (unreported : w.Unreported id) (positive : 0 < n)
    (few : n < 4294967296) (index : Option Nat) (valid : index.getD 0 < (w.debugger.context id).depth)
    (chosen : depth = (w.debugger.context id).depth - index.getD 0) {s₁ : Nat}
    (told : w.Step s₁ (.request (.context id (.stepOver n (index.map Nat.cast) force))) w₁)
    (strides : Strides (Unhindered id) id w₁ trace w₂) (fewer : (Tally.after depth force last trace).counted < n)
    (inside : ∀ entry ∈ trace, entry.1.line?.isSome → depth ≤ entry.2) (step : w₂.Step s move w₃)
    (ok : w₂.Undisturbed id s move) :
    (w₂.Halts s move w₃ id ↔ ∃ event, w₂.takes s move id = [event] ∧
        (Tally.after depth force last trace).Due depth force last n (event, (w₃.debugger.context id).depth)) ∧
      (w₂.Halts s move w₃ id → ∃ event position, w₂.takes s move id = [event] ∧ event.position = some position ∧
        (w₃.tasks s).head?.map (·.stage) = some (.called (.line id position) .resumed) ∧
        (w₃.debugger.context id).stopReason = .step ∧ (w₃.debugger.context id).Disarmed) := by
  have told : w₁.SteppingOver id depth n force last ⟨0, false⟩ := by
    cases told with
    | request _ free =>
        have served := Debugger.serve_stepOver active s₁ id few valid force
        refine ⟨?_, ?_, positive, unreported⟩
        · change id < ((Request.context id (.stepOver n (index.map Nat.cast) force)).serve s₁ w.debugger).contexts.size
          rw [served, Debugger.size_updateContext]
          exact known
        · change (((Request.context id (.stepOver n (index.map Nat.cast) force)).serve s₁ w.debugger).context
            id).StepsOver depth n force last false
          rw [served, Debugger.context_updateContext_self _ _ known, ← chosen]
          have keeps := (halted.position idle own tracked fresh).resolve_left (by rw [live]; nofun)
          refine ⟨live, heeded, ?_⟩
          simp only [Context.gait, Context.steps, keeps, still, unfinished]
  have now := strides.steppingOver told fewer inside
  by_cases due : ∃ event, w₂.takes s move id = [event] ∧
      (Tally.after depth force last trace).Due depth force last n (event, (w₃.debugger.context id).depth)
  · obtain ⟨event, takes, due⟩ := due
    obtain ⟨halts, position, at', called, reason, disarmed⟩ := now.halts step ok takes due
    exact ⟨⟨fun _ => ⟨event, takes, due⟩, fun _ => halts⟩,
      fun _ => ⟨event, position, takes, at', called, reason, disarmed⟩⟩
  · have silent : ¬ w₂.Halts s move w₃ id := by
      refine (now.step step ok fun entry member is => ?_).2
      rw [strides_eq] at member
      rcases w₂.takes_eq_nil_or s move id with none | ⟨event, takes⟩
      · rw [none] at member
        cases member
      · rw [takes] at member
        obtain rfl := List.mem_singleton.mp member
        exact due ⟨event, takes, is⟩
    exact ⟨⟨fun halts => absurd halts silent, fun is => absurd is due⟩, fun halts => absurd halts silent⟩

/-! ## A line after a call -/

theorem unhindered_of_ignored {act : Act} (h : Ignored id w s act) : w.Unhindered id s act := by
  cases act with
  | move move => exact ⟨move, rfl, undisturbed_of_ignored h⟩
  | _ => cases h

def toldToStepOver (w : World) : World :=
  w.become ((Request.context 0 (.stepOver 1 none false)).serve 0 w.debugger)

def goingOver : List Move :=
  [.answer, .release] ++ Move.ofEvent (lineOf 2) ++ Move.ofEvent (entryOf 5) ++ Move.ofEvent (lineOf 6) ++
    Move.ofEvent (eventOf .return "f" 7) ++ [.arrive (lineOf 2), .ask]

def beforeReturn : World := (toldToStepOver onSecond).afterwards (ofFirst goingOver)

theorem halts_over_call :
    let w' := beforeReturn.afterwards (ofFirst [.dispatch])
    Strides (Unhindered 0) 0 (toldToStepOver onSecond)
        [(lineOf 2, 1), (entryOf 5, 2), (lineOf 6, 2), (eventOf .return "f" 7, 1)] beforeReturn ∧
      beforeReturn.Halts 0 .dispatch w' 0 ∧ (w'.debugger.context 0).stopReason = .step ∧
      (w'.debugger.context 0).Disarmed := by
  have before : Course Plain unstarted beforeSecond := course_of_follow? (ofFirst toSecond) rfl
  have halts : beforeSecond.Halts 0 .dispatch onSecond 0 :=
    ⟨step_of_perform? rfl, rfl, _, rfl, ⟨"a.rb", 2⟩, .resumed, rfl⟩
  have framed : ¬ beforeSecond.ReportsUnframed 0 := by
    rintro ⟨task, first, _, _, stage, _⟩
    cases first
    cases stage
  have halted : LastHalt (fun w s => ¬ w.ReportsUnframed s) 0 unstarted onSecond (some ⟨"a.rb", 2⟩) :=
    .once before halts framed rfl rfl (.refl _)
  have unreported : onSecond.Unreported 0 := .of_halted rfl rfl fun _ => rfl
  have told : onSecond.Step 0 (.request (.context 0 (.stepOver 1 none false))) (toldToStepOver onSecond) :=
    .request _ (by rintro _ ⟨⟩; rfl)
  have strides : Strides (Unhindered 0) 0 (toldToStepOver onSecond)
      [(lineOf 2, 1), (entryOf 5, 2), (lineOf 6, 2), (eventOf .return "f" 7, 1)] beforeReturn := by
    have followed : (toldToStepOver onSecond).follow? (Ignored 0) (ofFirst goingOver) = some beforeReturn := rfl
    exact Strides.follow _ .refl (fun _ _ _ => unhindered_of_ignored) followed
  have last : beforeReturn.Step 0 .dispatch (beforeReturn.afterwards (ofFirst [.dispatch])) := step_of_perform? rfl
  have ignored : beforeReturn.Undisturbed 0 0 .dispatch := undisturbed_of_ignored (by decide)
  obtain ⟨halts, halt⟩ := halts_after_stepOver (fun _ => rfl) Host.ownThreads_initial (.of_ended rfl) rfl halted rfl
    (by decide) rfl rfl rfl rfl unreported Nat.one_pos (by decide) none (by decide) rfl told strides
    (by decide) (by decide) last ignored
  have now := halts.mpr ⟨lineOf 2, rfl, rfl, .inr ⟨by decide, by decide, by decide⟩⟩
  obtain ⟨_, _, _, _, _, reason, disarmed⟩ := halt now
  exact ⟨strides, now, reason, disarmed⟩

/-! ## A line that does not count -/

def callAfter (w : World) (s : Nat) (act : Act) : Option Callback :=
  (w.perform? s act).bind fun w' => (w'.tasks s).head?.bind (·.stage.callback?)

def CallsNoLine (id : ContextId) (w : World) (s : Nat) (act : Act) : Prop :=
  (w.callAfter s act).all fun callback =>
    match callback with
    | .line other _ => other != id
    | _ => true

instance (act : Act) : Decidable (CallsNoLine id w s act) := inferInstanceAs (Decidable (_ = true))

instance (request : Request) (system : Nat) (d : Debugger) : Decidable (request.Steps system d id) := by
  unfold Request.Steps
  split <;> infer_instance

instance : Decidable (w.Continues id s move) :=
  match move with
  | .request request =>
      decidable_of_iff (¬ request.Steps s w.debugger id)
        ⟨fun continues _ same => Move.request.inj same ▸ continues, fun continues => continues request rfl⟩
  | .arrive _ | .ask | .awake | .dispatch | .answer | .fail | .release | .enterPostMortem | .leavePostMortem
  | .execute _ | .register _ | .begin _ | .exit => isTrue nofun

theorem silent_of_callsNoLine {act : Act} (h : CallsNoLine id w s act) : Silent id w s act := by
  rintro move w' rfl halts
  obtain ⟨task, first, position, next, stage⟩ := halts.calls
  have called : w.callAfter s (.move move) = some (.line id position) := by
    rw [callAfter, perform?_of_acts (.move halts.step), Option.bind_some, first, Option.bind_some, stage]
    rfl
  rw [CallsNoLine, called, Option.all_some] at h
  exact absurd h (by simp)

def afterRaise : List Move := [.answer, .release] ++ Move.ofEvent (lineOf 1)

def framedAfterRaise : World := (haltedOnRaise []).afterwards (ofFirst afterRaise)

def beforeRaiseLine : World := (toldToStepOver framedAfterRaise).afterwards (ofFirst [.arrive (lineOf 2), .ask])

/-- The thread halts again at the position of its last halt, where no line counts as long as there are lines
only. -/
theorem halts_over_same_line :
    let w := framedAfterRaise
    let w' := beforeRaiseLine.afterwards (ofFirst [.dispatch])
    LastHalt (fun _ _ => True) 0 unstarted w (some ⟨"a.rb", 2⟩) ∧ w.debugger.isStarted ∧
      (w.debugger.context 0).dead = false ∧ (w.debugger.context 0).depth = 1 ∧
      (w.debugger.context 0).stopNext = .off ∧ (w.debugger.context 0).finishDepth = none ∧ w.Unreported 0 ∧
      w.Step 0 (.request (.context 0 (.stepOver 1 none false))) (toldToStepOver w) ∧
      Strides (Unhindered 0) 0 (toldToStepOver w) [] beforeRaiseLine ∧ beforeRaiseLine.Step 0 .dispatch w' ∧
      beforeRaiseLine.Undisturbed 0 0 .dispatch ∧ beforeRaiseLine.takes 0 .dispatch 0 = [lineOf 2] ∧
      (w'.debugger.context 0).depth = 1 ∧
      ¬ (Tally.after 1 false (some ⟨"a.rb", 2⟩) []).Due 1 false (some ⟨"a.rb", 2⟩) 1 (lineOf 2, 1) ∧
      beforeRaiseLine.Halts 0 .dispatch w' 0 := by
  have before : Course Plain unstarted (toldOf []) := course_of_follow? (catching []) rfl
  have since : Course (Silent 0) (haltedOnRaise []) framedAfterRaise := by
    have quiet : Course (CallsNoLine 0) (haltedOnRaise []) framedAfterRaise :=
      course_of_follow? (ofFirst afterRaise) rfl
    exact quiet.mono silent_of_callsNoLine
  have halted : LastHalt (fun _ _ => True) 0 unstarted framedAfterRaise (some ⟨"a.rb", 2⟩) :=
    .once before (halts_raise rfl rfl) trivial rfl rfl since
  have unreported : framedAfterRaise.Unreported 0 := by
    intro s task member
    cases s <;> cases member
  have told : framedAfterRaise.Step 0 (.request (.context 0 (.stepOver 1 none false)))
      (toldToStepOver framedAfterRaise) := .request _ (by rintro _ ⟨⟩)
  have strides : Strides (Unhindered 0) 0 (toldToStepOver framedAfterRaise) [] beforeRaiseLine := by
    have followed : (toldToStepOver framedAfterRaise).follow? (Ignored 0) (ofFirst [.arrive (lineOf 2), .ask]) =
      some beforeRaiseLine := rfl
    exact Strides.follow _ .refl (fun _ _ _ => unhindered_of_ignored) followed
  have last : beforeRaiseLine.Step 0 .dispatch (beforeRaiseLine.afterwards (ofFirst [.dispatch])) :=
    step_of_perform? rfl
  refine ⟨halted, rfl, rfl, rfl, rfl, rfl, unreported, told, strides, last, undisturbed_of_ignored (by decide), rfl,
    rfl, ?_, last, rfl, _, rfl, ⟨"a.rb", 2⟩, .resumed, rfl⟩
  rintro ⟨-, below | ⟨-, counts, -⟩⟩
  · exact absurd below (by decide)
  · exact absurd counts (by decide)

end World

end EventDebugger
