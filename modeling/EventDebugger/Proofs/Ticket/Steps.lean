import EventDebugger.Proofs.Ticket.Counting
import EventDebugger.Proofs.Ticket.LastHalt
import EventDebugger.Proofs.Ticket.Strides

/-!
# Steps and halts

A context that is told to make steps halts on the last of the lines that count, and on no event before,
whatever other events its thread notifies and whatever other threads do. The lines that count are those that
are not at the position of the last halt, which is known unless the halt was on an exception that was raised
without any frame.

* `World.halts_after_steps`: the halt, its position and its reason.
* `World.halts_on_same_line`: a halt on a line that should not count.
-/

namespace EventDebugger

/-- A live context whose events are handled, and for which no step over and no return of a frame is pending. -/
structure Context.Unengaged (context : Context) : Prop where
  live : context.dead = false
  heeded : context.skipped = false
  line : context.stopLine = .off
  anywhere : context.targetDepth = none
  unfinished : context.finishDepth = none

theorem Debugger.serve_step {d : Debugger} (active : d.isStarted) (s : Nat) (id : ContextId) {n : Nat}
    (few : n < 4294967296) (force : Bool) :
    (Request.context id (.step n force)).serve s d =
      d.updateContext id fun _ => { d.context id with stopNext := .armed n, forced := force } := by
  have checked : Context.checkSteps n = .ok n := by
    rw [Context.checkSteps, if_pos ⟨by omega, by omega⟩, Int.toNat_natCast]
  have commanded : d.command id (·.step n force) = .ok (d.updateContext id fun _ =>
      { d.context id with stopNext := .armed n, forced := force }) := by
    simp only [command, inspect, active, if_true, Context.step, checked]
    rfl
  have served := Script.Attempt.debugger_map (Script.Attempt.perform fun d => d.command id (·.step n force))
    (fun _ => Script.Reply.done) d (.initial [])
  rw [Script.Attempt.debugger_perform, commanded] at served
  exact served

namespace World

open Context (CountsDown)

variable {w w' w₀ w₁ w₂ w₃ : World} {s : Nat} {move : Move} {id : ContextId} {n : Nat} {force : Bool}
  {last : Option Position} {events : List Event}

/-- A step that does not tell a context to step, and dispatches no event on which it halts unless for a
step. -/
structure Undisturbed (id : ContextId) (w : World) (s : Nat) (move : Move) : Prop where
  continues : w.Continues id s move
  ignores : ∀ event ∈ w.takes s move id, w.debugger.Ignores s id event

structure Counting (id : ContextId) (n : Nat) (force : Bool) (last : Option Position) (w : World) : Prop where
  counts : w.debugger.CountsDown id n force last
  unreported : w.Unreported id

theorem neutral_countsDown (n : Nat) (force : Bool) (last : Option Position) :
    Neutral (CountsDown n force last) :=
  ⟨fun h _ _ _ _ _ => h, fun _ _ _ h => h⟩

theorem Counting.step {m : Nat} (h : w.Counting id (n + 1) force last) (step : w.Step s move w')
    (ok : w.Undisturbed id s move)
    (remain : m + 1 + (w.takes s move id).countP (·.counts force last) = n + 1) :
    w'.Counting id (m + 1) force last ∧ ¬ w.Halts s move w' id := by
  cases step.regards h.counts.known ok.continues with
  | event tasks stage own is =>
      subst own is
      rename_i task rest event
      rw [takes_eq tasks stage, if_pos rfl, List.countP_singleton] at remain
      have ignores : w.debugger.Ignores s task.context event := by
        apply ok.ignores event
        rw [takes_eq tasks stage, if_pos rfl]
        exact List.mem_singleton_self event
      have left : (if event.counts force last then n else n + 1) = m + 1 := by
        cases counts : event.counts force last <;>
          simp only [counts, if_true, Bool.false_eq_true, if_false] at remain ⊢ <;> omega
      obtain ⟨done, counts⟩ := h.counts.dispatch ignores left
      exact ⟨⟨counts, h.unreported.proceed tasks fun _ => done⟩, not_halts_of_done step rfl done⟩
  | answer tasks stage own is =>
      subst own is
      rw [takes_eq_nil (by rintro ⟨⟩), List.countP_nil] at remain
      obtain rfl : m = n := by omega
      obtain rfl := h.unreported s _ (mem_innermost tasks) rfl stage
      exact ⟨⟨h.counts, h.unreported.proceed tasks fun _ => rfl⟩, not_halts_of_done step rfl rfl⟩
  | apart none silent keeps called =>
      rw [none, List.countP_nil] at remain
      obtain rfl : m = n := by omega
      refine ⟨⟨⟨step.known h.counts.known, ?_⟩, h.unreported.apart called⟩, silent⟩
      exact keeps (neutral_countsDown _ force last) h.counts.context

theorem Passes.counting (passes : Passes (Undisturbed id) id w₁ events w₂) (h : w₁.Counting id n force last)
    {m : Nat} (remain : m + 1 + events.countP (·.counts force last) = n) :
    w₂.Counting id (m + 1) force last := by
  induction passes generalizing m with
  | refl =>
      rw [List.countP_nil] at remain
      obtain rfl : n = m + 1 := by omega
      exact h
  | step passes next ok ih =>
      rw [List.countP_append] at remain
      rename_i w₂ w₃ events s move
      generalize counted : (w₂.takes s move id).countP (·.counts force last) = k at remain
      have before : w₂.Counting id (m + k + 1) force last := ih (by omega)
      exact (before.step next ok (by omega)).1

theorem Counting.halts (h : w.Counting id 1 force last) (step : w.Step s move w') (ok : w.Undisturbed id s move)
    {event : Event} (takes : w.takes s move id = [event]) (counts : event.counts force last) :
    w.Halts s move w' id ∧ ∃ position, event.position = some position ∧
      (w'.tasks s).head?.map (·.stage) = some (.called (.line id position) .resumed) ∧
      (w'.debugger.context id).stopReason = .step ∧ (w'.debugger.context id).Disarmed := by
  have ignores := ok.ignores event (takes ▸ List.mem_singleton_self event)
  cases step.regards h.counts.known ok.continues with
  | event tasks stage own is =>
      subst own is
      rw [takes_eq tasks stage, if_pos rfl] at takes
      cases takes
      obtain ⟨position, at', outcome, reason, disarmed⟩ := h.counts.halts ignores counts
      have live := Debugger.live_dispatch h.counts.known h.counts.context.live s event
      obtain ⟨halts, called, reason⟩ := halts_of_step step rfl outcome live reason
      exact ⟨halts, position, at', called, reason, disarmed⟩
  | answer => cases takes
  | apart none => cases none.symm.trans takes

/-- A context halts on the last of the lines that it was told to step over, and on no event before: at its
position, for the reason of a step, and so that no step is armed any more. -/
theorem halts_after_steps (idle : ∀ s, w₀.tasks s = []) (own : w₀.debugger.host.OwnThreads)
    (tracked : w₀.debugger.WellTracked) (fresh : (w₀.debugger.context id).lastPosition = none)
    (halted : LastHalt (fun w s => ¬ w.ReportsUnframed s) id w₀ w last) (active : w.debugger.isStarted)
    (known : id < w.debugger.contexts.size) (unengaged : (w.debugger.context id).Unengaged)
    (unreported : w.Unreported id) (few : n < 4294967296) {s₁ : Nat}
    (told : w.Step s₁ (.request (.context id (.step n force))) w₁)
    (passes : Passes (Undisturbed id) id w₁ events w₂) (fewer : events.countP (·.counts force last) < n)
    (step : w₂.Step s move w₃) (ok : w₂.Undisturbed id s move) :
    (w₂.Halts s move w₃ id ↔ ∃ event, w₂.takes s move id = [event] ∧ event.counts force last ∧
        events.countP (·.counts force last) + 1 = n) ∧
      (w₂.Halts s move w₃ id → ∃ event position, w₂.takes s move id = [event] ∧ event.position = some position ∧
        (w₃.tasks s).head?.map (·.stage) = some (.called (.line id position) .resumed) ∧
        (w₃.debugger.context id).stopReason = .step ∧ (w₃.debugger.context id).Disarmed) := by
  have counting : w₁.Counting id n force last := by
    cases told with
    | request _ free =>
        refine ⟨⟨?_, ?_⟩, unreported⟩
        · change id < ((Request.context id (.step n force)).serve s₁ w.debugger).contexts.size
          rw [Debugger.serve_step active s₁ id few force, Debugger.size_updateContext]
          exact known
        · change (((Request.context id (.step n force)).serve s₁ w.debugger).context id).CountsDown n force last
          rw [Debugger.serve_step active s₁ id few force, Debugger.context_updateContext_self _ _ known]
          have keeps := (halted.position idle own tracked fresh).resolve_left (by rw [unengaged.live]; nofun)
          unfold CountsDown Context.pace
          simp only [unengaged.live, unengaged.heeded, unengaged.line, unengaged.anywhere, unengaged.unfinished,
            keeps]
  obtain ⟨m, remain⟩ : ∃ m, m + 1 + events.countP (·.counts force last) = n :=
    ⟨n - 1 - events.countP (·.counts force last), by omega⟩
  have now := passes.counting counting remain
  -- A step dispatches one event of the context or none. It is the last that counts, or steps remain after it.
  have one := w₂.takes_eq_nil_or s move id
  by_cases due : ∃ event, w₂.takes s move id = [event] ∧ event.counts force last ∧
      events.countP (·.counts force last) + 1 = n
  · obtain ⟨event, takes, counts, final⟩ := due
    obtain rfl : m = 0 := by omega
    obtain ⟨halts, position, at', called, reason, disarmed⟩ := now.halts step ok takes counts
    exact ⟨⟨fun _ => ⟨event, takes, counts, final⟩, fun _ => halts⟩,
      fun _ => ⟨event, position, takes, at', called, reason, disarmed⟩⟩
  · have silent : ¬ w₂.Halts s move w₃ id := by
      rcases one with none | ⟨event, takes⟩
      · refine (now.step step ok (m := m) ?_).2
        rw [none, List.countP_nil]
      · cases counts : event.counts force last with
        | false =>
            refine (now.step step ok (m := m) ?_).2
            rw [takes, List.countP_singleton, counts]
            rfl
        | true =>
            cases m with
            | zero => exact absurd ⟨event, takes, counts, by omega⟩ due
            | succ m =>
                refine (now.step step ok (m := m) ?_).2
                rw [takes, List.countP_singleton, counts]
                rfl
    exact ⟨⟨fun halts => absurd halts silent, fun is => absurd is due⟩, fun halts => absurd halts silent⟩

/-! ## Two lines -/

def Ignored (id : ContextId) (w : World) (s : Nat) (act : Act) : Prop :=
  match act with
  | .move (.request _) => False
  | .move move => ∀ event ∈ w.takes s move id, w.debugger.Ignores s id event
  | _ => False

instance (act : Act) : Decidable (Ignored id w s act) := by
  unfold Ignored
  split <;> infer_instance

theorem undisturbed_of_ignored (h : Ignored id w s (.move move)) : w.Undisturbed id s move := by
  cases move with
  | request => cases h
  | _ => exact ⟨nofun, h⟩

theorem Unreported.of_halted {task : Task} {callback : Callback} (tasks : w.tasks 0 = [task])
    (halted : task.stage = .called callback .resumed) (others : ∀ s, w.tasks (s + 1) = []) : w.Unreported id := by
  intro s other member own callback next stage
  cases s with
  | zero =>
      rw [tasks] at member
      obtain rfl := List.mem_singleton.mp member
      cases halted.symm.trans stage
      rfl
  | succ s =>
      rw [others s] at member
      cases member

theorem step_of_perform? (performed : w.perform? s (.move move) = some w') : w.Step s move w' := by
  cases acts_of_perform? performed with
  | move step => exact step

def ofFirst (moves : List Move) : List (Nat × Act) := Act.ofMoves (moves.map fun move => (0, move))

def toSecond : List Move :=
  [.request (.debugger .start)] ++ Move.ofEvent (lineOf 1) ++
    [.request (.context 0 (.step 1 false)), .arrive (lineOf 2), .ask]

def beforeSecond : World := unstarted.afterwards (ofFirst toSecond)

def onSecond : World := beforeSecond.afterwards (ofFirst [.dispatch])

def toldToStep (w : World) (n : Nat) : World :=
  w.become ((Request.context 0 (.step n false)).serve 0 w.debugger)

def goingOn : List Move :=
  [.answer, .release] ++ Move.ofEvent (lineOf 2) ++ Move.ofEvent (entryOf 5) ++ Move.ofEvent (lineOf 6) ++
    [.arrive (lineOf 7), .ask]

def beforeLast : World := (toldToStep onSecond 2).afterwards (ofFirst goingOn)

theorem halts_on_second_line :
    let w' := beforeLast.afterwards (ofFirst [.dispatch])
    Passes (Undisturbed 0) 0 (toldToStep onSecond 2) [lineOf 2, entryOf 5, lineOf 6] beforeLast ∧
      beforeLast.Halts 0 .dispatch w' 0 ∧ (w'.debugger.context 0).stopReason = .step ∧
      (w'.debugger.context 0).Disarmed := by
  have before : Course Plain unstarted beforeSecond := course_of_follow? (ofFirst toSecond) rfl
  have halts : beforeSecond.Halts 0 .dispatch onSecond 0 :=
    ⟨step_of_perform? rfl, rfl, _, rfl, ⟨"a.rb", 2⟩, .resumed, rfl⟩
  have framed : ¬ beforeSecond.ReportsUnframed 0 := by
    rintro ⟨task, first, _, _, stage, _⟩
    cases first
    cases stage
  have halted : LastHalt (fun w s => ¬ w.ReportsUnframed s) 0 unstarted onSecond (some ⟨"a.rb", 2⟩) :=
    .once before halts framed rfl rfl (.refl _)
  have unreported : onSecond.Unreported 0 := .of_halted rfl rfl fun _ => rfl
  have told : onSecond.Step 0 (.request (.context 0 (.step 2 false))) (toldToStep onSecond 2) :=
    .request _ (by rintro _ ⟨⟩; rfl)
  have passes : Passes (Undisturbed 0) 0 (toldToStep onSecond 2) [lineOf 2, entryOf 5, lineOf 6] beforeLast := by
    have none : Passes (Undisturbed 0) 0 (toldToStep onSecond 2) [] (toldToStep onSecond 2) := .refl
    have followed : (toldToStep onSecond 2).follow? (Ignored 0) (ofFirst goingOn) = some beforeLast := rfl
    exact none.follow (goingOn.map fun move => (0, move)) (fun _ _ _ => undisturbed_of_ignored) followed
  have last : beforeLast.Step 0 .dispatch (beforeLast.afterwards (ofFirst [.dispatch])) := step_of_perform? rfl
  have ignored : beforeLast.Undisturbed 0 0 .dispatch := undisturbed_of_ignored (by decide)
  obtain ⟨halts, halt⟩ := halts_after_steps (fun _ => rfl) Host.ownThreads_initial (.of_ended rfl) rfl halted rfl
    (by decide) ⟨rfl, rfl, rfl, rfl, rfl⟩ unreported (by decide) told passes (by decide) last ignored
  have now := halts.mpr ⟨lineOf 7, rfl, rfl, by decide⟩
  obtain ⟨_, _, _, _, _, reason, disarmed⟩ := halt now
  exact ⟨passes, now, reason, disarmed⟩

/-! ## A line that does not count -/

def onRaised : List Move := [.answer, .release, .arrive (lineOf 2), .ask]

def beforeRaised : World := (toldToStep (haltedOnRaise []) 1).afterwards (ofFirst onRaised)

/-- The thread halts again at the position of its last halt, where no line counts. -/
theorem halts_on_same_line :
    let w := haltedOnRaise []
    let w' := beforeRaised.afterwards (ofFirst [.dispatch])
    LastHalt (fun _ _ => True) 0 unstarted w (some ⟨"a.rb", 2⟩) ∧ w.debugger.isStarted ∧
      (w.debugger.context 0).Unengaged ∧ w.Unreported 0 ∧
      w.Step 0 (.request (.context 0 (.step 1 false))) (toldToStep w 1) ∧
      Passes (Undisturbed 0) 0 (toldToStep w 1) [] beforeRaised ∧ beforeRaised.Step 0 .dispatch w' ∧
      beforeRaised.Undisturbed 0 0 .dispatch ∧ beforeRaised.takes 0 .dispatch 0 = [lineOf 2] ∧
      (lineOf 2).counts false (some ⟨"a.rb", 2⟩) = false ∧ beforeRaised.Halts 0 .dispatch w' 0 := by
  have before : Course Plain unstarted (toldOf []) := course_of_follow? (catching []) rfl
  have halted : LastHalt (fun _ _ => True) 0 unstarted (haltedOnRaise []) (some ⟨"a.rb", 2⟩) :=
    .once before (halts_raise rfl rfl) trivial rfl rfl (.refl _)
  have unreported : (haltedOnRaise []).Unreported 0 := .of_halted rfl rfl fun _ => rfl
  have told : (haltedOnRaise []).Step 0 (.request (.context 0 (.step 1 false))) (toldToStep (haltedOnRaise []) 1) :=
    .request _ (by rintro _ ⟨⟩; rfl)
  have passes : Passes (Undisturbed 0) 0 (toldToStep (haltedOnRaise []) 1) [] beforeRaised := by
    have none : Passes (Undisturbed 0) 0 (toldToStep (haltedOnRaise []) 1) [] _ := .refl
    have followed : (toldToStep (haltedOnRaise []) 1).follow? (Ignored 0) (ofFirst onRaised) = some beforeRaised := rfl
    exact none.follow (onRaised.map fun move => (0, move)) (fun _ _ _ => undisturbed_of_ignored) followed
  have last : beforeRaised.Step 0 .dispatch (beforeRaised.afterwards (ofFirst [.dispatch])) := step_of_perform? rfl
  exact ⟨halted, rfl, ⟨rfl, rfl, rfl, rfl, rfl⟩, unreported, told, passes, last,
    undisturbed_of_ignored (by decide), rfl, rfl, last, rfl, _, rfl, ⟨"a.rb", 2⟩, .resumed, rfl⟩

end World

end EventDebugger
