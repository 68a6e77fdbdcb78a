import EventDebugger.Proofs.Ticket.Frames
import EventDebugger.Proofs.Ticket.Passing
import EventDebugger.Proofs.Ticket.Stepping

/-!
# Steps from the view of a context

A step of a thread dispatches an event of a context, or what remains of one, or it leaves the frames and the
armed steps of the context alone, unless it tells the context to step. The events of a run are listed with the
number of frames that each of them leaves.

* `World.Step.regards`: what a step is to a context.
* `World.Strides`: runs with the events of a context and its depth.
-/

namespace EventDebugger

namespace World

variable {w w' w₀ : World} {s : Nat} {move : Move} {act : Act} {id : ContextId} {events events' : List Event}
  {trace trace' : List (Event × Nat)} {allowed : World → Nat → Move → Prop}

inductive Regards (id : ContextId) (w : World) (s : Nat) (w' : World) : Move → Prop where
  | event {task : Task} {rest : List Task} {event : Event} (tasks : w.tasks s = task :: rest)
      (stage : task.stage = .admitted event) (own : task.context = id)
      (is : w' = w.proceed s task rest (w.debugger.dispatch s id event)) : Regards id w s w' .dispatch
  | answer {task : Task} {rest : List Task} {callback : Callback} {next : Continuation}
      (tasks : w.tasks s = task :: rest) (stage : task.stage = .called callback next) (own : task.context = id)
      (is : w' = w.proceed s task rest (next.run w.debugger s id)) : Regards id w s w' .answer
  | apart {move : Move} (none : w.takes s move id = []) (silent : ¬ w.Halts s move w' id)
      (keeps : ∀ {P : Context → Prop}, Neutral P → Debugger.Preserves P id w.debugger w'.debugger)
      (called : ∀ s', ∀ task ∈ w'.tasks s', task.context = id → ∀ {callback next},
        task.stage = .called callback next → task ∈ w.tasks s') : Regards id w s w' move

theorem Step.regards (step : w.Step s move w') (known : id < w.debugger.contexts.size)
    (continues : w.Continues id s move) : Regards id w s w' move := by
  cases dispatches : move.isDispatch with
  | false =>
      refine .apart (takes_eq_nil (by rintro rfl; cases dispatches)) (fun halts => ?_)
        (fun neutral => step.preserves neutral dispatches (.inr continues))
        fun s' task member _ _ _ stage => step.called dispatches member stage
      rw [halts.dispatches] at dispatches
      cases dispatches
  | true =>
      obtain ⟨task, rest, piece, is, rfl⟩ := step.piece dispatches
      by_cases own : task.context = id
      · subst own
        cases is with
        | dispatch tasks stage => exact .event tasks stage rfl rfl
        | answer tasks stage => exact .answer tasks stage rfl rfl
      · refine .apart ?_ (fun halts => ?_) (fun {P} _ holds => ?_) fun s' other member mine _ _ stage => ?_
        · cases is with
          | dispatch tasks stage => rw [takes_eq tasks stage, if_neg own]
          | answer tasks stage => exact takes_eq_nil (by rintro ⟨⟩)
        · obtain ⟨task', rest', piece', position, is', -, same, -⟩ := halts.piece
          have tasks := is'.tasks
          rw [is.tasks] at tasks
          cases tasks
          exact own same
        · have same := is.others known (Ne.symm own)
          exact same.symm ▸ holds
        · by_cases here : s' = s
          · subst here
            rw [tasks_proceed] at member
            rcases List.mem_cons.mp member with rfl | inRest
            · exact absurd mine own
            · exact mem_outer is.tasks inRest
          · rwa [World.proceed, tasks_set_ne _ here] at member

theorem halts_proceed_iff {task : Task} {rest : List Task} {piece : Outcome × Debugger}
    (step : w.Step s move (w.proceed s task rest piece)) (dispatches : move.isDispatch) :
    w.Halts s move (w.proceed s task rest piece) id ↔ Debugger.HaltsOn id piece := by
  constructor
  · intro halts
    obtain ⟨called, first, position, next, stage⟩ := halts.calls
    rw [tasks_proceed] at first
    cases first
    rcases piece with ⟨_ | ⟨callback, next'⟩, d⟩
    · cases stage
    · cases stage
      exact ⟨position, next, rfl⟩
  · rintro ⟨position, next, outcome⟩
    exact halts_proceed step dispatches outcome

theorem not_halts_of_done {task : Task} {rest : List Task} {piece : Outcome × Debugger}
    (step : w.Step s move (w.proceed s task rest piece)) (dispatches : move.isDispatch) (done : piece.1 = .done) :
    ¬ w.Halts s move (w.proceed s task rest piece) id := by
  intro halts
  obtain ⟨_, _, calls⟩ := (halts_proceed_iff step dispatches).mp halts
  rw [done] at calls
  cases calls

theorem halts_of_step {task : Task} {rest : List Task} {piece : Outcome × Debugger} {position : Position}
    (step : w.Step s move (w.proceed s task rest piece)) (dispatches : move.isDispatch)
    (outcome : piece.1 = .call (.line id position) .resumed) (live : (piece.2.context id).dead = false)
    (reason : (piece.2.context id).reason = .step) :
    w.Halts s move (w.proceed s task rest piece) id ∧
      ((w.proceed s task rest piece).tasks s).head?.map (·.stage) = some (.called (.line id position) .resumed) ∧
      ((w.proceed s task rest piece).debugger.context id).stopReason = .step := by
  refine ⟨halts_proceed step dispatches outcome, ?_, ?_⟩
  · rw [tasks_proceed, outcome]
    rfl
  · change (piece.2.context id).stopReason = .step
    rw [Context.stopReason, live, if_neg Bool.false_ne_true, reason]

/-! ## Reports -/

/-- Where the front-end is called for a context, what remains of the event is of a kind. -/
def Remaining (kind : Continuation → Prop) (id : ContextId) (w : World) : Prop :=
  ∀ s, ∀ task ∈ w.tasks s, task.context = id → ∀ ⦃callback next⦄, task.stage = .called callback next → kind next

theorem Remaining.proceed {kind : Continuation → Prop} (h : w.Remaining kind id) {task : Task} {rest : List Task}
    (tasks : w.tasks s = task :: rest) {piece : Outcome × Debugger}
    (ends : task.context = id → ∀ callback next, piece.1 = .call callback next → kind next) :
    (w.proceed s task rest piece).Remaining kind id := by
  intro s' other member own callback next stage
  by_cases here : s' = s
  · subst here
    rw [tasks_proceed] at member
    rcases List.mem_cons.mp member with rfl | inRest
    · rcases piece with ⟨_ | ⟨callback', next'⟩, d⟩
      · cases stage
      · cases stage
        exact ends own _ _ rfl
    · exact h s' other (mem_outer tasks inRest) own stage
  · rw [World.proceed, tasks_set_ne _ here] at member
    exact h s' other member own stage

theorem Remaining.apart {kind : Continuation → Prop} (h : w.Remaining kind id)
    (called : ∀ s', ∀ task ∈ w'.tasks s', task.context = id → ∀ {callback next},
      task.stage = .called callback next → task ∈ w.tasks s') : w'.Remaining kind id :=
  fun s' task member own _ _ stage => h s' task (called s' task member own stage) own stage

/-- No report of a context is awaited: where the front-end is called for it, the event is over. -/
def Unreported (id : ContextId) (w : World) : Prop :=
  ∀ s, ∀ task ∈ w.tasks s, task.context = id → ∀ ⦃callback next⦄, task.stage = .called callback next →
    next = .resumed

theorem Unreported.apart (h : w.Unreported id)
    (called : ∀ s', ∀ task ∈ w'.tasks s', task.context = id → ∀ {callback next},
      task.stage = .called callback next → task ∈ w.tasks s') : w'.Unreported id :=
  have remaining : w.Remaining (· = .resumed) id := h
  remaining.apart called

theorem Unreported.proceed (h : w.Unreported id) {task : Task} {rest : List Task} (tasks : w.tasks s = task :: rest)
    {piece : Outcome × Debugger} (ends : task.context = id → piece.1 = .done) :
    (w.proceed s task rest piece).Unreported id := by
  have remaining : w.Remaining (· = .resumed) id := h
  refine remaining.proceed tasks fun own _ _ calls => ?_
  rw [ends own] at calls
  cases calls

/-- The line that a step checks since its report is over, with its receiver and whether it is new. -/
def rechecks (w : World) (s : Nat) (move : Move) (id : ContextId) : Option (Position × Option Value × Bool) :=
  match move, w.tasks s with
  | .answer, task :: _ =>
      match task.stage with
      | .called _ (.lineTraced position receiver moved) =>
          if task.context = id then some (position, receiver, moved) else none
      | _ => none
  | _, _ => none

/-! ## Parts of runs -/

theorem Passes.split (passes : Passes allowed id w₀ (events ++ events') w) :
    ∃ met, Passes allowed id w₀ events met ∧ Passes allowed id met events' w := by
  generalize whole : events ++ events' = all at passes
  induction passes generalizing events' with
  | refl =>
      obtain ⟨rfl, rfl⟩ := List.append_eq_nil_iff.mp whole
      exact ⟨w₀, .refl, .refl⟩
  | @step w' w'' earlier s move passes next ok ih =>
      -- A step dispatches one event at most, so it is on one side of the cut.
      rcases events'.eq_nil_or_concat with rfl | ⟨front, last, rfl⟩
      · rw [List.append_nil] at whole
        exact ⟨w'', whole ▸ passes.step next ok, .refl⟩
      · rcases w'.takes_eq_nil_or s move id with none | ⟨event, takes⟩
        · rw [none, List.append_nil] at whole
          obtain ⟨met, first, second⟩ := ih whole
          have second := second.step next ok
          rw [none, List.append_nil] at second
          exact ⟨met, first, second⟩
        · rw [takes, List.concat_eq_append, ← List.append_assoc] at whole
          obtain ⟨whole, same⟩ := List.append_inj' whole rfl
          obtain ⟨met, first, second⟩ := ih whole
          have second := second.step next ok
          rw [takes, ← same, ← List.concat_eq_append] at second
          exact ⟨met, first, second⟩

/-! ## Events and depths -/

/-- The event that a step starts to dispatch in a context, if it does, with the number of frames that the
context has then. -/
def strides (w : World) (s : Nat) (act : Act) (w' : World) (id : ContextId) : List (Event × Nat) :=
  match act with
  | .move move => (w.takes s move id).map fun event => (event, (w'.debugger.context id).depth)
  | _ => []

theorem strides_eq (w : World) (s : Nat) (move : Move) (w' : World) (id : ContextId) :
    w.strides s (.move move) w' id =
      (w.takes s move id).map fun event => (event, (w'.debugger.context id).depth) := rfl

theorem strides_eq_nil (other : ∀ move, act ≠ .move move) : w.strides s act w' id = [] := by
  cases act with
  | move move => exact absurd rfl (other move)
  | load | meet | skip | keep => rfl

/-- Runs whose steps are of an allowed kind, with the events that are dispatched in a context and the number of
frames that each leaves. -/
inductive Strides (allowed : World → Nat → Act → Prop) (id : ContextId) (w : World) :
    List (Event × Nat) → World → Prop where
  | refl : Strides allowed id w [] w
  | step {w' w'' : World} {trace : List (Event × Nat)} {s : Nat} {act : Act}
      (strides : Strides allowed id w trace w') (next : w'.Acts s act w'') (ok : allowed w' s act) :
      Strides allowed id w (trace ++ w'.strides s act w'' id) w''

def stridesAll (id : ContextId) (w : World) : List (Nat × Act) → List (Event × Nat)
  | [] => []
  | (s, act) :: steps =>
      (w.perform? s act).elim [] fun w' => w.strides s act w' id ++ stridesAll id w' steps

theorem Strides.follow {allowed checked : World → Nat → Act → Prop} [∀ w s act, Decidable (checked w s act)]
    (steps : List (Nat × Act)) (strides : Strides allowed id w₀ trace w)
    (ok : ∀ w s act, checked w s act → allowed w s act) (followed : w.follow? checked steps = some w') :
    Strides allowed id w₀ (trace ++ stridesAll id w steps) w' := by
  induction steps generalizing w trace with
  | nil =>
      cases followed
      rwa [stridesAll, List.append_nil]
  | cons step steps ih =>
      obtain ⟨s, act⟩ := step
      simp only [follow?, Option.ite_none_right_eq_some, Option.bind_eq_some_iff] at followed
      obtain ⟨check, next, performed, rest⟩ := followed
      rw [stridesAll, performed, Option.elim_some, ← List.append_assoc]
      exact ih (strides.step (acts_of_perform? performed) (ok w s act check)) rest

end World

end EventDebugger
