import EventDebugger.Proofs.Ticket.Courses
import EventDebugger.Proofs.Ticket.Reshaping

/-!
# The events of a context

Runs of interleaved threads, seen from one context: the events that are dispatched in it, in order. Between
two of them other threads take any number of steps, and the front-end makes requests.

* `World.Step.traits`: what no step changes in a context.
* `World.Passes.becomes`: the frames of the context after the events.
-/

namespace EventDebugger

def CallStack.Becomes (opens : Option TypeRef → Bool → Bool) : List Event → CallStack → CallStack → Prop
  | [], stack, stack' => stack'.unbound = stack.unbound
  | event :: events, stack, stack' =>
      ∃ met : CallStack, met.unbound = stack.unbound ∧ Becomes opens events (event.reshape opens met) stack'

namespace CallStack.Becomes

variable {opens : Option TypeRef → Bool → Bool} {events events' : List Event} {stack stack' met : CallStack}

theorem rebound (h : Becomes opens events stack stack') (same : met.unbound = stack.unbound) :
    Becomes opens events met stack' := by
  cases events with
  | nil => exact h.trans same.symm
  | cons event events =>
      obtain ⟨met', first, rest⟩ := h
      exact ⟨met', first.trans same.symm, rest⟩

theorem append_iff : Becomes opens (events ++ events') stack stack' ↔
    ∃ met, Becomes opens events stack met ∧ Becomes opens events' met stack' := by
  induction events generalizing stack with
  | nil => exact ⟨fun h => ⟨stack, rfl, h⟩, fun ⟨_, same, h⟩ => h.rebound same.symm⟩
  | cons event events ih =>
      constructor
      · rintro ⟨met, same, h⟩
        obtain ⟨met', first, second⟩ := ih.mp h
        exact ⟨met', ⟨met, same, first⟩, second⟩
      · rintro ⟨met', ⟨met, same, first⟩, second⟩
        exact ⟨met, same, ih.mpr ⟨met', first, second⟩⟩

theorem trans (first : Becomes opens events stack met) (second : Becomes opens events' met stack') :
    Becomes opens (events ++ events') stack stack' := append_iff.mpr ⟨met, first, second⟩

theorem of_unbound (same : stack'.unbound = stack.unbound) : Becomes opens [] stack stack' := same

theorem of_reshape {event : Event} (same : stack'.unbound = (event.reshape opens stack).unbound) :
    Becomes opens [event] stack stack' := ⟨stack, rfl, same⟩

end CallStack.Becomes

namespace Debugger

variable (d : Debugger) (system : Nat) (id : ContextId) {other : ContextId}

theorem traits_dispatch (event : Event) (known : other < d.contexts.size) :
    ((d.dispatch system id event).2.context other).traits = (d.context other).traits := by
  cases exits : event.isExit with
  | false => exact (d.touches_dispatch system id event exits).traits other known
  | true =>
      obtain ⟨d', touched, same | ended⟩ := d.dispatch_exit system id event exits
      · rw [same]
        exact touched.traits other known
      · rw [ended, ← touched.traits other known, context, contexts_forceStop, context]

theorem settings_forceStop : d.forceStop.settings = d.settings := by
  simp only [forceStop]
  split <;> rfl

theorem settings_dispatch (event : Event) : (d.dispatch system id event).2.settings = d.settings := by
  rcases d.dispatch_cases system id event with touched | ⟨_, _, settings, _⟩
  · exact touched.settings
  · exact settings

theorem blockHosts_request (request : Request) :
    (request.serve system d).settings.blockHostTypes = d.settings.blockHostTypes := by
  cases activation : request.isActivation with
  | false => exact (request.tends_request system d activation).tracks.blockHosts
  | true =>
      cases request with
      | context => cases activation
      | debugger command =>
          simp only [Request.isActivation, decide_eq_true_eq] at activation
          rcases activation with rfl | rfl | rfl
          · change d.start.2.settings.blockHostTypes = _
            simp only [start]
            split <;> rfl
          · have served : (Request.debugger .stop).serve system d = _ :=
              Script.Attempt.debugger_map (Script.Attempt.change stop) _ d _
            rw [served, Script.Attempt.debugger_change]
            split
            · next stopped =>
                obtain ⟨_, _, stopped⟩ := except_bind_eq_ok stopped
                simp only at stopped
                split at stopped <;> cases stopped <;> rfl
            · rfl
          · change (Script.Attempt.perform (fun d => .ok d.forceStop) (d, .initial [])).2.1.settings.blockHostTypes = _
            rw [Script.Attempt.debugger_perform, settings_forceStop]

end Debugger

def Act.ofMoves (steps : List (Nat × Move)) : List (Nat × Act) := steps.map fun step => (step.1, .move step.2)

namespace World

open CallStack (Becomes)

variable {w w' w₀ : World} {s : Nat} {move : Move} {id : ContextId} {events : List Event}

/-- The event that a step starts to dispatch in a context, if it does. -/
def takes (w : World) (s : Nat) (move : Move) (id : ContextId) : List Event :=
  match move, w.tasks s with
  | .dispatch, task :: _ =>
      match task.stage with
      | .admitted event => if task.context = id then [event] else []
      | _ => []
  | _, _ => []

/-- Runs whose steps are of an allowed kind, with the events that are dispatched in a context. -/
inductive Passes (allowed : World → Nat → Move → Prop) (id : ContextId) (w : World) : List Event → World → Prop where
  | refl : Passes allowed id w [] w
  | step {w' w'' : World} {events : List Event} {s : Nat} {move : Move} (passes : Passes allowed id w events w')
      (next : w'.Step s move w'') (ok : allowed w' s move) :
      Passes allowed id w (events ++ w'.takes s move id) w''

theorem takes_eq_nil (other : move ≠ .dispatch) : w.takes s move id = [] := by
  unfold takes
  split
  · exact absurd rfl other
  · rfl

theorem takes_eq {task : Task} {rest : List Task} {event : Event} (tasks : w.tasks s = task :: rest)
    (stage : task.stage = .admitted event) :
    w.takes s .dispatch id = if task.context = id then [event] else [] := by
  simp only [takes, tasks, stage]

theorem takes_eq_nil_or (w : World) (s : Nat) (move : Move) (id : ContextId) :
    w.takes s move id = [] ∨ ∃ event, w.takes s move id = [event] := by
  unfold takes
  split
  · split
    · split
      · exact .inr ⟨_, rfl⟩
      · exact .inl rfl
    · exact .inl rfl
  · exact .inl rfl

def takesAll (id : ContextId) (w : World) : List (Nat × Move) → List Event
  | [] => []
  | (s, move) :: steps =>
      w.takes s move id ++ (w.perform? s (.move move)).elim [] fun w => takesAll id w steps

theorem Passes.follow {allowed : World → Nat → Move → Prop} {checked : World → Nat → Act → Prop}
    [∀ w s act, Decidable (checked w s act)] (steps : List (Nat × Move)) (passes : Passes allowed id w₀ events w)
    (ok : ∀ w s move, checked w s (.move move) → allowed w s move)
    (followed : w.follow? checked (Act.ofMoves steps) = some w') :
    Passes allowed id w₀ (events ++ takesAll id w steps) w' := by
  induction steps generalizing w events with
  | nil =>
      cases followed
      rwa [takesAll, List.append_nil]
  | cons step steps ih =>
      obtain ⟨s, move⟩ := step
      simp only [Act.ofMoves, List.map_cons, follow?, Option.ite_none_right_eq_some,
        Option.bind_eq_some_iff] at followed
      obtain ⟨check, next, performed, rest⟩ := followed
      rw [takesAll, performed, Option.elim_some, ← List.append_assoc]
      cases acts_of_perform? performed with
      | move taken => exact ih (passes.step taken (ok w s move check)) rest

/-! ## What steps keep -/

theorem Step.known (step : w.Step s move w') (known : id < w.debugger.contexts.size) :
    id < w'.debugger.contexts.size := Nat.lt_of_lt_of_le known step.lodges.size

theorem Piece.traits {task : Task} {rest : List Task} {piece : Outcome × Debugger}
    (is : w.Piece s move task rest piece) (known : id < w.debugger.contexts.size) :
    (piece.2.context id).traits = (w.debugger.context id).traits := by
  cases is with
  | dispatch tasks stage => exact w.debugger.traits_dispatch s _ _ known
  | answer tasks stage => exact (w.debugger.touches_run s _ _).traits id known

theorem neutral_skipped (skipped : Bool) : Neutral fun context => context.skipped = skipped :=
  ⟨fun h _ _ _ _ _ => h, fun _ _ _ h => h⟩

theorem unstepped_skipped (skipped : Bool) : Unstepped fun context => context.skipped = skipped :=
  fun h _ _ _ _ _ _ => h

theorem Step.skipped (step : w.Step s move w') (known : id < w.debugger.contexts.size) :
    (w'.debugger.context id).skipped = (w.debugger.context id).skipped := by
  cases dispatches : move.isDispatch with
  | false => exact step.preserves (neutral_skipped _) dispatches (.inl (unstepped_skipped _)) rfl
  | true =>
      obtain ⟨task, rest, piece, is, rfl⟩ := step.piece dispatches
      exact congrArg (·.2.2.2.2.1) (is.traits known)

theorem Step.opens (step : w.Step s move w') :
    w'.debugger.opensNativeFrame = w.debugger.opensNativeFrame := by
  apply Debugger.opensNativeFrame_congr
  cases step with
  | arrive event free =>
      rw [debugger_arrive]
      exact (w.debugger.tends_arrive s event).tracks.blockHosts
  | ask | awake =>
      rw [debugger_contend]
      exact (w.debugger.tracks_contend _ _ _).blockHosts
  | dispatch => exact congrArg (·.blockHostTypes) (w.debugger.settings_dispatch s _ _)
  | answer => exact congrArg (·.blockHostTypes) (w.debugger.touches_run s _ _).settings
  | release => exact w.debugger.tracks_release.blockHosts
  | request request free => exact w.debugger.blockHosts_request s request
  | enterPostMortem free =>
      rw [debugger_inspect]
      exact (w.debugger.tends_enterPostMortem s).tracks.blockHosts
  | leavePostMortem => exact (w.debugger.tends_leavePostMortem s _).tracks.blockHosts
  | fail | execute | register | begin | exit => rfl

/-! ## Frames -/

theorem Piece.unbound {task : Task} {rest : List Task} {piece : Outcome × Debugger}
    (is : w.Piece s move task rest piece) (known : id < w.debugger.contexts.size)
    (heeded : (w.debugger.context id).skipped = false) :
    Becomes w.debugger.opensNativeFrame (w.takes s move id) (w.debugger.context id).stack
      (piece.2.context id).stack := by
  by_cases own : task.context = id
  · subst own
    cases is with
    | dispatch tasks stage =>
        rw [takes_eq tasks stage, if_pos rfl]
        exact .of_reshape (Debugger.unbound_dispatch s known heeded _)
    | answer tasks stage =>
        rw [takes_eq_nil (by rintro ⟨⟩)]
        exact .of_unbound (w.debugger.unbound_run s _)
  · have same := is.others known (Ne.symm own)
    cases is with
    | dispatch tasks stage =>
        rw [takes_eq tasks stage, if_neg own, same]
        exact .of_unbound rfl
    | answer tasks stage =>
        rw [takes_eq_nil (by rintro ⟨⟩), same]
        exact .of_unbound rfl

theorem Step.becomes (step : w.Step s move w') (known : id < w.debugger.contexts.size)
    (heeded : (w.debugger.context id).skipped = false) :
    Becomes w.debugger.opensNativeFrame (w.takes s move id) (w.debugger.context id).stack
      (w'.debugger.context id).stack := by
  cases dispatches : move.isDispatch with
  | false =>
      rw [takes_eq_nil (by rintro rfl; cases dispatches), step.stack dispatches]
      exact .of_unbound rfl
  | true =>
      obtain ⟨task, rest, piece, is, rfl⟩ := step.piece dispatches
      exact is.unbound known heeded

theorem Passes.known {allowed : World → Nat → Move → Prop} (passes : Passes allowed id w₀ events w)
    (known : id < w₀.debugger.contexts.size) : id < w.debugger.contexts.size := by
  induction passes with
  | refl => exact known
  | step passes next ok ih => exact next.known ih

theorem Passes.opens {allowed : World → Nat → Move → Prop} (passes : Passes allowed id w₀ events w) :
    w.debugger.opensNativeFrame = w₀.debugger.opensNativeFrame := by
  induction passes with
  | refl => rfl
  | step passes next ok ih => exact next.opens.trans ih

theorem Passes.heeded {allowed : World → Nat → Move → Prop} (passes : Passes allowed id w₀ events w)
    (known : id < w₀.debugger.contexts.size) (heeded : (w₀.debugger.context id).skipped = false) :
    (w.debugger.context id).skipped = false := by
  induction passes with
  | refl => exact heeded
  | step passes next ok ih => exact (next.skipped (passes.known known)).trans ih

theorem Passes.becomes {allowed : World → Nat → Move → Prop} (passes : Passes allowed id w₀ events w)
    (known : id < w₀.debugger.contexts.size) (heeded : (w₀.debugger.context id).skipped = false) :
    Becomes w₀.debugger.opensNativeFrame events (w₀.debugger.context id).stack (w.debugger.context id).stack := by
  induction passes with
  | refl => exact .of_unbound rfl
  | step passes next ok ih =>
      exact ih.trans (passes.opens ▸ next.becomes (passes.known known) (passes.heeded known heeded))

end World

end EventDebugger
