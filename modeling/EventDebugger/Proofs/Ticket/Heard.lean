import EventDebugger.Proofs.Ticket.Searching
import EventDebugger.Proofs.Ticket.Turns

/-!
# Contexts of events

An event has the context of its thread, which was made in the same session: it is no copy for a post-mortem, and
events are not ignored in it. Nothing that threads do changes this.

* `World.Course.heard`: every run from a world in which the debugger is inactive and no event is on its way.
-/

namespace EventDebugger

theorem inert_live : Inert (·.dead = false) where
  tolerant := ⟨fun live _ _ _ => live, fun _ _ _ live => live⟩
  unstepped live _ _ _ _ _ _ := live
  bare live := live
  skips live _ := live

namespace World

variable {w w' w₀ : World} {s : Nat} {move : Move} {act : Act} {id first : ContextId} {task : Task} {rest : List Task}
  {piece : Outcome × Debugger} {allowed : World → Nat → Act → Prop}

theorem Piece.found (is : w.Piece s move task rest piece) {thread : Thread}
    (found : piece.2.contextOf? thread = some id) : w.debugger.contextOf? thread = some id := by
  have congr {d d' : Debugger} (session : d'.session = d.session) (found : d'.contextOf? thread = some id) :
      d.contextOf? thread = some id := by
    rwa [Debugger.contextOf?, session] at found
  cases is with
  | answer tasks stage => exact congr (w.debugger.touches_run s _ _).session found
  | dispatch tasks stage =>
      rename_i event
      cases exits : event.isExit with
      | false => exact congr (w.debugger.touches_dispatch s _ event exits).session found
      | true =>
          obtain ⟨d, touches, same | ended⟩ := w.debugger.dispatch_exit s task.context event exits
          · rw [same] at found
            exact congr touches.session found
          · have inactive : d.forceStop.session = none :=
              Option.isSome_eq_false_iff.mp d.isStarted_forceStop |> Option.isNone_iff_eq_none.mp
            rw [ended, Debugger.contextOf?, inactive] at found
            cases found

/-- The contexts of tracked threads and those of events were made after the first ones. They are live, and in
those of events no event is ignored. -/
structure Heard (first : ContextId) (w : World) : Prop where
  lodged : w.Lodged
  size : first ≤ w.debugger.contexts.size
  tracked : ∀ {thread id}, w.debugger.contextOf? thread = some id →
    first ≤ id ∧ (w.debugger.context id).dead = false
  attends : ∀ s, ∀ task ∈ w.tasks s, task.stage.isInspecting = false → first ≤ task.context ∧
    (w.debugger.context task.context).dead = false ∧ (w.debugger.context task.context).ignored = false

namespace Heard

theorem of_ended (idle : ∀ s, w.tasks s = []) (own : w.debugger.host.OwnThreads)
    (ended : w.debugger.session = none) : w.Heard w.debugger.contexts.size := by
  refine ⟨.of_idle idle own (.of_ended ended), Nat.le_refl _, fun {thread id} found => ?_, fun s task member => ?_⟩
  · rw [Debugger.contextOf?, ended] at found
    cases found
  · rw [idle s] at member
    cases member

theorem acts (h : w.Heard first) (acts : w.Acts s act w') : w'.Heard first := by
  have lodges := acts.lodges
  have live {id : ContextId} (known : id < w.debugger.contexts.size) (live : (w.debugger.context id).dead = false) :
      (w'.debugger.context id).dead = false := by
    cases acts.involves known with
    | piece is own leads =>
        subst leads
        exact (congrArg (·.2.2.2.2.2.2.1) (is.traits known)).trans live
    | apart unheeded idle keeps called => exact keeps inert_live (.inl fun live _ _ => live) live
  have tracked {thread : Thread} {id : ContextId} (found : w'.debugger.contextOf? thread = some id) :
      first ≤ id ∧ (w'.debugger.context id).dead = false := by
    rcases lodges.origin h.lodged.tracked found with old | new
    · exact ⟨(h.tracked old).1, live (h.lodged.tracked.known old).1 (h.tracked old).2⟩
    · -- A context that is new is an initial one, since no piece of an event gives a thread a context.
      refine ⟨Nat.le_trans h.size new, acts.preserves_inert inert_live (fun move is => ?_)
          (.inl fun live _ _ => live) ?_⟩
      · refine eq_false_of_ne_true fun dispatches => ?_
        subst is
        cases acts with
        | move step =>
            obtain ⟨task, rest, piece, is, rfl⟩ := step.piece dispatches
            exact absurd (h.lodged.tracked.known (is.found found)).1 (Nat.not_lt.mpr new)
      · rw [Debugger.context_unknown new]
        rfl
  have attends {task : Task} {s' : Nat} (member : task ∈ w.tasks s') (event : task.stage.isInspecting = false) :
      first ≤ task.context ∧ (w'.debugger.context task.context).dead = false ∧
        (w'.debugger.context task.context).ignored = false := by
    have known := (h.lodged.home s' task member event).1
    obtain ⟨recent, alive, heard⟩ := h.attends s' task member event
    exact ⟨recent, live known alive, (congrArg (·.2) (lodges.owner _ known)).trans heard⟩
  refine ⟨h.lodged.acts acts, Nat.le_trans h.size lodges.size, tracked, fun s' task member event => ?_⟩
  cases acts with
  | move step =>
      rcases step.renewed member with before | ⟨rfl, ⟨before, was, -, context, -⟩ | ⟨-, found, -, heard⟩ | shown⟩
      · exact attends before event
      · rw [context]
        exact attends before was
      · exact ⟨(tracked found).1, (tracked found).2, heard⟩
      · cases event.symm.trans shown
  | load | meet | skip | keep => exact attends member event

end Heard

theorem Course.heard (course : Course allowed w w') (h : w.Heard first) : w'.Heard first := by
  induction course with
  | refl => exact h
  | step course next ok ih => exact ih.acts next

end World

end EventDebugger
