import EventDebugger.Proofs.Calls
import EventDebugger.Proofs.Ticket.Callbacks
import EventDebugger.Proofs.Ticket.Preserved

/-!
# Pieces of dispatch and halts

The event of a thread is dispatched in pieces, each of which ends with the event or with a call of the
front-end. A halt is a piece that ends with a call on a line.

* `World.Halts.piece`: what a halt is.
* `World.Run.paired`: the tasks of every world that is reached wait for calls on their contexts.
-/

namespace EventDebugger

def Task.Paired (task : Task) : Prop :=
  ∀ ⦃callback next⦄, task.stage = .called callback next → (Outcome.call callback next).About task.context

theorem Task.paired_of_uncalled {task : Task} (uncalled : task.stage.callback? = none) : task.Paired := by
  intro callback next stage
  rw [stage] at uncalled
  cases uncalled

namespace World

/-- A piece of the dispatch of an event: the task, those around it, and what the piece ends with. -/
inductive Piece (w : World) (s : Nat) : Move → Task → List Task → Outcome × Debugger → Prop where
  | dispatch {task : Task} {rest : List Task} {event : Event} (tasks : w.tasks s = task :: rest)
      (stage : task.stage = .admitted event) :
      Piece w s .dispatch task rest (w.debugger.dispatch s task.context event)
  | answer {task : Task} {rest : List Task} {callback : Callback} {next : Continuation}
      (tasks : w.tasks s = task :: rest) (stage : task.stage = .called callback next) :
      Piece w s .answer task rest (next.run w.debugger s task.context)

/-- A step with which the event of a context halts: the front-end is called on a line. -/
structure Halts (w : World) (s : Nat) (move : Move) (w' : World) (id : ContextId) : Prop where
  step : w.Step s move w'
  dispatches : move.isDispatch
  calls : ∃ task ∈ (w'.tasks s).head?, ∃ position next, task.stage = .called (.line id position) next

variable {w w' : World} {s : Nat} {move : Move}

theorem Step.piece (step : w.Step s move w') (dispatches : move.isDispatch) :
    ∃ task rest piece, w.Piece s move task rest piece ∧ w' = w.proceed s task rest piece := by
  cases step with
  | dispatch tasks stage => exact ⟨_, _, _, .dispatch tasks stage, rfl⟩
  | answer tasks stage => exact ⟨_, _, _, .answer tasks stage, rfl⟩
  | _ => cases dispatches

theorem Piece.tasks {task : Task} {rest : List Task} {piece : Outcome × Debugger}
    (h : w.Piece s move task rest piece) : w.tasks s = task :: rest := by
  cases h with
  | dispatch tasks stage => exact tasks
  | answer tasks stage => exact tasks

theorem Piece.holds {task : Task} {rest : List Task} {piece : Outcome × Debugger}
    (h : w.Piece s move task rest piece) : task.stage.holds := by
  cases h with
  | dispatch tasks stage | answer tasks stage =>
      rw [stage]
      rfl

theorem Piece.about {task : Task} {rest : List Task} {piece : Outcome × Debugger}
    (h : w.Piece s move task rest piece) : piece.1.About task.context := by
  cases h with
  | dispatch tasks stage => exact w.debugger.about_dispatch s task.context _
  | answer tasks stage => exact Continuation.about_run _ w.debugger s task.context

theorem tasks_proceed (task : Task) (rest : List Task) (piece : Outcome × Debugger) :
    (w.proceed s task rest piece).tasks s = { task with stage := piece.1.stage } :: rest := tasks_set_self _ s _

theorem halts_proceed {id : ContextId} {task : Task} {rest : List Task} {piece : Outcome × Debugger}
    {position : Position} {next : Continuation} (step : w.Step s move (w.proceed s task rest piece))
    (dispatches : move.isDispatch) (outcome : piece.1 = .call (.line id position) next) :
    w.Halts s move (w.proceed s task rest piece) id := by
  refine ⟨step, dispatches, { task with stage := piece.1.stage }, ?_, position, next, ?_⟩
  · rw [tasks_proceed]
    rfl
  · rw [outcome]
    rfl

theorem not_halts_of_tasks {task : Task} {rest : List Task} (tasks : w'.tasks s = task :: rest)
    (uncalled : ∀ id position, task.stage.callback? ≠ some (.line id position)) (id : ContextId) :
    ¬ w.Halts s move w' id := by
  rintro ⟨-, -, called, first, position, next, stage⟩
  rw [tasks] at first
  cases first
  apply uncalled id position
  rw [stage]
  rfl

theorem Halts.piece {id : ContextId} (h : w.Halts s move w' id) :
    ∃ task rest piece position, w.Piece s move task rest piece ∧ w' = w.proceed s task rest piece ∧
      task.context = id ∧ piece.1 = .call (.line id position) .resumed := by
  obtain ⟨task, rest, piece, is, rfl⟩ := h.step.piece h.dispatches
  obtain ⟨called, first, position, next, stage⟩ := h.calls
  rw [tasks_proceed] at first
  cases first
  have about := is.about
  rcases piece with ⟨_ | ⟨callback, next⟩, d⟩
  · cases stage
  · cases stage
    cases about with
    | halted => exact ⟨task, rest, _, position, is, rfl, rfl, rfl⟩

def Paired (w : World) : Prop := ∀ s, ∀ task ∈ w.tasks s, task.Paired

namespace Paired

theorem set (h : w.Paired) {own : List Task} (paired : ∀ task ∈ own, task.Paired) :
    (w.set s own).Paired := w.forall_tasks_set h paired

theorem rest (h : w.Paired) {task : Task} {rest : List Task} (tasks : w.tasks s = task :: rest) :
    ∀ other ∈ rest, other.Paired := fun other member => h s other (mem_outer tasks member)

theorem become (h : w.Paired) (d : Debugger) : (w.become d).Paired := h

theorem arrive (h : w.Paired) (event : Event) : (w.arrive s event).Paired := by
  simp only [World.arrive]
  split
  · exact h.become _
  · exact (h.become _).set (List.forall_mem_cons.mpr ⟨Task.paired_of_uncalled rfl, h s⟩)

theorem contend (h : w.Paired) {task : Task} {rest : List Task} (tasks : w.tasks s = task :: rest)
    (event : Event) (granted : Bool) : (w.contend s task rest event granted).Paired := by
  simp only [World.contend]
  split
  · exact (h.become _).set (List.forall_mem_cons.mpr ⟨Task.paired_of_uncalled rfl, h.rest tasks⟩)
  · exact (h.become _).set (h.rest tasks)
  · exact (h.become _).set (List.forall_mem_cons.mpr ⟨Task.paired_of_uncalled rfl, h.rest tasks⟩)

theorem proceed (h : w.Paired) {task : Task} {rest : List Task} (tasks : w.tasks s = task :: rest)
    {piece : Outcome × Debugger} (about : piece.1.About task.context) : (w.proceed s task rest piece).Paired := by
  apply (h.become piece.2).set
  refine List.forall_mem_cons.mpr ⟨?_, h.rest tasks⟩
  intro callback next stage
  rcases piece with ⟨_ | _, d⟩
  · cases stage
  · cases stage
    exact about

theorem inspect (h : w.Paired) (s : Nat) : (w.inspect s).Paired := by
  simp only [World.inspect]
  split
  · exact h.become _
  · exact (h.become _).set (List.forall_mem_cons.mpr ⟨Task.paired_of_uncalled rfl, h s⟩)

theorem step (h : w.Paired) (step : w.Step s move w') : w'.Paired := by
  cases step with
  | arrive event free => exact h.arrive event
  | ask tasks stage => exact h.contend tasks _ _
  | awake tasks stage awake => exact h.contend tasks _ _
  | dispatch tasks stage => exact h.proceed tasks (w.debugger.about_dispatch s _ _)
  | answer tasks stage => exact h.proceed tasks (Continuation.about_run _ w.debugger s _)
  | fail tasks stage => exact h.proceed tasks .done
  | release tasks stage => exact (h.become _).set (h.rest tasks)
  | leavePostMortem tasks stage => exact (h.become _).set (h.rest tasks)
  | enterPostMortem free => exact h.inspect s
  | request | execute | register | begin | exit => exact h.become _

end Paired

theorem Idle.paired (h : w.Idle) : w.Paired := by
  intro s task member
  rw [h.tasks s] at member
  cases member

theorem Run.paired {allowed : World → Nat → Move → Prop} {got : List Thread}
    (run : Run allowed w got w') (h : w.Paired) : w'.Paired := by
  induction run with
  | refl => exact h
  | step run next ok ih => exact ih.step next

end World

end EventDebugger
