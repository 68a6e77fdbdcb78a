import EventDebugger.Proofs.Dispatch.Reasons
import EventDebugger.Proofs.Ticket.Frames
import EventDebugger.Proofs.Ticket.Search

/-!
# The position of the last halt

A context keeps the position of its last halt until it halts again, whatever threads do in between. A halt
on an exception that was raised where there is no frame is not kept.

* `World.LastHalt.position`: the position that a context keeps.
-/

namespace EventDebugger

namespace Debugger

variable {d : Debugger} {id : ContextId} {last : Option Position}

def Recalls (last : Option Position) (id : ContextId) (piece : Outcome × Debugger) : Prop :=
  ¬ HaltsOn id piece → (piece.2.context id).lastPosition = last

theorem recalls_of_ends {search : Option Search} {system : Nat} {before : Context} {piece : Outcome × Debugger}
    (ends : Ends search system id before piece) (same : before.lastPosition = last) : Recalls last id piece := by
  intro silent
  have kept {context : Context} (marks : context.marks = before.marks) : context.lastPosition = last :=
    (congrArg (·.2.1) marks).trans same
  cases ends with
  | passed missed quiet marks => exact kept marks
  | reported sought hit marks reason undue => exact kept marks
  | halted | fired => exact absurd ⟨_, _, rfl⟩ silent

theorem recalls_dispatch (known : id < d.contexts.size) (same : (d.context id).lastPosition = last)
    (system : Nat) (event : Event) : Recalls last id (d.dispatch system id event) := by
  refine recalls_of_ends (dispatch_ends known system event) ?_
  unfold Context.heeding
  split <;> exact same

theorem recalls_run (known : id < d.contexts.size) (same : (d.context id).lastPosition = last) (system : Nat)
    (next : Continuation) : Recalls last id (next.run d system id) :=
  recalls_of_ends (run_ends known system next) same

theorem keeps_prepareLoad {P : Context → Prop} (tolerant : Tolerant P) (arming : Arming Context.interrupt P)
    (bare : ∀ {context : Context}, P context → P { context with stack := [] }) (d : Debugger) (system : Nat)
    (stop : Bool) : Preserves P id d (d.prepareLoad system stop).2 := by
  have current : Preserves P id d (d.currentContext system).2 := preserves_currentContext tolerant d system
  simp only [prepareLoad]
  split
  · next found => simpa only [found] using current
  · next own d₁ found =>
      rw [found] at current
      have dropped : Preserves P id d₁ (d₁.updateContext own fun context => { context with stack := [] }) :=
        d₁.preserves_updateContext own bare
      have emptied := current.trans dropped
      split
      · split
        · exact emptied
        · next commanded =>
            exact emptied.trans (preserves_stepping (.inl arming) commanded)
      · exact emptied

end Debugger

def Context.Keeps (last : Option Position) (context : Context) : Prop :=
  context.dead = true ∨ context.lastPosition = last

namespace World

open Context (Keeps Spared)

variable {w w' w₀ : World} {s : Nat} {move : Move} {act : Act} {id : ContextId} {last : Option Position}

theorem neutral_keeps (last : Option Position) : Neutral (Keeps last) :=
  ⟨fun h _ _ _ _ _ => h, fun _ _ _ h => h⟩

theorem unstepped_keeps (last : Option Position) : Unstepped (Keeps last) := fun h _ _ _ _ _ _ => h

/-- No step of this kind makes a context halt. -/
def Silent (id : ContextId) (w : World) (s : Nat) (act : Act) : Prop :=
  ∀ move w', act = .move move → ¬ w.Halts s move w' id

/-- The last halt of a context since a world: there was none, or it was at a position and as wanted. -/
inductive LastHalt (wanted : World → Nat → Prop) (id : ContextId) (w₀ w : World) : Option Position → Prop where
  | never (course : Course (Silent id) w₀ w) : LastHalt wanted id w₀ w none
  | once {w₁ w₂ : World} {s : Nat} {move : Move} {task : Task} {position : Position} {next : Continuation}
      (before : Course Plain w₀ w₁) (halts : w₁.Halts s move w₂ id) (is : wanted w₁ s)
      (first : task ∈ (w₂.tasks s).head?) (stage : task.stage = .called (.line id position) next)
      (since : Course (Silent id) w₂ w) : LastHalt wanted id w₀ w (some position)

theorem Piece.keeps {task : Task} {rest : List Task} {piece : Outcome × Debugger}
    (is : w.Piece s move task rest piece) (lodged : w.Lodged)
    (silent : ∀ position next, piece.1 ≠ .call (.line id position) next) :
    Debugger.Preserves (Keeps last) id w.debugger piece.2 := by
  by_cases own : id = task.context
  · subst own
    have known := (lodged.home s task (mem_innermost is.tasks) (Stage.not_isInspecting_of_holds is.holds)).1
    have quiet : ¬ Debugger.HaltsOn task.context piece := fun ⟨position, next, halts⟩ => silent position next halts
    rintro (dead | same)
    · exact .inl ((congrArg (·.2.2.2.2.2.2.1) (is.traits known)).trans dead)
    · cases is with
      | dispatch tasks stage => exact .inr (Debugger.recalls_dispatch known same s _ quiet)
      | answer tasks stage => exact .inr (Debugger.recalls_run known same s _ quiet)
  · have spared : Spared (Keeps last) id task.context := ⟨fun same => absurd same own, fun _ _ _ => .inl rfl⟩
    cases is with
    | dispatch tasks stage => exact Debugger.spared_dispatch spared w.debugger s _
    | answer tasks stage => exact Debugger.spared_run spared w.debugger s _

theorem Acts.keeps (acts : w.Acts s act w') (lodged : w.Lodged) (silent : w.Silent id s act) :
    Debugger.Preserves (Keeps last) id w.debugger w'.debugger := by
  cases acts with
  | move step =>
      rename_i move
      cases dispatches : move.isDispatch with
      | false => exact step.preserves (neutral_keeps last) dispatches (.inl (unstepped_keeps last))
      | true =>
          obtain ⟨task, rest, piece, is, rfl⟩ := step.piece dispatches
          exact is.keeps lodged fun _ _ halts => silent move _ rfl (halts_proceed step dispatches halts)
  | load stop free =>
      exact Debugger.keeps_prepareLoad (neutral_keeps last).tolerant
        (Debugger.interrupt_keeps (unstepped_keeps last)) (fun h => h) w.debugger s stop
  | meet free => exact Debugger.preserves_currentContext (neutral_keeps last).tolerant w.debugger s
  | skip other on free => exact w.debugger.preserves_updateContext other fun h => h
  | keep on free => exact .of_contexts rfl

theorem Course.keeps (course : Course (Silent id) w w') (lodged : w.Lodged) :
    Debugger.Preserves (Keeps last) id w.debugger w'.debugger := by
  induction course with
  | refl => exact fun h => h
  | step course next silent ih => exact ih.trans (next.keeps (course.lodged lodged) silent)

theorem Framed.haltedAt (framed : w.Framed) (halts : w.Halts s move w' id) (wanted : ¬ w.ReportsUnframed s)
    {task : Task} {position : Position} {next : Continuation} (first : task ∈ (w'.tasks s).head?)
    (stage : task.stage = .called (.line id position) next) : (w'.debugger.context id).HaltedAt position := by
  obtain ⟨task', rest, piece, _, is, rfl, rfl, outcome⟩ := halts.piece
  have member := mem_innermost is.tasks
  have known := (framed.lodged.home s task' member (Stage.not_isInspecting_of_holds is.holds)).1
  rw [tasks_proceed] at first
  cases first
  rw [outcome] at stage
  cases stage
  cases is with
  | dispatch tasks stage => exact Debugger.haltedAt_dispatch known outcome
  | answer tasks stage =>
      refine Debugger.haltedAt_run known (framed.ready s task' member stage) (fun report empty => ?_) outcome
      exact wanted ⟨task', head_innermost tasks, _, _, stage, report, empty⟩

theorem Framed.of_idle (idle : ∀ s, w.tasks s = []) (own : w.debugger.host.OwnThreads)
    (tracked : w.debugger.WellTracked) : w.Framed := by
  refine ⟨.of_idle idle own tracked, fun s => ?_, fun s task member => ?_⟩
  · rw [idle s]
    exact Nat.zero_le 1
  · rw [idle s] at member
    cases member

theorem LastHalt.position (h : LastHalt (fun w s => ¬ w.ReportsUnframed s) id w₀ w last)
    (idle : ∀ s, w₀.tasks s = []) (own : w₀.debugger.host.OwnThreads) (tracked : w₀.debugger.WellTracked)
    (fresh : (w₀.debugger.context id).lastPosition = none) : (w.debugger.context id).Keeps last := by
  have initial := Framed.of_idle idle own tracked
  cases h with
  | never course => exact course.keeps initial.lodged (.inr fresh)
  | once before halts wanted first stage since =>
      have framed := before.framed initial
      have saved := (framed.haltedAt halts wanted first stage).saved
      exact since.keeps (framed.lodged.step halts.step) (.inr saved)

end World

end EventDebugger
