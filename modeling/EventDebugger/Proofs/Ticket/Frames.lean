import EventDebugger.Proofs.Dispatch.Breakpoints
import EventDebugger.Proofs.Dispatch.Frames
import EventDebugger.Proofs.Ticket.Courses

/-!
# Halts have frames

Whatever threads do, in any order, and whatever became of the frames of their contexts before, by returns
that close too many of them or by code that is loaded: when an event halts, its context has a frame at the
position of the halt. Only an exception that is raised where there is no frame is reported, and halts,
without one.

* `World.haltedAt_of_halt`: halts in all runs whose front-ends notify no events of their own.
* `World.unframed_of_raise`: a raise as the first event of a thread.
-/

namespace EventDebugger

/-- Whether a step begins something. -/
def Act.begins : Act → Bool
  | .move (.arrive _) | .move .enterPostMortem | .load _ => true
  | _ => false

namespace World

open Debugger (neutral_stack unstepped_stack)

variable {w w' : World} {s : Nat} {move : Move} {act : Act}

/-- Events are notified, post-mortems begun and code loaded where nothing else is on its way. -/
def Plain (w : World) (s : Nat) (act : Act) : Prop := act.begins → w.tasks s = []

instance : Decidable (w.Plain s act) := inferInstanceAs (Decidable (act.begins → w.tasks s = []))

/-- The front-end was told of an exception that was raised where there is no frame, and returns. -/
def ReportsUnframed (w : World) (s : Nat) : Prop :=
  ∃ task ∈ (w.tasks s).head?, ∃ callback next, task.stage = .called callback next ∧ next.isReport ∧
    (w.debugger.context task.context).stack = []

/-- One event is on its way on each system thread at most, and where the front-end is called, what
follows is prepared. -/
structure Framed (w : World) : Prop where
  lodged : w.Lodged
  single : ∀ s, (w.tasks s).length ≤ 1
  ready : ∀ s, ∀ task ∈ w.tasks s, ∀ {callback next}, task.stage = .called callback next →
    next.Ready (w.debugger.context task.context)

/-! ## Other steps than dispatch -/

theorem Step.called (step : w.Step s move w') (other : move.isDispatch = false) {s' : Nat} {task : Task}
    (member : task ∈ w'.tasks s') {callback : Callback} {next : Continuation}
    (stage : task.stage = .called callback next) : task ∈ w.tasks s' := by
  have calls : task.stage.callback? ≠ none := by
    rw [stage]
    intro none
    cases none
  rcases step.renewed member with before | ⟨rfl, ⟨_, _, _, _, silent⟩ | ⟨_, _, silent⟩ | shown⟩
  · exact before
  · exact absurd (silent other) calls
  · exact absurd silent calls
  · rw [stage] at shown
    cases shown

theorem Step.single (step : w.Step s move w') (plain : w.Plain s (.move move))
    (single : ∀ s, (w.tasks s).length ≤ 1) (s' : Nat) : (w'.tasks s').length ≤ 1 := by
  have set {d : Debugger} {own : List Task} (short : own.length ≤ 1) :
      (((w.become d).set s own).tasks s').length ≤ 1 := by
    by_cases here : s' = s
    · subst here
      rw [tasks_set_self]
      exact short
    · rw [tasks_set_ne _ here]
      exact single s'
  have shorter {task : Task} {rest : List Task} (tasks : w.tasks s = task :: rest) : rest.length = 0 := by
    have short := single s
    rw [tasks, List.length_cons] at short
    omega
  have swapped {d : Debugger} {task new : Task} {rest : List Task} (tasks : w.tasks s = task :: rest) :
      (((w.become d).set s (new :: rest)).tasks s').length ≤ 1 := by
    exact set (Nat.le_of_eq (by rw [List.length_cons, shorter tasks]))
  have popped {d : Debugger} {task : Task} {rest : List Task} (tasks : w.tasks s = task :: rest) :
      (((w.become d).set s rest).tasks s').length ≤ 1 := by
    exact set (Nat.le_succ_of_le (Nat.le_of_eq (shorter tasks)))
  have contended {task : Task} {rest : List Task} (tasks : w.tasks s = task :: rest) (event : Event)
      (granted : Bool) : ((w.contend s task rest event granted).tasks s').length ≤ 1 := by
    simp only [World.contend]
    split
    · exact swapped tasks
    · exact popped tasks
    · exact swapped tasks
  cases step with
  | arrive event free =>
      have idle := plain rfl
      simp only [World.arrive]
      split
      · exact single s'
      · refine set ?_
        rw [idle]
        exact Nat.le_refl 1
  | ask tasks stage => exact contended tasks _ _
  | awake tasks stage awake => exact contended tasks _ _
  | dispatch tasks stage | answer tasks stage | fail tasks stage => exact swapped tasks
  | release tasks stage => exact popped tasks
  | leavePostMortem tasks stage => exact popped tasks
  | enterPostMortem free =>
      have idle := plain rfl
      simp only [World.inspect]
      split
      · exact single s'
      · refine set ?_
        rw [idle]
        exact Nat.le_refl 1
  | request | execute | register | begin | exit => exact single s'

/-! ## Dispatch -/

theorem Piece.ready {task : Task} {rest : List Task} {piece : Outcome × Debugger}
    (is : w.Piece s move task rest piece) (framed : w.Framed) {callback : Callback} {next : Continuation}
    (calls : piece.1 = .call callback next) : next.Ready (piece.2.context task.context) := by
  have member := mem_innermost is.tasks
  have known := (framed.lodged.home s task member (Stage.not_isInspecting_of_holds is.holds)).1
  cases is with
  | dispatch tasks stage => exact Debugger.ready_dispatch known calls
  | answer tasks stage => exact Debugger.ready_run known (framed.ready s task member stage) calls

namespace Framed

theorem proceed (h : w.Framed) {task : Task} {rest : List Task} {piece : Outcome × Debugger}
    (is : w.Piece s move task rest piece) (s' : Nat) (task' : Task)
    (member : task' ∈ (w.proceed s task rest piece).tasks s') {callback : Callback} {next : Continuation}
    (stage : task'.stage = .called callback next) : next.Ready (piece.2.context task'.context) := by
  have event := Stage.not_isInspecting_of_holds is.holds
  have first := mem_innermost is.tasks
  by_cases here : s' = s
  · subst here
    have short := h.single s'
    rw [is.tasks, List.length_cons] at short
    obtain rfl : rest = [] := List.eq_nil_of_length_eq_zero (by omega)
    rw [tasks_proceed] at member
    obtain rfl := List.mem_singleton.mp member
    rcases eq : piece with ⟨_ | ⟨callback', next'⟩, d⟩
    · rw [eq] at stage
      cases stage
    · rw [eq] at stage
      cases stage
      have calls : piece.1 = .call callback next := by rw [eq]
      have ready := is.ready h calls
      rw [eq] at ready
      exact ready
  · rw [World.proceed, tasks_set_ne _ here] at member
    have event' : task'.stage.isInspecting = false := by
      rw [stage]
      rfl
    have ne := h.lodged.apart here first event member event'
    rw [is.others (h.lodged.home s' task' member event').1 ne]
    exact h.ready s' task' member stage

theorem step (h : w.Framed) (step : w.Step s move w') (plain : w.Plain s (.move move)) : w'.Framed := by
  refine ⟨h.lodged.step step, step.single plain h.single, fun s' task member {callback next} stage => ?_⟩
  cases dispatches : move.isDispatch with
  | false =>
      have before := step.called dispatches member stage
      exact (h.ready s' task before stage).congr (step.stack dispatches task.context)
  | true =>
      obtain ⟨task₀, rest, piece, is, rfl⟩ := step.piece dispatches
      exact h.proceed is s' task member stage

theorem become (h : w.Framed) {d : Debugger} (lodged : (w.become d).Lodged)
    (stack : ∀ s, ∀ task ∈ w.tasks s, task.stage.isInspecting = false →
      (d.context task.context).stack = (w.debugger.context task.context).stack) : (w.become d).Framed := by
  refine ⟨lodged, h.single, fun s task member {callback next} stage => ?_⟩
  refine (h.ready s task member stage).congr (stack s task member ?_)
  rw [stage]
  rfl

theorem load (h : w.Framed) (idle : w.tasks s = []) (stop : Bool) (free : w.IsFree s) :
    (w.become (w.debugger.prepareLoad s stop).2).Framed := by
  have lodged := h.lodged.acts (.load stop free)
  refine h.become lodged fun s' task member event => ?_
  refine Debugger.preserves_prepareLoad (neutral_stack _).tolerant w.debugger s stop ?_ rfl
  intro found
  obtain ⟨bound, tracked⟩ := Debugger.currentContext_eq_ok (Prod.ext found rfl)
  have met := h.lodged.acts (.meet free)
  obtain ⟨known, home⟩ := met.home s' task member event
  have same : task.thread = (w.debugger.currentThread s).1 := home.symm.trans (met.tracked.known tracked).2
  have bound' := met.bound s' task member event
  rw [same] at bound'
  obtain rfl := met.own.injective bound bound'
  rw [idle] at member
  cases member

theorem acts (h : w.Framed) (acts : w.Acts s act w') (plain : w.Plain s act) : w'.Framed := by
  have lodged := h.lodged.acts acts
  cases acts with
  | move step => exact h.step step plain
  | load stop free => exact h.load (plain rfl) stop free
  | meet free =>
      refine h.become lodged fun s' task member event => ?_
      exact Debugger.preserves_currentContext (neutral_stack _).tolerant w.debugger s rfl
  | skip id on free =>
      refine h.become lodged fun s' task member event => ?_
      refine w.debugger.preserves_updateContext id (P := fun context => context.stack = _) ?_ rfl
      exact fun same => same
  | keep on free => exact h.become lodged fun _ _ _ _ => rfl

end Framed

/-! ## Runs -/

theorem Course.framed (course : Course Plain w w') (h : w.Framed) : w'.Framed := by
  induction course with
  | refl => exact h
  | step course next plain ih => exact ih.acts next plain

/-- When an event halts, its context has a frame at the position of the halt, and this is saved, unless an
exception was reported that was raised without any frame. -/
theorem haltedAt_of_halt {w₀ : World} (idle : ∀ s, w₀.tasks s = []) (own : w₀.debugger.host.OwnThreads)
    (tracked : w₀.debugger.WellTracked) (course : Course Plain w₀ w) {id : ContextId}
    (halts : w.Halts s move w' id) (framed : ¬ w.ReportsUnframed s) :
    ∀ task ∈ (w'.tasks s).head?, ∀ position next, task.stage = .called (.line id position) next →
      (w'.debugger.context id).HaltedAt position := by
  have initial : w₀.Framed := by
    refine ⟨.of_idle idle own tracked, fun s => ?_, fun s task member => ?_⟩
    · rw [idle s]
      exact Nat.zero_le 1
    · rw [idle s] at member
      cases member
  have reached := course.framed initial
  obtain ⟨task, rest, piece, position, is, rfl, rfl, outcome⟩ := halts.piece
  have member := mem_innermost is.tasks
  have known := (reached.lodged.home s task member (Stage.not_isInspecting_of_holds is.holds)).1
  intro task' first place next stage
  rw [tasks_proceed] at first
  cases first
  rw [outcome] at stage
  cases stage
  cases is with
  | dispatch tasks stage => exact Debugger.haltedAt_dispatch known outcome
  | answer tasks stage =>
      refine Debugger.haltedAt_run known (reached.ready s task member stage) (fun report empty => ?_) outcome
      exact framed ⟨task, head_innermost tasks, _, _, stage, report, empty⟩

/-! ## A raise with and without a frame -/

def raiseNext : Event :=
  { Event.ofKind (.raise (.exception "RuntimeError" 1)) with position := some ⟨"a.rb", 2⟩, receiver := some .nil }

def catching (before : List Event) : List (Nat × Act) :=
  let moves : List Move := [.request (.debugger .start),
    .request (.debugger (.setCatchpoint (some "RuntimeError")))] ++ before.flatMap Move.ofEvent ++
    [.arrive raiseNext, .ask, .dispatch]
  moves.map fun move => (0, .move move)

def toldOf (before : List Event) : World := (unstarted.follow? Plain (catching before)).getD unstarted

def haltedOnRaise (before : List Event) : World := ((toldOf before).perform? 0 (.move .answer)).getD unstarted

def raising (stage : Stage) : Task := ⟨⟨1, "main"⟩, 0, stage, false, 1, some raiseNext⟩

theorem halts_raise {before : List Event}
    (performed : (toldOf before).perform? 0 (.move .answer) = some (haltedOnRaise before))
    (halted : (haltedOnRaise before).tasks 0 = [raising (.called (.line 0 ⟨"a.rb", 2⟩) .resumed)]) :
    (toldOf before).Halts 0 .answer (haltedOnRaise before) 0 := by
  refine ⟨?_, rfl, raising _, ?_, ⟨"a.rb", 2⟩, .resumed, rfl⟩
  · cases acts_of_perform? performed with
    | move step => exact step
  · rw [halted]
    rfl

theorem haltedAt_of_raise : ∃ w w', Course Plain unstarted w ∧ w.Halts 0 .answer w' 0 ∧ ¬ w.ReportsUnframed 0 ∧
    (w'.debugger.context 0).HaltedAt ⟨"a.rb", 2⟩ := by
  have course : Course Plain unstarted (toldOf [bareLine]) := course_of_follow? (catching [bareLine]) rfl
  have halts : (toldOf [bareLine]).Halts 0 .answer (haltedOnRaise [bareLine]) 0 := halts_raise rfl rfl
  have framed : ¬ (toldOf [bareLine]).ReportsUnframed 0 := by
    rintro ⟨task, first, _, _, _, _, empty⟩
    cases first
    revert empty
    decide
  refine ⟨_, _, course, halts, framed, ?_⟩
  exact haltedAt_of_halt (fun _ => rfl) Host.ownThreads_initial (.of_ended rfl) course halts framed _ rfl _ _ rfl

/-- The first event of the thread is the raise: the front-end is called on a line without any frame. -/
theorem unframed_of_raise : ∃ w w', Course Plain unstarted w ∧ w.Halts 0 .answer w' 0 ∧
    (w'.tasks 0).head?.map (·.stage) = some (.called (.line 0 ⟨"a.rb", 2⟩) .resumed) ∧
    (w'.debugger.context 0).stack = [] ∧ (w'.debugger.context 0).lastPosition = none :=
  have course : Course Plain unstarted (toldOf []) := course_of_follow? (catching []) rfl
  ⟨_, _, course, halts_raise rfl rfl, rfl, rfl, rfl⟩

end World

end EventDebugger
