import EventDebugger.Proofs.Ticket.LastHalt
import EventDebugger.Proofs.Ticket.Search
import EventDebugger.Proofs.Ticket.Strides

/-!
# Steps that look for a breakpoint

Seen from one context, a step of a thread is a piece of one of its events, which may note the event, look for a
breakpoint and halt, or it does nothing of that. What depends neither on the frames of a context nor on what
commands change is left alone by the steps of the second kind.

* `World.Acts.involves`: what a step is to a context.
* `World.Piece.ends`: how a piece of an event ends.
* `World.Noted`: runs with a record of their steps.
-/

namespace EventDebugger

/-- A property that does not depend on the frames of a context nor on the steps that are armed, nor on whether
it is suspended, traced or skipped, and that does not tell new contexts apart. -/
structure Inert (P : Context → Prop) : Prop where
  tolerant : Tolerant P
  unstepped : Unstepped P
  bare : ∀ {context : Context}, P context → P { context with stack := [] }
  skips : ∀ {context}, P context → ∀ on, P { context with skipped := on }

def Act.Resets (act : Act) (id : ContextId) : Prop :=
  match act with
  | .move (.request request) => request.Resets id
  | _ => False

def Act.Arms (act : Act) (P : Context → Prop) : Prop :=
  match act with
  | .move (.request request) => request.Arms P
  | .load _ => Arming Context.interrupt P
  | _ => True

theorem Act.arms_of_unstepped {P : Context → Prop} (unstepped : Unstepped P) (act : Act) : act.Arms P := by
  cases act with
  | move move =>
      cases move with
      | request request => exact request.arms_of_unstepped unstepped
      | _ => trivial
  | load => exact Debugger.interrupt_keeps unstepped
  | meet | skip | keep => trivial

def Context.noting (events : List Event) (context : Context) : Context :=
  events.foldl (fun context event => context.noteEvent event.position event.kind.isLine) context

namespace World

variable {w w' w₀ : World} {s : Nat} {move : Move} {act : Act} {id : ContextId} {task : Task} {rest : List Task}
  {piece : Outcome × Debugger} {allowed : World → Nat → Act → Prop}

def search? (w : World) (s : Nat) (move : Move) (id : ContextId) : Option Search :=
  match move, w.tasks s with
  | .dispatch, task :: _ =>
      match task.stage with
      | .admitted event => if task.context = id then w.debugger.search? s id event else none
      | _ => none
  | .answer, task :: _ =>
      match task.stage with
      | .called _ next => if task.context = id then next.search? w.debugger id else none
      | _ => none
  | _, _ => none

def hit? (w : World) (s : Nat) (move : Move) (id : ContextId) : Option Debugger.Found :=
  (w.search? s move id).bind (·.hit? s id)

/-- The event that a step starts to dispatch in a context that is not skipped, if it does. -/
def heeds (id : ContextId) (w : World) (s : Nat) (act : Act) : List Event :=
  match act with
  | .move move => if (w.debugger.context id).skipped then [] else w.takes s move id
  | _ => []

def facing (w : World) (s : Nat) (move : Move) (id : ContextId) : Context :=
  (w.debugger.context id).noting (heeds id w s (.move move))

theorem search?_dispatch {event : Event} (tasks : w.tasks s = task :: rest) (stage : task.stage = .admitted event) :
    w.search? s .dispatch task.context = w.debugger.search? s task.context event := by
  simp only [search?, tasks, stage, if_true]

theorem search?_answer {callback : Callback} {next : Continuation} (tasks : w.tasks s = task :: rest)
    (stage : task.stage = .called callback next) :
    w.search? s .answer task.context = next.search? w.debugger task.context := by
  simp only [search?, tasks, stage, if_true]

theorem facing_dispatch {event : Event} (tasks : w.tasks s = task :: rest) (stage : task.stage = .admitted event) :
    w.facing s .dispatch task.context = (w.debugger.context task.context).heeding event := by
  simp only [facing, heeds, takes_eq tasks stage, if_true, Context.heeding]
  split <;> rfl

theorem heeds_eq_nil (other : w.takes s move id = []) : heeds id w s (.move move) = [] := by
  simp only [heeds, other, ite_self]

theorem facing_eq (other : w.takes s move id = []) : w.facing s move id = w.debugger.context id := by
  rw [facing, heeds_eq_nil other]
  rfl

theorem Piece.ends (is : w.Piece s move task rest piece) (known : task.context < w.debugger.contexts.size) :
    Ends (w.search? s move task.context) s task.context (w.facing s move task.context) piece := by
  cases is with
  | dispatch tasks stage =>
      rw [search?_dispatch tasks stage, facing_dispatch tasks stage]
      exact Debugger.dispatch_ends known s _
  | answer tasks stage =>
      rw [search?_answer tasks stage, facing_eq (takes_eq_nil (by rintro ⟨⟩))]
      exact Debugger.run_ends known s _

theorem Piece.isDispatch (is : w.Piece s move task rest piece) : move.isDispatch := by
  cases is <;> rfl

theorem Piece.marks_search (is : w.Piece s move task rest piece) (known : task.context < w.debugger.contexts.size)
    {search : Search} (sought : w.search? s move task.context = some search) :
    (search.debugger.context task.context).marks = (w.facing s move task.context).marks := by
  cases is with
  | dispatch tasks stage =>
      rw [search?_dispatch tasks stage] at sought
      obtain ⟨-, heeded, same⟩ := Debugger.search?_eq_some sought
      rw [facing_dispatch tasks stage, Context.heeding, heeded, if_neg Bool.false_ne_true, same]
      exact Debugger.marks_placed known s _ _
  | answer tasks stage =>
      rw [search?_answer tasks stage] at sought
      obtain ⟨_, _, _, _, rfl⟩ := Continuation.search?_eq_some sought
      rw [facing_eq (takes_eq_nil (by rintro ⟨⟩))]

/-! ## Reports of breakpoints -/

/-- A step with which the front-end is told of a persistent breakpoint. -/
structure Reports (w : World) (s : Nat) (move : Move) (w' : World) (id : ContextId) (bp : Breakpoint) : Prop where
  step : w.Step s move w'
  dispatches : move.isDispatch
  calls : ∃ task ∈ (w'.tasks s).head?, ∃ next, task.stage = .called (.breakpoint id bp) next

theorem Piece.stops_iff (is : w.Piece s move task rest piece) (step : w.Step s move (w.proceed s task rest piece)) :
    (w.Halts s move (w.proceed s task rest piece) task.context ∨
      ∃ bp, w.Reports s move (w.proceed s task rest piece) task.context bp) ↔ piece.1.isQuiet = false := by
  constructor
  · rintro (halts | ⟨bp, reports⟩)
    · obtain ⟨position, next, outcome⟩ := (halts_proceed_iff step is.isDispatch).mp halts
      rw [outcome]
      rfl
    · obtain ⟨called, first, next, stage⟩ := reports.calls
      rw [tasks_proceed] at first
      cases first
      rcases piece with ⟨_ | ⟨callback, next'⟩, d⟩
      · cases stage
      · cases stage
        rfl
  · intro stops
    have about := is.about
    rcases piece with ⟨outcome, d⟩
    cases about with
    | halted position => exact .inl (halts_proceed step is.isDispatch rfl)
    | breakpoint bp position onLine =>
        have head := congrArg List.head? (tasks_proceed (w := w) (s := s) task rest
          (.call (.breakpoint task.context bp) (.breakpointReported position onLine), d))
        exact .inr ⟨bp, step, is.isDispatch, _, head, _, rfl⟩
    | done | traced | catchpoint => cases stops

/-! ## What a step is to a context -/

inductive Involves (id : ContextId) (w : World) (s : Nat) (w' : World) : Act → Prop where
  | piece {move : Move} {task : Task} {rest : List Task} {piece : Outcome × Debugger}
      (is : w.Piece s move task rest piece) (own : task.context = id) (leads : w' = w.proceed s task rest piece) :
      Involves id w s w' (.move move)
  | apart {act : Act} (unheeded : heeds id w s act = [])
      (idle : ∀ move, act = .move move → w.search? s move id = none ∧ ¬ w.Halts s move w' id)
      (keeps : ∀ {P : Context → Prop}, Inert P → (Untemporary P ∨ ¬ act.Resets id) →
        Debugger.Preserves P id w.debugger w'.debugger)
      (called : ∀ s', ∀ task ∈ w'.tasks s', task.context = id → ∀ {callback next},
        task.stage = .called callback next → task ∈ w.tasks s') : Involves id w s w' act

theorem Acts.preserves {P : Context → Prop} (acts : w.Acts s act w') (tolerant : Tolerant P)
    (bare : ∀ {context : Context}, P context → P { context with stack := [] })
    (skips : ∀ {context}, P context → ∀ on, P { context with skipped := on })
    (other : ∀ move, act = .move move → move.isDispatch = false) (arms : act.Arms P)
    (loose : Untemporary P ∨ ¬ act.Resets id) : Debugger.Preserves P id w.debugger w'.debugger := by
  cases acts with
  | move step =>
      refine step.preserves_tolerant tolerant (other _ rfl) (.inl fun request same => ?_)
        (loose.imp_right fun lasting request same resets => lasting ?_)
      · subst same
        exact arms
      · subst same
        exact resets
  | load stop free => exact Debugger.keeps_prepareLoad tolerant arms bare w.debugger s stop
  | meet free => exact Debugger.preserves_currentContext tolerant w.debugger s
  | skip own on free => exact w.debugger.preserves_updateContext own fun holds => skips holds on
  | keep on free => exact .of_contexts rfl

theorem Acts.preserves_inert {P : Context → Prop} (acts : w.Acts s act w') (inert : Inert P)
    (other : ∀ move, act = .move move → move.isDispatch = false) (loose : Untemporary P ∨ ¬ act.Resets id) :
    Debugger.Preserves P id w.debugger w'.debugger :=
  acts.preserves inert.tolerant inert.bare inert.skips other (act.arms_of_unstepped inert.unstepped) loose

theorem search?_eq_none (other : move.isDispatch = false) : w.search? s move id = none := by
  cases move with
  | dispatch | answer => cases other
  | _ => rfl

theorem Step.involves (step : w.Step s move w') (known : id < w.debugger.contexts.size) :
    Involves id w s w' (.move move) := by
  cases dispatches : move.isDispatch with
  | false =>
      refine .apart (heeds_eq_nil (takes_eq_nil (by rintro rfl; cases dispatches))) ?_ (fun inert loose => ?_)
        fun s' task member _ _ _ stage => step.called dispatches member stage
      · rintro _ ⟨⟩
        refine ⟨search?_eq_none dispatches, fun halts => ?_⟩
        rw [halts.dispatches] at dispatches
        cases dispatches
      · refine (Acts.move step).preserves_inert inert ?_ loose
        rintro _ ⟨⟩
        exact dispatches
  | true =>
      obtain ⟨task, rest, piece, is, rfl⟩ := step.piece dispatches
      by_cases own : task.context = id
      · exact .piece is own rfl
      · refine .apart ?_ ?_ (fun {P} _ _ holds => ?_) fun s' other member mine _ _ stage => ?_
        · apply heeds_eq_nil
          cases is with
          | dispatch tasks stage => rw [takes_eq tasks stage, if_neg own]
          | answer tasks stage => exact takes_eq_nil (by rintro ⟨⟩)
        · rintro _ ⟨⟩
          constructor
          · cases is with
            | dispatch tasks stage | answer tasks stage => simp only [search?, tasks, stage, if_neg own]
          · intro halts
            obtain ⟨task', rest', piece', position, is', -, same, -⟩ := halts.piece
            have tasks := is'.tasks
            rw [is.tasks] at tasks
            cases tasks
            exact own same
        · exact (is.others known (Ne.symm own)).symm ▸ holds
        · by_cases here : s' = s
          · subst here
            rw [tasks_proceed] at member
            rcases List.mem_cons.mp member with rfl | inRest
            · exact absurd mine own
            · exact mem_outer is.tasks inRest
          · rwa [World.proceed, tasks_set_ne _ here] at member

theorem Acts.involves (acts : w.Acts s act w') (known : id < w.debugger.contexts.size) : Involves id w s w' act := by
  have kept : ∀ {P : Context → Prop}, (∀ move, act ≠ .move move) → Inert P → (Untemporary P ∨ ¬ act.Resets id) →
      Debugger.Preserves P id w.debugger w'.debugger :=
    fun none inert loose => acts.preserves_inert inert (fun move same => absurd same (none move)) loose
  cases acts with
  | move step => exact step.involves known
  | load | meet | skip | keep =>
      exact .apart rfl (fun _ same => by cases same) (kept fun _ same => by cases same)
        fun _ _ member _ _ _ _ => member

theorem Acts.known (acts : w.Acts s act w') (known : id < w.debugger.contexts.size) :
    id < w'.debugger.contexts.size := Nat.lt_of_lt_of_le known acts.lodges.size

/-! ## Runs with a record -/

/-- Runs whose steps are of an allowed kind, with what is noted of each. -/
inductive Noted {α : Type} (allowed : World → Nat → Act → Prop) (note : World → Nat → Act → List α) (w : World) :
    List α → World → Prop where
  | refl : Noted allowed note w [] w
  | step {w' w'' : World} {notes : List α} {s : Nat} {act : Act} (noted : Noted allowed note w notes w')
      (next : w'.Acts s act w'') (ok : allowed w' s act) : Noted allowed note w (notes ++ note w' s act) w''

section

variable {α : Type} {note : World → Nat → Act → List α} {notes : List α}

def notesAll (note : World → Nat → Act → List α) (w : World) : List (Nat × Act) → List α
  | [] => []
  | (s, act) :: steps => (w.perform? s act).elim [] fun w' => note w s act ++ notesAll note w' steps

theorem Noted.follow {checked : World → Nat → Act → Prop} [∀ w s act, Decidable (checked w s act)]
    (steps : List (Nat × Act)) (noted : Noted allowed note w₀ notes w)
    (ok : ∀ w s act, checked w s act → allowed w s act) (followed : w.follow? checked steps = some w') :
    Noted allowed note w₀ (notes ++ notesAll note w steps) w' := by
  induction steps generalizing w notes with
  | nil =>
      cases followed
      rwa [notesAll, List.append_nil]
  | cons step steps ih =>
      obtain ⟨s, act⟩ := step
      simp only [follow?, Option.ite_none_right_eq_some, Option.bind_eq_some_iff] at followed
      obtain ⟨check, next, performed, rest⟩ := followed
      rw [notesAll, performed, Option.elim_some, ← List.append_assoc]
      exact ih (noted.step (acts_of_perform? performed) (ok w s act check)) rest

end

end World

end EventDebugger
