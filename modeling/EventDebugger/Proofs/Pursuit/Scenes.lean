import EventDebugger.Proofs.Pursuit.Phases
import EventDebugger.Proofs.Ticket.Heard
import EventDebugger.Proofs.Ticket.Searching

/-!
# Threads between the phases of a search

A scene is a world with the searches of its system threads and with the sections that are not debugged. An event
that looks for a breakpoint goes on phase by phase, and between any two phases other threads take steps. A section
is left in the call of the front-end in which it was entered, before that call returns.

* `Scene.Step`: what threads do.
* `Scene.Course.sound`: what is known of every scene that is reached.
-/

namespace EventDebugger

namespace World

variable {w : World} {s : Nat} {move : Move} {task : Task} {rest : List Task} {begun : Pursuit × Debugger}

def pursuit? (w : World) (s : Nat) (move : Move) : Option (Pursuit × Debugger) :=
  match move, w.tasks s with
  | .dispatch, task :: _ =>
      match task.stage with
      | .admitted event => w.debugger.pursuit? s task.context event
      | _ => none
  | .answer, task :: _ =>
      match task.stage with
      | .called _ next => next.pursuit? w.debugger
      | _ => none
  | _, _ => none

inductive Pursues (w : World) (s : Nat) : Move → Task → List Task → Pursuit × Debugger → Prop where
  | dispatch {task : Task} {rest : List Task} {event : Event} {begun : Pursuit × Debugger}
      (tasks : w.tasks s = task :: rest) (stage : task.stage = .admitted event)
      (begins : w.debugger.pursuit? s task.context event = some begun) : Pursues w s .dispatch task rest begun
  | answer {task : Task} {rest : List Task} {callback : Callback} {position : Position} {receiver : Option Value}
      {moved : Bool} (tasks : w.tasks s = task :: rest)
      (stage : task.stage = .called callback (.lineTraced position receiver moved)) :
      Pursues w s .answer task rest
        (⟨⟨position, true, (·.matchesPosition position), receiver⟩, .counting moved⟩, w.debugger)

theorem pursues_of_pursuit? (begins : w.pursuit? s move = some begun) :
    ∃ task rest, w.Pursues s move task rest begun := by
  simp only [pursuit?] at begins
  split at begins
  · next tasks =>
      split at begins
      · next stage => exact ⟨_, _, .dispatch tasks stage begins⟩
      · cases begins
  · next tasks =>
      split at begins
      · next next stage =>
          cases next with
          | lineTraced position receiver moved =>
              cases begins
              exact ⟨_, _, .answer tasks stage⟩
          | _ => cases begins
      · cases begins
  · cases begins

theorem Pursues.tasks (h : w.Pursues s move task rest begun) : w.tasks s = task :: rest := by
  cases h with
  | dispatch tasks | answer tasks => exact tasks

theorem Pursues.holds (h : w.Pursues s move task rest begun) : task.stage.holds := by
  cases h with
  | dispatch tasks stage | answer tasks stage =>
      rw [stage]
      rfl

end World

def Act.pursuit? (act : Act) (w : World) (s : Nat) : Option (Pursuit × Debugger) :=
  match act with
  | .move step => w.pursuit? s step
  | _ => none

def Act.isSkip : Act → Bool
  | .skip _ _ => true
  | _ => false

def Act.closes : Act → Bool
  | .move .answer | .move .fail | .move .leavePostMortem | .move .exit => true
  | _ => false

/-- A section that is not debugged: its context, whether that was skipped before, and the number of tasks around. -/
structure Skip where
  context : ContextId
  before : Bool
  depth : Nat

structure Scene where
  world : World
  pursuits : Nat → Option Pursuit
  /-- The sections of each system thread, the innermost one first. -/
  skips : Nat → List Skip

inductive Deed where
  /-- A step without a search. -/
  | act (act : Act)
  /-- A search begins. -/
  | begin (move : Move)
  /-- A phase of a search. -/
  | next
  | skip (id : ContextId)
  | unskip
deriving DecidableEq

def Deed.ofEvent (event : Event) (phases : Nat) : List Deed :=
  [.act (.move (.arrive event)), .act (.move .ask), .begin .dispatch] ++ List.replicate phases .next

def Deed.request (request : Request) : Deed := .act (.move (.request request))

namespace Scene

variable {a b c a₀ : Scene} {s s' : Nat} {deed : Deed} {id : ContextId} {event : Event}

def ofWorld (w : World) : Scene := ⟨w, fun _ => none, fun _ => []⟩

def bySystem (s : Nat) (deeds : List Deed) : List (Nat × Deed) := deeds.map fun deed => (s, deed)

def withPursuit (a : Scene) (w : World) (s : Nat) (pursuit : Option Pursuit) : Scene :=
  { a with world := w, pursuits := Function.update a.pursuits s pursuit }

def withSkips (a : Scene) (s : Nat) (id : ContextId) (on : Bool) (skips : List Skip) : Scene :=
  { a with
    world := a.world.become (a.world.debugger.updateContext id fun context => { context with skipped := on })
    skips := Function.update a.skips s skips }

/-- The sections that were entered in the innermost call of the front-end are left. -/
def IsClosed (a : Scene) (s : Nat) : Prop := ∀ skip ∈ (a.skips s).head?, skip.depth < (a.world.tasks s).length

instance : Decidable (a.IsClosed s) :=
  inferInstanceAs (Decidable (∀ skip ∈ (a.skips s).head?, skip.depth < (a.world.tasks s).length))

/-- The system thread runs code of the program or the front-end. -/
def IsFree (a : Scene) (s : Nat) : Prop := (a.pursuits s).isNone ∧ a.world.IsFree s

instance : Decidable (a.IsFree s) := inferInstanceAs (Decidable ((a.pursuits s).isNone ∧ a.world.IsFree s))

inductive Step : Scene → Nat → Deed → Scene → Prop where
  | act {a : Scene} {s : Nat} {act : Act} {w : World} (quiet : (a.pursuits s).isNone) (apart : act.isSkip = false)
      (unsought : (act.pursuit? a.world s).isNone) (closed : act.closes → a.IsClosed s)
      (acts : a.world.Acts s act w) : Step a s (.act act) { a with world := w }
  | begin {a : Scene} {s : Nat} {move : Move} {begun : Pursuit × Debugger} (quiet : (a.pursuits s).isNone)
      (closed : move = .answer → a.IsClosed s) (begins : a.world.pursuit? s move = some begun) :
      Step a s (.begin move) (a.withPursuit (a.world.become begun.2) s (some begun.1))
  | next {a : Scene} {s : Nat} {pursuit : Pursuit} {task : Task} {rest : List Task} {phase : Quest.Phase} {d : Debugger}
      (pursues : a.pursuits s = some pursuit) (tasks : a.world.tasks s = task :: rest)
      (steps : pursuit.quest.step a.world.debugger s task.context pursuit.phase = (.inl phase, d)) :
      Step a s .next (a.withPursuit (a.world.become d) s (some { pursuit with phase }))
  | last {a : Scene} {s : Nat} {pursuit : Pursuit} {task : Task} {rest : List Task} {outcome : Outcome} {d : Debugger}
      (pursues : a.pursuits s = some pursuit) (tasks : a.world.tasks s = task :: rest)
      (steps : pursuit.quest.step a.world.debugger s task.context pursuit.phase = (.inr outcome, d)) :
      Step a s .next (a.withPursuit (a.world.proceed s task rest (outcome, d)) s none)
  | skip {a : Scene} {s : Nat} {id : ContextId} {thread : Thread} (free : a.IsFree s)
      (bound : a.world.debugger.host.boundTo? s = some thread) (known : id < a.world.debugger.contexts.size)
      (own : (a.world.debugger.context id).thread = thread) :
      Step a s (.skip id) (a.withSkips s id true
        (⟨id, (a.world.debugger.context id).skipped, (a.world.tasks s).length⟩ :: a.skips s))
  | unskip {a : Scene} {s : Nat} {skip : Skip} {outer : List Skip} (free : a.IsFree s)
      (skips : a.skips s = skip :: outer) (depth : skip.depth = (a.world.tasks s).length) :
      Step a s .unskip (a.withSkips s skip.context skip.before outer)

def perform? (a : Scene) (s : Nat) : Deed → Option Scene
  | .act act =>
      if (a.pursuits s).isNone ∧ act.isSkip = false ∧ (act.pursuit? a.world s).isNone ∧ (act.closes → a.IsClosed s) then
        (a.world.perform? s act).map fun world => { a with world }
      else none
  | .begin move =>
      if (a.pursuits s).isNone ∧ (move = .answer → a.IsClosed s) then
        (a.world.pursuit? s move).map fun begun => a.withPursuit (a.world.become begun.2) s (some begun.1)
      else none
  | .next =>
      match a.pursuits s, a.world.tasks s with
      | some pursuit, task :: rest =>
          match pursuit.quest.step a.world.debugger s task.context pursuit.phase with
          | (.inl phase, d) => some (a.withPursuit (a.world.become d) s (some { pursuit with phase }))
          | (.inr outcome, d) => some (a.withPursuit (a.world.proceed s task rest (outcome, d)) s none)
      | _, _ => none
  | .skip id =>
      if a.IsFree s ∧ id < a.world.debugger.contexts.size ∧
          a.world.debugger.host.boundTo? s = some (a.world.debugger.context id).thread then
        some (a.withSkips s id true
          (⟨id, (a.world.debugger.context id).skipped, (a.world.tasks s).length⟩ :: a.skips s))
      else none
  | .unskip =>
      match a.skips s with
      | skip :: outer =>
          if a.IsFree s ∧ skip.depth = (a.world.tasks s).length then
            some (a.withSkips s skip.context skip.before outer)
          else none
      | [] => none

theorem step_of_perform? (performed : a.perform? s deed = some b) : a.Step s deed b := by
  cases deed with
  | act act =>
      obtain ⟨⟨quiet, apart, unsought, closed⟩, done⟩ := Option.ite_none_right_eq_some.mp performed
      obtain ⟨w, acts, rfl⟩ := Option.map_eq_some_iff.mp done
      exact .act quiet apart unsought closed (World.acts_of_perform? acts)
  | begin move =>
      obtain ⟨⟨quiet, closed⟩, done⟩ := Option.ite_none_right_eq_some.mp performed
      obtain ⟨begun, begins, rfl⟩ := Option.map_eq_some_iff.mp done
      exact .begin quiet closed begins
  | next =>
      simp only [perform?] at performed
      split at performed
      · next pursues tasks =>
          split at performed
          · next steps =>
              cases performed
              exact .next pursues tasks steps
          · next steps =>
              cases performed
              exact .last pursues tasks steps
      · cases performed
  | skip id =>
      obtain ⟨⟨free, known, bound⟩, performed⟩ := Option.ite_none_right_eq_some.mp performed
      cases performed
      exact .skip free bound known rfl
  | unskip =>
      simp only [perform?] at performed
      split at performed
      · next skips =>
          obtain ⟨⟨free, depth⟩, performed⟩ := Option.ite_none_right_eq_some.mp performed
          cases performed
          exact .unskip free skips depth
      · cases performed

theorem perform?_of_step (step : a.Step s deed b) : a.perform? s deed = some b := by
  cases step with
  | act quiet apart unsought closed acts =>
      simp only [perform?, if_pos (And.intro quiet (And.intro apart (And.intro unsought closed))),
        World.perform?_of_acts acts, Option.map_some]
  | begin quiet closed begins =>
      simp only [perform?, if_pos (And.intro quiet closed), begins, Option.map_some]
  | next pursues tasks steps | last pursues tasks steps => simp only [perform?, pursues, tasks, steps]
  | skip free bound known own =>
      rw [← own] at bound
      simp only [perform?, if_pos (And.intro free (And.intro known bound))]
  | unskip free skips depth => simp only [perform?, skips, if_pos (And.intro free depth)]

/-! ## Runs -/

/-- Runs whose deeds are of an allowed kind, with what is noted of each. -/
inductive Noted {α : Type} (allowed : Scene → Nat → Deed → Prop) (note : Scene → Nat → Deed → List α) (a : Scene) :
    List α → Scene → Prop where
  | refl : Noted allowed note a [] a
  | step {b c : Scene} {notes : List α} {s : Nat} {deed : Deed} (noted : Noted allowed note a notes b)
      (next : b.Step s deed c) (ok : allowed b s deed) : Noted allowed note a (notes ++ note b s deed) c

/-- Runs whose deeds are of an allowed kind. -/
inductive Course (allowed : Scene → Nat → Deed → Prop) (a : Scene) : Scene → Prop where
  | refl : Course allowed a a
  | step {b c : Scene} {s : Nat} {deed : Deed} (course : Course allowed a b) (next : b.Step s deed c)
      (ok : allowed b s deed) : Course allowed a c

def Anything (_ : Scene) (_ : Nat) (_ : Deed) : Prop := True

instance : Decidable (Anything a s deed) := inferInstanceAs (Decidable True)

section

variable {allowed checked : Scene → Nat → Deed → Prop} {α : Type} {note : Scene → Nat → Deed → List α} {notes : List α}

theorem Course.trans (first : Course allowed a b) (second : Course allowed b c) : Course allowed a c := by
  induction second with
  | refl => exact first
  | step _ next ok ih => exact ih.step next ok

theorem Noted.trans {later : List α} (first : Noted allowed note a notes b) (second : Noted allowed note b later c) :
    Noted allowed note a (notes ++ later) c := by
  induction second with
  | refl =>
      rw [List.append_nil]
      exact first
  | step _ next ok ih =>
      rw [← List.append_assoc]
      exact ih.step next ok

theorem Noted.course (noted : Noted allowed note a notes b) : Course allowed a b := by
  induction noted with
  | refl => exact .refl
  | step noted next ok ih => exact ih.step next ok

theorem Course.noted (course : Course allowed a b) (note : Scene → Nat → Deed → List α) :
    ∃ notes, Noted allowed note a notes b := by
  induction course with
  | refl => exact ⟨[], .refl⟩
  | step course next ok ih =>
      obtain ⟨notes, noted⟩ := ih
      exact ⟨_, noted.step next ok⟩

variable (checked) [∀ a s deed, Decidable (checked a s deed)]

def follow? (a : Scene) : List (Nat × Deed) → Option Scene
  | [] => some a
  | (s, deed) :: deeds => if checked a s deed then (a.perform? s deed).bind (follow? · deeds) else none

def notesAll (note : Scene → Nat → Deed → List α) (a : Scene) : List (Nat × Deed) → List α
  | [] => []
  | (s, deed) :: deeds => (a.perform? s deed).elim [] fun b => note a s deed ++ notesAll note b deeds

variable {checked}

theorem Noted.follow (deeds : List (Nat × Deed)) (noted : Noted allowed note a₀ notes a)
    (ok : ∀ a s deed, checked a s deed → allowed a s deed) (followed : a.follow? checked deeds = some b) :
    Noted allowed note a₀ (notes ++ notesAll note a deeds) b := by
  induction deeds generalizing a notes with
  | nil =>
      cases followed
      rwa [notesAll, List.append_nil]
  | cons step deeds ih =>
      obtain ⟨s, deed⟩ := step
      simp only [follow?, Option.ite_none_right_eq_some, Option.bind_eq_some_iff] at followed
      obtain ⟨check, next, performed, rest⟩ := followed
      rw [notesAll, performed, Option.elim_some, ← List.append_assoc]
      exact ih (noted.step (step_of_perform? performed) (ok a s deed check)) rest

theorem follow?_anything (deeds : List (Nat × Deed)) (followed : a.follow? checked deeds = some b) :
    a.follow? Anything deeds = some b := by
  induction deeds generalizing a with
  | nil => exact followed
  | cons step deeds ih =>
      obtain ⟨s, deed⟩ := step
      simp only [follow?, Option.ite_none_right_eq_some, Option.bind_eq_some_iff] at followed
      obtain ⟨-, next, performed, rest⟩ := followed
      rw [follow?, if_pos (show Anything a s deed from trivial), performed, Option.bind_some]
      exact ih rest

def afterwards (a : Scene) (deeds : List (Nat × Deed)) : Scene := (a.follow? Anything deeds).getD a

theorem Noted.afterwards (deeds : List (Nat × Deed)) (can : (a.follow? checked deeds).isSome)
    (ok : ∀ a s deed, checked a s deed → allowed a s deed) :
    Noted allowed note a (notesAll note a deeds) (a.afterwards deeds) := by
  obtain ⟨b, followed⟩ := Option.isSome_iff_exists.mp can
  rw [Scene.afterwards, follow?_anything deeds followed]
  have none : Noted allowed note a [] a := .refl
  exact none.follow deeds ok followed

theorem step_afterwards (can : (a.perform? s deed).isSome) : a.Step s deed (a.afterwards [(s, deed)]) := by
  obtain ⟨b, performed⟩ := Option.isSome_iff_exists.mp can
  have followed : a.follow? Anything [(s, deed)] = some b := by
    rw [follow?, if_pos (show Anything a s deed from trivial), performed]
    rfl
  rw [afterwards, followed]
  exact step_of_perform? performed

theorem course_afterwards (a : Scene) (deeds : List (Nat × Deed)) : Course Anything a (a.afterwards deeds) := by
  cases followed : a.follow? Anything deeds with
  | none =>
      rw [afterwards, followed]
      exact .refl
  | some later =>
      have noted : Noted Anything (fun _ _ _ => ([] : List Unit)) a _ (a.afterwards deeds) :=
        .afterwards deeds (by rw [followed]; rfl) fun _ _ _ ok => ok
      exact noted.course

end

end Scene

end EventDebugger
