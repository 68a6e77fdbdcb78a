import EventDebugger.Proofs.Pursuit.Courses
import EventDebugger.Proofs.Ticket.Registry

/-!
# Earlier scenes of a search

What a phase of a search rests on was found in earlier phases, in scenes between which other threads went on.

* `Scene.Course.trail`: what is known of the search of a system thread, at each of its phases.
* `Scene.Noted.spares`: a breakpoint that was listed and was not removed since then.
-/

namespace EventDebugger

open Context (Undue)
open Debugger (Found)

theorem Filing.mem_foldl_apply {log : List Filing} {registry : Registry} {bp : Breakpoint} (listed : bp ∈ registry)
    (lasts : .begun ∉ log) (kept : .removed bp.id ∉ log) : bp ∈ log.foldl apply registry := by
  induction log generalizing registry with
  | nil => exact listed
  | cons filing log ih =>
      rw [List.mem_cons, not_or] at lasts kept
      refine ih ?_ lasts.2 kept.2
      cases filing with
      | begun => exact absurd rfl lasts.1
      | added other => exact List.mem_append_left _ listed
      | removed id =>
          refine (List.mem_eraseP_of_neg ?_).mpr listed
          simpa using fun same => kept.1 (congrArg Filing.removed same)

namespace Quest

variable {quest : Quest} {id : ContextId} {context context' : Context} {phase next : Quest.Phase}

theorem Makes.moved (makes : quest.Makes id context phase (.inl next) context') : context'.moved = context.moved := by
  cases makes with
  | @counts moved =>
      obtain ⟨_, _, _, same⟩ := context.countLine_eq moved
      rw [same]
  | stays | binds => rfl

end Quest

namespace Scene

variable {a b x a₀ : Scene} {s s' : Nat} {deed : Deed} {id first : ContextId} {quest : Quest} {phase : Quest.Phase}
  {found : Found} {bp : Breakpoint} {allowed : Scene → Nat → Deed → Prop} {log : List Filing} {base : Nat}

/-! ## Deeds of other system threads -/

theorem Step.tasks_ne (step : a.Step s deed b) (ne : s' ≠ s) :
    b.world.tasks s' = a.world.tasks s' ∧ b.pursuits s' = a.pursuits s' := by
  cases step with
  | act quiet apart unsought closed acts => exact ⟨acts.tasks_ne ne, rfl⟩
  | begin | next => exact ⟨rfl, pursuits_withPursuit_ne _ _ ne _⟩
  | last => exact ⟨World.tasks_set_ne _ ne _, pursuits_withPursuit_ne _ _ ne _⟩
  | skip | unskip => exact ⟨rfl, rfl⟩

theorem Step.holds (step : a.Step s deed b) (sound : a.Sound first) (goesOn : deed.goesOn) :
    ∀ task ∈ (a.world.tasks s).head?, task.stage.holds := by
  cases step with
  | act quiet apart unsought closed acts =>
      cases acts with
      | move step =>
          obtain ⟨task, rest, piece, is, -⟩ := step.piece goesOn
          rw [is.tasks]
          rintro _ ⟨⟩
          exact is.holds
      | _ => cases goesOn
  | begin quiet closed begins =>
      obtain ⟨task, rest, is⟩ := World.pursues_of_pursuit? begins
      rw [is.tasks]
      rintro _ ⟨⟩
      exact is.holds
  | next pursues | last pursues => exact (sound.searches pursues).holds
  | skip | unskip => cases goesOn

theorem Step.aside (step : a.Step s deed b) (sound : a.Sound first) (ne : s' ≠ s) {task : Task}
    (member : task ∈ a.world.tasks s') (holds : task.stage.holds) : Aside task.context a s deed := by
  intro goesOn other head
  have held := step.holds sound goesOn other head
  have own : other ∈ a.world.tasks s := List.mem_of_mem_head? head
  exact sound.heard.lodged.apart (Ne.symm ne) member (Stage.not_isInspecting_of_holds holds) own
    (Stage.not_isInspecting_of_holds held)

/-! ## Earlier phases -/

/-- A system thread does nothing but go on with its search. -/
def Searches (s : Nat) (_ : Scene) (s' : Nat) (deed : Deed) : Prop := s' = s → deed = .next

/-- An earlier scene of the search that a system thread is at. -/
structure Earlier (a₀ : Scene) (s : Nat) (quest : Quest) (phase : Quest.Phase) (x a : Scene) : Prop where
  reached : Course Anything a₀ x
  pursues : x.pursuits s = some ⟨quest, phase⟩
  since : Course (Searches s) x a

theorem Earlier.later (earlier : Earlier a₀ s quest phase x a) (step : a.Step s' deed b)
    (searches : Searches s a s' deed) :
    Earlier a₀ s quest phase x b := ⟨earlier.reached, earlier.pursues, earlier.since.step step searches⟩

def WasMet (a₀ : Scene) (s : Nat) (id : ContextId) (quest : Quest) (a : Scene) : Found → Prop
  | .temporary bp number => ∃ x, Earlier a₀ s quest .looking x a ∧
      (x.world.debugger.context id).temporary = some bp ∧ (x.world.debugger.context id).temporaryCount = number ∧
      quest.meets bp
  | .listed bp => ∃ x, Earlier a₀ s quest .listing x a ∧ bp ∈ x.world.debugger.registry ∧ quest.meets bp

/-- The guard of a breakpoint held in the binding that was captured for it. -/
def WasJudged (a₀ : Scene) (s : Nat) (id : ContextId) (quest : Quest) (a : Scene) (found : Found) : Prop :=
  ∃ x y, Earlier a₀ s quest (.met found) x a ∧
    Earlier a₀ s quest (.bound found (quest.bind x.world.debugger s id).1) y a ∧
    y.world.debugger.guardHolds found.breakpoint (quest.bind x.world.debugger s id).1

/-- No step was due when a line was counted. -/
def WasUndue (a₀ : Scene) (s : Nat) (id : ContextId) (quest : Quest) (a : Scene) : Prop :=
  quest.onLine → ∃ x, Earlier a₀ s quest .looking x a ∧ (x.world.debugger.context id).Undue

inductive Trail (a₀ : Scene) (s : Nat) (id : ContextId) (quest : Quest) (a : Scene) : Quest.Phase → Prop where
  | counting {moved : Bool} : Trail a₀ s id quest a (.counting moved)
  | looking (undue : WasUndue a₀ s id quest a) : Trail a₀ s id quest a .looking
  | listing (undue : WasUndue a₀ s id quest a) (moved : (a.world.debugger.context id).moved) :
      Trail a₀ s id quest a .listing
  | met {found : Found} (undue : WasUndue a₀ s id quest a) (moved : (a.world.debugger.context id).moved)
      (met : WasMet a₀ s id quest a found) : Trail a₀ s id quest a (.met found)
  | bound {found : Found} {x : Scene} (undue : WasUndue a₀ s id quest a) (moved : (a.world.debugger.context id).moved)
      (met : WasMet a₀ s id quest a found) (earlier : Earlier a₀ s quest (.met found) x a) :
      Trail a₀ s id quest a (.bound found (quest.bind x.world.debugger s id).1)
  | passed {found : Found} (undue : WasUndue a₀ s id quest a) (moved : (a.world.debugger.context id).moved)
      (met : WasMet a₀ s id quest a found) (judged : WasJudged a₀ s id quest a found) :
      Trail a₀ s id quest a (.passed found)

section

variable (step : a.Step s' deed b) (searches : Searches s a s' deed)

include step searches

theorem WasMet.later (met : WasMet a₀ s id quest a found) : WasMet a₀ s id quest b found := by
  cases found with
  | temporary bp number | listed bp =>
      obtain ⟨x, earlier, rest⟩ := met
      exact ⟨x, earlier.later step searches, rest⟩

theorem WasJudged.later (judged : WasJudged a₀ s id quest a found) : WasJudged a₀ s id quest b found := by
  obtain ⟨x, y, captured, evaluated, holds⟩ := judged
  exact ⟨x, y, captured.later step searches, evaluated.later step searches, holds⟩

theorem WasUndue.later (undue : WasUndue a₀ s id quest a) : WasUndue a₀ s id quest b := by
  intro onLine
  obtain ⟨x, earlier, undue⟩ := undue onLine
  exact ⟨x, earlier.later step searches, undue⟩

theorem Trail.later (trail : Trail a₀ s id quest a phase)
    (moved : (b.world.debugger.context id).moved = (a.world.debugger.context id).moved) :
    Trail a₀ s id quest b phase := by
  cases trail with
  | counting => exact .counting
  | looking undue => exact .looking (undue.later step searches)
  | listing undue holds => exact .listing (undue.later step searches) (moved ▸ holds)
  | met undue holds met => exact .met (undue.later step searches) (moved ▸ holds) (met.later step searches)
  | bound undue holds met earlier =>
      exact .bound (undue.later step searches) (moved ▸ holds) (met.later step searches) (earlier.later step searches)
  | passed undue holds met judged =>
      exact .passed (undue.later step searches) (moved ▸ holds) (met.later step searches) (judged.later step searches)

end

theorem Trail.next (trail : Trail a₀ s id quest a phase) (reached : Course Anything a₀ a)
    (pursues : a.pursuits s = some ⟨quest, phase⟩) (known : id < a.world.debugger.contexts.size) {next : Quest.Phase}
    {d : Debugger} (steps : quest.Steps a.world.debugger s id phase (.inl next, d)) {b : Scene}
    (step : a.Step s .next b) (leads : b = a.withPursuit (a.world.become d) s (some ⟨quest, next⟩)) :
    Trail a₀ s id quest b next := by
  have searches : Searches s a s .next := fun _ => rfl
  have here : Earlier a₀ s quest phase a b := ⟨reached, pursues, Course.refl.step step searches⟩
  have moved : (b.world.debugger.context id).moved = (a.world.debugger.context id).moved := by
    rw [leads]
    exact (steps.makes known).moved
  cases steps with
  | undue undue =>
      refine .looking fun _ => ⟨b, ⟨reached.step step trivial, ?_, .refl⟩, ?_⟩
      · rw [leads]
        exact pursuits_withPursuit_self ..
      · rw [leads]
        exact undue
  | own holds temporary meets =>
      cases trail with
      | looking undue =>
          exact .met (undue.later step searches) (moved ▸ holds) ⟨a, here, temporary, rfl, meets⟩
  | other holds =>
      cases trail with
      | looking undue => exact .listing (undue.later step searches) (moved ▸ holds)
  | listed listed meets =>
      cases trail with
      | listing undue holds => exact .met (undue.later step searches) (moved ▸ holds) ⟨a, here, listed, meets⟩
  | binds =>
      cases trail with
      | met undue holds met =>
          exact .bound (undue.later step searches) (moved ▸ holds) (met.later step searches) here
  | holds judged =>
      cases trail with
      | bound undue holds met earlier =>
          exact .passed (undue.later step searches) (moved ▸ holds) (met.later step searches)
            ⟨_, a, earlier.later step searches, here, judged⟩

theorem inert_moved (moved : Bool) : Inert fun context => context.moved = moved where
  tolerant := ⟨fun h _ _ _ => h, fun _ _ _ h => h⟩
  unstepped h _ _ _ _ _ _ := h
  bare h := h
  skips h _ := h

theorem Course.trail (course : Course Anything a₀ a) (sound : a₀.Sound first) (quiet : ∀ s, a₀.pursuits s = none)
    {pursuit : Pursuit} (pursues : a.pursuits s = some pursuit) {task : Task} {rest : List Task}
    (tasks : a.world.tasks s = task :: rest) : Trail a₀ s task.context pursuit.quest a pursuit.phase := by
  induction course generalizing pursuit task rest with
  | refl => cases (quiet s).symm.trans pursues
  | @step a b s' deed course step _ ih =>
      have sound' := course.sound sound
      by_cases ne : s = s'
      · subst ne
        cases step with
        | act quiet apart unsought closed acts =>
            cases (Option.isNone_iff_eq_none.mp quiet).symm.trans pursues
        | begin quiet closed begins =>
            obtain ⟨task', rest', is⟩ := World.pursues_of_pursuit? begins
            rw [pursuits_withPursuit_self] at pursues
            cases pursues
            cases is with
            | answer => exact .counting
            | dispatch _ _ begins =>
                obtain ⟨-, begins⟩ := Option.ite_none_left_eq_some.mp begins
                split at begins
                · obtain ⟨-, begins⟩ := Option.ite_none_left_eq_some.mp begins
                  cases begins
                  exact .counting
                · next kind =>
                    cases begins
                    exact .looking fun onLine => by simp [Event.quest, kind, EventKind.isLine] at onLine
                · cases begins
        | @next before task' rest' phase d pursues' tasks' steps =>
            rw [pursuits_withPursuit_self] at pursues
            cases pursues
            cases tasks'.symm.trans tasks
            have holds := sound'.holds pursues' tasks'
            have known := (sound'.heard.lodged.home s task (World.mem_innermost tasks')
              (Stage.not_isInspecting_of_holds holds)).1
            exact (ih pursues' tasks').next course pursues' known (.of_step steps) (.next pursues' tasks' steps) rfl
        | last =>
            rw [pursuits_withPursuit_self] at pursues
            cases pursues
        | skip free | unskip free =>
            have none := Option.isNone_iff_eq_none.mp free.1
            cases none.symm.trans pursues
      · obtain ⟨same, same'⟩ := step.tasks_ne ne
        rw [same'] at pursues
        rw [same] at tasks
        have holds := sound'.holds pursues tasks
        have known := (sound'.heard.lodged.home s task (World.mem_innermost tasks)
          (Stage.not_isInspecting_of_holds holds)).1
        refine (ih pursues tasks).later step (fun own => absurd own.symm ne) ?_
        exact step.keeps known (step.aside sound' ne (World.mem_innermost tasks) holds) (inert_moved _)
          (.inl fun h _ _ => h) rfl

/-! ## The registry -/

def filings (a : Scene) (_ : Nat) (deed : Deed) : List Filing :=
  match deed with
  | .act act => act.filings a.world.debugger
  | _ => []

theorem Step.filed (step : a.Step s deed b) (h : a.world.debugger.Filed base log) :
    b.world.debugger.Filed base (log ++ a.filings s deed) := by
  cases step with
  | act quiet apart unsought closed acts => exact acts.filed h
  | begin quiet closed begins =>
      obtain ⟨_, _, is⟩ := World.pursues_of_pursuit? begins
      exact h.unfiled is.forwards.touches.retains
  | next pursues tasks steps | last pursues tasks steps =>
      exact h.unfiled (Quest.Steps.of_step steps).touches.retains
  | skip | unskip => exact h.unfiled (.of_same rfl rfl)

theorem Noted.filed {earlier : List Filing} (noted : Noted allowed filings a log b)
    (h : a.world.debugger.Filed base earlier) : b.world.debugger.Filed base (earlier ++ log) := by
  induction noted with
  | refl =>
      rw [List.append_nil]
      exact h
  | step noted next ok ih =>
      rw [← List.append_assoc]
      exact next.filed ih

theorem Noted.spares (noted : Noted allowed filings a log b) (h : ∃ base earlier, a.world.debugger.Filed base earlier)
    (listed : bp ∈ a.world.debugger.registry) (spared : .begun ∉ log ∧ .removed bp.id ∉ log)
    (started : b.world.debugger.isStarted) : bp ∈ b.world.debugger.registry := by
  obtain ⟨base, earlier, filed⟩ := h
  have active : a.world.debugger.isStarted := Option.isSome_iff_exists.mpr (Debugger.session_of_listed listed)
  rw [(noted.filed filed).listed started, Filing.registry_append]
  rw [filed.listed active] at listed
  exact Filing.mem_foldl_apply listed spared.1 spared.2

end Scene

end EventDebugger
