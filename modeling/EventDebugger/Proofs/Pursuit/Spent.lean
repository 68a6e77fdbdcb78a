import EventDebugger.Proofs.Pursuit.Told

/-!
# The temporary breakpoint of a context

The temporary breakpoints that a context is given are numbered. An event can only meet the one that the context has,
and the halt that it causes uses it up, without any call of the front-end about the breakpoint, unless it was set anew
or cleared since the event met it. A number is not given again, so that nothing brings back a breakpoint that is gone.

* `Scene.Step.spends`: what a deed makes of the temporary breakpoint of a context.
* `Scene.fires_once`: what became of a temporary breakpoint.
-/

namespace EventDebugger

open Debugger (Found)

namespace Context

variable {context context' : Context} {number : Nat}

def given (context : Context) : Option Breakpoint × Nat := (context.temporary, context.temporaryCount)

/-- The temporary breakpoint of a context is the one with a number. -/
def Has (number : Nat) (context : Context) : Prop := context.temporary.isSome ∧ context.temporaryCount = number

theorem Has.congr (has : context.Has number) (same : context'.given = context.given) : context'.Has number := by
  simp only [given, Prod.mk.injEq] at same
  rw [Has, same.1, same.2]
  exact has

theorem isOwn_temporary (bp : Breakpoint) : (Found.temporary bp number).isOwn context ↔ context.Has number := by
  rw [Found.isOwn, Bool.and_eq_true, beq_iff_eq, Has]

theorem given_savePosition (context : Context) : context.savePosition.given = context.given := by
  obtain ⟨_, _, _, _, same⟩ := context.savePosition_eq
  rw [same]
  rfl

theorem given_countLine (moved : Bool) (context : Context) : (context.countLine moved).given = context.given := by
  obtain ⟨_, _, _, same⟩ := context.countLine_eq moved
  rw [same]
  rfl

theorem temporary_noting (context : Context) (events : List Event) :
    (context.noting events).temporary = context.temporary := by
  induction events generalizing context with
  | nil => rfl
  | cons event events ih => exact ih _

theorem inert_given (given : Option Breakpoint × Nat) : Inert fun context => context.given = given where
  tolerant := ⟨fun h _ _ _ => h, fun _ _ _ h => h⟩
  unstepped h _ _ _ _ _ _ := h
  bare h := h
  skips h _ := h

end Context

theorem Quest.Steps.given {quest : Quest} {d : Debugger} {system : Nat} {id : ContextId} {phase : Quest.Phase}
    {result : (Quest.Phase ⊕ Outcome) × Debugger} (steps : quest.Steps d system id phase result)
    (known : id < d.contexts.size) :
    (∃ found, phase = .passed found ∧ found.isOwn (d.context id) ∧
        (result.2.context id).given = (none, (d.context id).temporaryCount)) ∨
      (∀ found, phase = .passed found → found.isOwn (d.context id) = false) ∧
        (result.2.context id).given = (d.context id).given := by
  have makes := steps.makes known
  cases steps with
  | due =>
      cases makes with
      | due binding saved =>
          refine .inr ⟨nofun, ?_⟩
          rw [saved, Context.given_savePosition]
          exact Context.given_countLine _ (d.context id)
  | undue =>
      refine .inr ⟨nofun, ?_⟩
      rw [d.context_updateContext_self _ known]
      exact Context.given_countLine _ _
  | binds =>
      refine .inr ⟨nofun, ?_⟩
      rw [Quest.context_bind known]
      rfl
  | fires own =>
      cases makes with
      | fires _ saved =>
          refine .inl ⟨_, rfl, own, ?_⟩
          rw [saved, Context.given_savePosition]
          split <;> rfl
  | reports lost =>
      refine .inr ⟨?_, ?_⟩
      · rintro _ ⟨⟩
        exact lost
      · rw [d.context_updateContext_self _ known]
        rfl
  | still | own | other | listed | unlisted | holds | fails => exact .inr ⟨nofun, rfl⟩

theorem Request.given_of_resets {request : Request} {d : Debugger} {id : ContextId} (resets : request.Resets id)
    (active : d.isStarted) (known : id < d.contexts.size) (system : Nat) :
    (∃ source target guard, request = .context id (.setTemporary source target guard) ∧
        ((request.serve system d).context id).given =
          (some ⟨0, source, target, guard⟩, (d.context id).temporaryCount + 1)) ∨
      request = .context id .clearTemporary ∧
        ((request.serve system d).context id).given = (none, (d.context id).temporaryCount) := by
  have served {α β : Type} (f : Debugger → Except Error (α × Debugger)) (reply : α → β) {value : α} {d' : Debugger}
      (changes : f d = .ok (value, d')) :
      ((do return reply (← Script.Attempt.change f) : Script.Attempt β) (d, .initial [])).2.1 = d' := by
    rw [Script.Attempt.debugger_map, Script.Attempt.debugger_change, changes]
  let after (temporary : Option Breakpoint) (temporaryCount : Nat) : Debugger :=
    d.updateContext id fun _ => { d.context id with temporary, temporaryCount }
  have changed (temporary : Option Breakpoint) (count : Nat) :
      ((after temporary count).context id).given = (temporary, count) :=
    congrArg Context.given (d.context_updateContext_self _ known)
  cases request with
  | debugger => cases resets
  | context other command =>
      cases command with
      | setTemporary source target guard =>
          cases resets
          refine .inl ⟨source, target, guard, rfl, ?_⟩
          let bp : Breakpoint := ⟨0, source, target, guard⟩
          have set : d.setTemporary id source target guard =
              .ok (bp, after (some bp) ((d.context id).temporaryCount + 1)) := by
            simp only [Debugger.setTemporary, Debugger.command, Debugger.inspect, active, if_true]
            rfl
          exact congrArg (fun d : Debugger => (d.context id).given)
            (served (fun d => d.setTemporary id source target guard) Script.Reply.breakpoint set) |>.trans (changed _ _)
      | clearTemporary =>
          cases resets
          refine .inr ⟨rfl, ?_⟩
          have cleared : d.clearTemporary id =
              .ok ((d.context id).temporary, after none (d.context id).temporaryCount) := by
            simp only [Debugger.clearTemporary, Debugger.command, Debugger.inspect, active, if_true]
            rfl
          exact congrArg (fun d : Debugger => (d.context id).given)
            (served (fun d => d.clearTemporary id) (Script.Reply.ofOption .breakpoint) cleared) |>.trans (changed _ _)
      | _ => cases resets

theorem Request.serve_inactive {request : Request} {id : ContextId} {d : Debugger} (resets : request.Resets id)
    (inactive : d.isStarted = false) (system : Nat) : request.serve system d = d := by
  have refused {α β : Type} (f : Debugger → Except Error (α × Debugger)) (reply : α → β)
      (fails : f d = .error .notStarted) :
      ((do return reply (← Script.Attempt.change f) : Script.Attempt β) (d, .initial [])).2.1 = d := by
    rw [Script.Attempt.debugger_map, Script.Attempt.debugger_change, fails]
  cases request with
  | debugger => cases resets
  | context other command =>
      cases command with
      | setTemporary source target guard =>
          refine refused (fun d => d.setTemporary other source target guard) Script.Reply.breakpoint ?_
          simp only [Debugger.setTemporary, Debugger.command, Debugger.inspect, inactive]
          rfl
      | clearTemporary =>
          refine refused (fun d => d.clearTemporary other) (Script.Reply.ofOption .breakpoint) ?_
          simp only [Debugger.clearTemporary, Debugger.inspect, inactive]
          rfl
      | _ => cases resets

theorem World.Piece.given_of_unsought {w : World} {s : Nat} {move : Move} {task : Task} {rest : List Task}
    {piece : Outcome × Debugger} (is : w.Piece s move task rest piece)
    (known : task.context < w.debugger.contexts.size) (unsought : w.search? s move task.context = none) :
    (piece.2.context task.context).given = (w.debugger.context task.context).given := by
  have count : (piece.2.context task.context).temporaryCount = (w.debugger.context task.context).temporaryCount :=
    congrArg (·.2.2.2.2.2.2.2.2) (is.traits known)
  have faces : (w.facing s move task.context).temporary = (w.debugger.context task.context).temporary :=
    Context.temporary_noting _ _
  refine Prod.ext (Eq.trans ?_ faces) count
  have ends := is.ends known
  rw [unsought] at ends
  cases ends with
  | passed missed quiet same => exact congrArg (·.2.2) same
  | halted unsought halting same saved =>
      exact (congrArg (·.1) ((congrArg Context.given saved).trans halting.given_savePosition)).trans
        (congrArg (·.2.2) same)
  | reported sought | fired sought => cases sought

def Quest.Phase.found? : Quest.Phase → Option Found
  | .met found | .bound found _ | .passed found => some found
  | .counting _ | .looking | .listing => none

theorem World.Pursues.unmet {w : World} {s : Nat} {move : Move} {task : Task} {rest : List Task}
    {begun : Pursuit × Debugger} (h : w.Pursues s move task rest begun) : begun.1.phase.found? = none := by
  cases h with
  | dispatch tasks stage begins =>
      obtain ⟨-, begins⟩ := Option.ite_none_left_eq_some.mp begins
      split at begins
      · obtain ⟨-, begins⟩ := Option.ite_none_left_eq_some.mp begins
        cases begins
        rfl
      · cases begins
        rfl
      · cases begins
  | answer => rfl

namespace Scene

variable {a b x a₀ a₁ a₂ a₃ : Scene} {s s' : Nat} {deed : Deed} {id first : ContextId} {bp hit : Breakpoint}
  {number : Nat} {allowed : Scene → Nat → Deed → Prop} {w₀ : World}

structure Chases (a : Scene) (s : Nat) (id : ContextId) (bp : Breakpoint) (number : Nat) : Prop where
  pursues : ∃ pursuit, a.pursuits s = some pursuit ∧ pursuit.phase.found? = some (.temporary bp number)
  task : ∃ task rest, a.world.tasks s = task :: rest ∧ task.context = id

/-- The temporary breakpoint of a context, with its number, that an event is about to halt because of. -/
def fired? (id : ContextId) (a : Scene) (s : Nat) : Option (Breakpoint × Nat) :=
  match a.pursuits s, (a.world.tasks s).head? with
  | some ⟨_, .passed (.temporary bp number)⟩, some task => if task.context = id then some (bp, number) else none
  | _, _ => none

theorem fired?_eq_some (fires : a.fired? id s = some (bp, number)) : ∃ quest task rest,
    a.pursuits s = some ⟨quest, .passed (.temporary bp number)⟩ ∧ a.world.tasks s = task :: rest ∧
      task.context = id := by
  simp only [fired?] at fires
  split at fires
  · next quest bp number task pursues head =>
      obtain ⟨rest, tasks⟩ := List.head?_eq_some_iff.mp head
      obtain ⟨own, same⟩ := Option.ite_none_right_eq_some.mp fires
      cases same
      exact ⟨quest, task, rest, pursues, tasks, own⟩
  · cases fires

theorem chases_of_fired? (fires : a.fired? id s = some (bp, number)) : a.Chases s id bp number := by
  obtain ⟨quest, task, rest, pursues, tasks, own⟩ := fired?_eq_some fires
  exact ⟨⟨_, pursues, rfl⟩, task, rest, tasks, own⟩

/-- What becomes of a temporary breakpoint. -/
inductive Fate where
  /-- An event halts because of it. -/
  | fired
  | set
  | cleared
deriving DecidableEq

/-- What a deed makes of the temporary breakpoint of a context with a number. -/
def fates (id : ContextId) (number : Nat) (a : Scene) (s : Nat) (deed : Deed) : List Fate :=
  match deed with
  | .next => if (a.fired? id s).map (·.2) = some number then [.fired] else []
  | .act (.move (.request (.context other command))) =>
      if other = id ∧ a.world.debugger.isStarted then
        match command with
        | .setTemporary .. => [.set]
        | .clearTemporary => [.cleared]
        | _ => []
      else []
  | _ => []

inductive Spends (id : ContextId) (a : Scene) (s : Nat) (deed : Deed) (before after : Context) : Prop where
  | kept (same : after.given = before.given)
      (lost : deed = .next → ∀ bp number, a.fired? id s = some (bp, number) → ¬ before.Has number)
  | spent (bp : Breakpoint) (fires : a.fired? id s = some (bp, before.temporaryCount)) (next : deed = .next)
      (gone : after.given = (none, before.temporaryCount))
  | set (temporary : Option Breakpoint) (noted : ∀ number, fates id number a s deed = [.set])
      (given : after.given = (temporary, before.temporaryCount + 1))
  | cleared (noted : ∀ number, fates id number a s deed = [.cleared])
      (gone : after.given = (none, before.temporaryCount))

theorem fired?_of_passed {quest : Quest} {task : Task} {rest : List Task}
    (pursues : a.pursuits s = some ⟨quest, .passed (.temporary bp number)⟩) (tasks : a.world.tasks s = task :: rest) :
    a.fired? task.context s = some (bp, number) := by
  rw [fired?, pursues, tasks, List.head?_cons]
  exact if_pos rfl

theorem Step.spends (step : a.Step s deed b) (known : id < a.world.debugger.contexts.size) :
    Spends id a s deed (a.world.debugger.context id) (b.world.debugger.context id) := by
  have searches {pursuit : Pursuit} {task : Task} {rest : List Task} {end' : Quest.Phase ⊕ Outcome} {d : Debugger}
      (pursues : a.pursuits s = some pursuit) (tasks : a.world.tasks s = task :: rest)
      (steps : pursuit.quest.Steps a.world.debugger s task.context pursuit.phase (end', d)) :
      Spends id a s .next (a.world.debugger.context id) (d.context id) := by
    by_cases own : task.context = id
    · subst own
      obtain ⟨found, phase, owned, gone⟩ | ⟨lost, same⟩ := steps.given known
      · cases found with
        | temporary bp number =>
            obtain ⟨-, rfl⟩ := (Context.isOwn_temporary bp).mp owned
            obtain ⟨quest, _⟩ := pursuit
            cases phase
            exact .spent bp (fired?_of_passed pursues tasks) rfl gone
        | listed bp => cases owned
      · refine .kept same fun _ bp number fires has => ?_
        obtain ⟨quest, _, _, pursues', -⟩ := fired?_eq_some fires
        cases pursues.symm.trans pursues'
        have owned := (Context.isOwn_temporary bp).mpr has
        rw [lost _ rfl] at owned
        cases owned
    · refine .kept (congrArg Context.given (steps.touches.others id known (Ne.symm own))) fun _ bp number fires => ?_
      obtain ⟨_, _, _, _, tasks', own'⟩ := fired?_eq_some fires
      cases tasks.symm.trans tasks'
      exact absurd own' own
  have untouched (aside : Aside id a s deed) (kept : ¬ deed.Resets id) :
      (b.world.debugger.context id).given = (a.world.debugger.context id).given :=
    step.keeps known aside (Context.inert_given _) (.inr kept) rfl
  cases step with
  | @act act w quiet apart unsought closed acts =>
      by_cases resets : act.Resets id
      · cases acts with
        | move step =>
            cases step with
            | request request free =>
                cases active : a.world.debugger.isStarted with
                | false =>
                    refine .kept ?_ nofun
                    change ((request.serve s a.world.debugger).context id).given = _
                    rw [request.serve_inactive resets active]
                | true =>
                    obtain ⟨source, target, guard, rfl, given⟩ | ⟨rfl, gone⟩ :=
                      request.given_of_resets resets active known s
                    · exact .set _ (fun number => by simp [fates, active]) given
                    · exact .cleared (fun number => by simp [fates, active]) gone
            | _ => cases resets
        | load | meet | skip | keep => cases resets
      · refine .kept ?_ nofun
        cases acts.involves known with
        | piece is own leads =>
            subst own
            rw [leads]
            exact is.given_of_unsought known (World.search?_of_unsought unsought _)
        | apart unheeded idle keeps called => exact keeps (Context.inert_given _) (.inr resets) rfl
  | begin quiet closed begins =>
      obtain ⟨task, rest, is⟩ := World.pursues_of_pursuit? begins
      refine .kept ?_ nofun
      have touches := is.forwards.touches
      by_cases own : task.context = id
      · subst own
        have count := congrArg (·.2.2.2.2.2.2.2.2) (touches.traits _ known)
        cases is with
        | dispatch tasks stage begins =>
            obtain ⟨marks, -⟩ := Debugger.context_of_pursuit? known begins
            exact Prod.ext (congrArg (·.2.2) marks) count
        | answer => rfl
      · exact congrArg Context.given (touches.others id known (Ne.symm own))
  | next pursues tasks steps | last pursues tasks steps => exact searches pursues tasks (.of_step steps)
  | skip | unskip => exact .kept (untouched nofun not_false) nofun

theorem Spends.count_le {before after : Context} (spends : Spends id a s deed before after) :
    before.temporaryCount ≤ after.temporaryCount := by
  cases spends with
  | kept same | spent _ _ _ same | cleared _ same => exact Nat.le_of_eq (congrArg (·.2) same).symm
  | set _ _ given => exact Nat.le_of_lt (Nat.lt_of_lt_of_eq (Nat.lt_succ_self _) (congrArg (·.2) given).symm)

theorem Course.count_le (course : Course allowed a b) (known : id < a.world.debugger.contexts.size) :
    (a.world.debugger.context id).temporaryCount ≤ (b.world.debugger.context id).temporaryCount := by
  induction course with
  | refl => exact Nat.le_refl _
  | step course next ok ih => exact Nat.le_trans ih (next.spends (course.known known)).count_le

/-! ## Searches that met a temporary breakpoint -/

theorem Chases.apart {bp' : Breakpoint} {number' : Nat} (h : a.Chases s id bp number)
    (other : a.Chases s' id bp' number') (sound : a.Sound first) : s = s' := by
  obtain ⟨⟨_, pursues, -⟩, task, rest, tasks, own⟩ := h
  obtain ⟨⟨_, pursues', -⟩, task', rest', tasks', own'⟩ := other
  by_contra ne
  exact sound.heard.lodged.apart (Ne.symm ne) (World.mem_innermost tasks)
    (Stage.not_isInspecting_of_holds (sound.holds pursues tasks)) (World.mem_innermost tasks')
    (Stage.not_isInspecting_of_holds (sound.holds pursues' tasks')) (own'.trans own.symm)

theorem Step.chases (step : a.Step s' deed b) (chases : b.Chases s id bp number) :
    a.Chases s id bp number ∨
      (a.world.debugger.context id).temporary = some bp ∧ (a.world.debugger.context id).temporaryCount = number := by
  obtain ⟨⟨pursuit, pursues, met⟩, task, rest, tasks, own⟩ := chases
  by_cases here : s = s'
  · subst here
    cases step with
    | act quiet => cases (Option.isNone_iff_eq_none.mp quiet).symm.trans pursues
    | begin quiet closed begins =>
        obtain ⟨_, _, is⟩ := World.pursues_of_pursuit? begins
        rw [pursuits_withPursuit_self] at pursues
        cases pursues
        cases is.unmet.symm.trans met
    | @next before task' rest' phase d pursues' tasks' steps =>
        rw [pursuits_withPursuit_self] at pursues
        cases pursues
        cases tasks'.symm.trans tasks
        have steps := Quest.Steps.of_step steps
        obtain ⟨quest, earlier⟩ := before
        dsimp only at steps met
        have earlier' (same : earlier.found? = phase.found?) : a.Chases s id bp number :=
          ⟨⟨_, pursues', same.trans met⟩, task, rest, tasks', own⟩
        cases steps with
        | undue | other => cases met
        | own moved temporary =>
            cases met
            exact .inr (own ▸ ⟨temporary, rfl⟩)
        | listed => cases met
        | binds | holds => exact .inl (earlier' rfl)
    | last =>
        rw [pursuits_withPursuit_self] at pursues
        cases pursues
    | skip free | unskip free => cases (Option.isNone_iff_eq_none.mp free.1).symm.trans pursues
  · obtain ⟨same, same'⟩ := step.tasks_ne here
    exact .inl ⟨⟨pursuit, same' ▸ pursues, met⟩, task, rest, same ▸ tasks, own⟩

theorem Step.unchased (step : a.Step s .next b) (sound : a.Sound first) (fires : a.fired? id s = some (bp, number))
    {s' : Nat} {bp' : Breakpoint} {number' : Nat} : ¬ b.Chases s' id bp' number' := by
  intro chases
  obtain ⟨quest, task, rest, pursues, tasks, own⟩ := fired?_eq_some fires
  by_cases here : s' = s
  · subst here
    obtain ⟨⟨pursuit, pursues', met⟩, -⟩ := chases
    cases step with
    | next before tasks' steps =>
        cases pursues.symm.trans before
        cases Quest.Steps.of_step steps
    | last =>
        rw [pursuits_withPursuit_self] at pursues'
        cases pursues'
  · obtain ⟨same, same'⟩ := step.tasks_ne here
    obtain ⟨⟨pursuit, pursues', met⟩, task', rest', tasks', own'⟩ := chases
    exact here (Chases.apart ⟨⟨pursuit, same' ▸ pursues', met⟩, task', rest', same ▸ tasks', own'⟩
      (chases_of_fired? fires) sound)

structure Spent (id : ContextId) (bp : Breakpoint) (number : Nat) (fates : List Fate) (a : Scene) : Prop where
  known : id < a.world.debugger.contexts.size
  least : number ≤ (a.world.debugger.context id).temporaryCount
  own : (a.world.debugger.context id).Has number → (a.world.debugger.context id).temporary = some bp
  kept : fates = [] → (a.world.debugger.context id).Has number
  unset : .set ∉ fates → (a.world.debugger.context id).temporaryCount = number
  once : fates.count .fired ≤ 1
  gone : .fired ∈ fates → ¬ (a.world.debugger.context id).Has number ∧ ∀ s hit, ¬ a.Chases s id hit number
  chased : ∀ s hit, a.Chases s id hit number → hit = bp

theorem Spends.same_of_has {before after : Context} (spends : Spends id a s deed before after)
    (least : number ≤ before.temporaryCount) (has : after.Has number) : after.given = before.given := by
  obtain ⟨some, count⟩ := has
  cases spends with
  | kept same => exact same
  | spent _ _ _ same | cleared _ same =>
      rw [show after.temporary = none from congrArg (·.1) same] at some
      cases some
  | set _ _ given =>
      have next : after.temporaryCount = before.temporaryCount + 1 := congrArg (·.2) given
      omega

theorem length_fates_le (id : ContextId) (number : Nat) (a : Scene) (s : Nat) (deed : Deed) :
    (fates id number a s deed).length ≤ 1 := by
  simp only [fates]
  repeat' split
  all_goals simp

theorem mem_fates_fired (member : .fired ∈ fates id number a s deed) :
    deed = .next ∧ ∃ bp, a.fired? id s = some (bp, number) := by
  cases deed with
  | next =>
      simp only [fates] at member
      split at member
      · next fires =>
          obtain ⟨⟨bp, _⟩, is, rfl⟩ := Option.map_eq_some_iff.mp fires
          exact ⟨rfl, bp, is⟩
      · cases member
  | act act =>
      cases act with
      | move move =>
          cases move with
          | request request =>
              cases request with
              | context other command =>
                  simp only [fates] at member
                  split at member
                  · cases command <;> simp at member
                  · cases member
              | debugger => cases member
          | _ => cases member
      | _ => cases member
  | begin | skip | unskip => cases member

theorem Spent.step {fates : List Fate} (h : Spent id bp number fates a) (sound : a.Sound first)
    (step : a.Step s deed b) :
    Spent id bp number (fates ++ a.fates id number s deed) b := by
  have spends := step.spends h.known
  have fresh (member : .fired ∈ a.fates id number s deed) : .fired ∉ fates := by
    obtain ⟨-, hit, fires⟩ := mem_fates_fired member
    exact fun fired => (h.gone fired).2 s hit (chases_of_fired? fires)
  have lost (fired : .fired ∈ fates ++ a.fates id number s deed) : ¬ (b.world.debugger.context id).Has number := by
    intro has
    have had := has.congr (spends.same_of_has h.least has).symm
    rcases List.mem_append.mp fired with fired | member
    · exact (h.gone fired).1 had
    · obtain ⟨rfl, hit, fires⟩ := mem_fates_fired member
      cases spends with
      | kept same lost => exact lost rfl hit number fires had
      | spent _ _ _ gone =>
          obtain ⟨some, -⟩ := has
          rw [show (b.world.debugger.context id).temporary = none from congrArg (·.1) gone] at some
          cases some
      | set _ noted | cleared noted =>
          rw [noted number] at member
          simp at member
  refine ⟨step.known h.known, Nat.le_trans h.least spends.count_le, fun has => ?own, fun nothing => ?kept,
    fun unset => ?unset, ?once, fun fired => ⟨lost fired, fun s' hit chases => ?gone⟩, fun s' hit chases => ?chased⟩
  case own =>
    have same := spends.same_of_has h.least has
    exact (congrArg (·.1) same).trans (h.own (has.congr same.symm))
  case kept =>
    obtain ⟨before, now⟩ := List.append_eq_nil_iff.mp nothing
    have has := h.kept before
    cases spends with
    | kept same => exact has.congr same
    | spent hit fires next =>
        rw [has.2] at fires
        simp [next, Scene.fates, fires] at now
    | set _ noted | cleared noted => cases (noted number).symm.trans now
  case unset =>
    rw [List.mem_append, not_or] at unset
    cases spends with
    | kept same | spent _ _ _ same | cleared _ same => exact (congrArg (·.2) same).trans (h.unset unset.1)
    | set _ noted => exact absurd (noted number ▸ List.mem_cons_self) unset.2
  case once =>
    rw [List.count_append]
    by_cases member : .fired ∈ a.fates id number s deed
    · rw [List.count_eq_zero.mpr (fresh member), Nat.zero_add]
      exact Nat.le_trans List.count_le_length (length_fates_le ..)
    · rw [List.count_eq_zero.mpr member]
      exact h.once
  case gone =>
    rcases List.mem_append.mp fired with fired | member
    · obtain before | ⟨temporary, same⟩ := step.chases chases
      · exact (h.gone fired).2 s' hit before
      · exact (h.gone fired).1 ⟨by rw [temporary]; rfl, same⟩
    · obtain ⟨rfl, _, fires⟩ := mem_fates_fired member
      exact step.unchased sound fires chases
  case chased =>
    obtain before | ⟨temporary, same⟩ := step.chases chases
    · exact h.chased s' hit before
    · exact Option.some.inj (temporary.symm.trans (h.own ⟨by rw [temporary]; rfl, same⟩))

theorem Noted.spent {log : List Fate} (noted : Noted allowed (fates id number) a log b)
    (h : Spent id bp number [] a) (sound : a.Sound first) : Spent id bp number log b := by
  induction noted with
  | refl => exact h
  | step noted next ok ih => exact ih.step (noted.course.sound sound) next

/-! ## The halt -/

theorem Course.paired (course : Course allowed a b) (h : a.world.Paired) : b.world.Paired := by
  induction course with
  | refl => exact h
  | step course next ok ih =>
      cases next with
      | act quiet apart unsought closed acts =>
          have course : World.Course World.Anything _ _ := (World.Course.refl _).step acts trivial
          exact course.paired ih
      | last pursues tasks steps => exact ih.proceed tasks (Quest.Steps.of_step steps).about
      | begin | next | skip | unskip => exact ih.become _

theorem Step.given {source : String} {target : BreakpointTarget} {guard : Option String} {d : Debugger}
    (step : a.Step s (.request (.context id (.setTemporary source target guard))) b)
    (known : id < a.world.debugger.contexts.size)
    (set : a.world.debugger.setTemporary id source target guard = .ok (bp, d)) :
    (b.world.debugger.context id).given = (some bp, (a.world.debugger.context id).temporaryCount + 1) := by
  have resets : (Request.context id (.setTemporary source target guard)).Resets id := rfl
  simp only [Debugger.setTemporary, Debugger.command, Debugger.inspect] at set
  split at set
  · next active =>
      cases set
      cases step with
      | act quiet apart unsought closed acts =>
          cases acts with
          | move step =>
              cases step with
              | request request free =>
                  obtain ⟨_, _, _, same, given⟩ | ⟨same, -⟩ := Request.given_of_resets resets active known s
                  · cases same
                    exact given
                  · cases same
  · cases set

open World (unstarted lineOf)

def pastFirst : Scene := started.afterwards (bySystem 0 (Deed.ofEvent (lineOf 1) 3 ++ [.act (.move .release)]))

def awaiting (line : Nat) : Scene :=
  pastFirst.afterwards [(0, .request (.context 0 (.setTemporary "a.rb" (.line line) none)))]

def toMeeting : List (Nat × Deed) := bySystem 0 (Deed.ofEvent (lineOf 2) 4)

def meeting : Scene := (awaiting 2).afterwards toMeeting

def spent : Scene := meeting.afterwards [(0, .next)]

/-- The temporary breakpoint is cleared by another thread when the first one is about to halt because of it. -/
def cleared : Scene := meeting.afterwards [(1, .request (.context 0 .clearTemporary))]

end Scene

end EventDebugger
