import EventDebugger.Proofs.Renewal.Requests
import EventDebugger.Proofs.Ticket.Courses
import Mathlib.Data.List.Forall2

/-!
# Runs up to numbering

A debugger can take a step if and only if the one that it renames can, and then still renames it. The same
steps, taken one after another, therefore make the same calls of the front-end.

* `World.Renames.perform?`: a step.
* `World.Renames.hear?`: the calls of a run.
-/

namespace EventDebugger

namespace Renaming

variable (ρ : Renaming)

def stage : Stage → Stage
  | .asking event => .asking event
  | .waiting event reason since => .waiting event reason (since + ρ.wakeups)
  | .admitted event => .admitted event
  | .called callback next => .called (ρ.callback callback) next
  | .handled => .handled
  | .inspecting before => .inspecting (ρ.before before)

def act : Act → Act
  | .move (.request request) => .move (.request (ρ.request request))
  | .skip id on => .skip (ρ.address id) on
  | act => act

def step (step : Nat × Act) : Nat × Act := (step.1, ρ.act step.2)

theorem stage_outcome (outcome : Outcome) : (ρ.outcome outcome).stage = ρ.stage outcome.stage := by
  cases outcome <;> rfl

theorem inFront_stage (stage : Stage) : (ρ.stage stage).inFront = stage.inFront := by cases stage <;> rfl

theorem callback?_stage (stage : Stage) : (ρ.stage stage).callback? = stage.callback?.map ρ.callback := by
  cases stage <;> rfl

end Renaming

def Act.arrives : Act → Bool
  | .move (.arrive _) => true
  | _ => false

/-- Whether a call of the front-end for an event can begin with a step. -/
def Act.dispatches : Act → Bool
  | .move step => step.isDispatch
  | _ => false

theorem Renaming.arrives_act (ρ : Renaming) (act : Act) : (ρ.act act).arrives = act.arrives := by
  cases act with
  | move move => cases move <;> rfl
  | _ => rfl

theorem Renaming.dispatches_act (ρ : Renaming) (act : Act) : (ρ.act act).dispatches = act.dispatches := by
  cases act with
  | move move => cases move <;> rfl
  | _ => rfl

structure Task.Renames (ρ : Renaming) (x y : Task) : Prop where
  thread : y.thread = x.thread
  context : y.context = ρ.address x.context
  stage : y.stage = ρ.stage x.stage

namespace World

variable {ρ : Renaming} {w w' : World} {s : Nat} {act : Act}

structure Renames (ρ : Renaming) (w w' : World) : Prop where
  debugger : EventDebugger.Renames ρ w.debugger w'.debugger
  tasks : ∀ s, List.Forall₂ (Task.Renames ρ) (w.tasks s) (w'.tasks s)

/-- Events arrive from threads that did not exit: those that did can keep their contexts for longer in one
debugger than in another. -/
def Living (w : World) (s : Nat) (act : Act) : Prop :=
  act.arrives → ∀ thread ∈ w.debugger.host.boundTo? s, w.debugger.host.isAlive thread

instance (w : World) (s : Nat) (act : Act) : Decidable (Living w s act) :=
  inferInstanceAs (Decidable (act.arrives → ∀ thread ∈ w.debugger.host.boundTo? s, w.debugger.host.isAlive thread))

def calls (s : Nat) (act : Act) (after : World) : List Callback :=
  if act.dispatches then ((after.tasks s).head?.bind (·.stage.callback?)).toList else []

/-- The calls of the front-end that begin in the course of steps, if these can be taken. -/
def hear? (allowed : World → Nat → Act → Prop) [∀ w s act, Decidable (allowed w s act)] (w : World) :
    List (Nat × Act) → Option (List Callback)
  | [] => some []
  | (s, act) :: steps =>
      if allowed w s act then
        (w.perform? s act).bind fun after => (after.hear? allowed steps).map (calls s act after ++ ·)
      else none

namespace Renames

/-! ## Tasks -/

theorem become (h : w.Renames ρ w') {d d' : Debugger} (renames : EventDebugger.Renames ρ d d') :
    (w.become d).Renames ρ (w'.become d') := ⟨renames, h.tasks⟩

theorem set (h : w.Renames ρ w') (s : Nat) {own own' : List Task} (alike : List.Forall₂ (Task.Renames ρ) own own') :
    (w.set s own).Renames ρ (w'.set s own') := by
  refine ⟨h.debugger, fun s' => ?_⟩
  by_cases same : s' = s
  · subst same
    rw [tasks_set_self, tasks_set_self]
    exact alike
  · rw [tasks_set_ne _ same, tasks_set_ne _ same]
    exact h.tasks s'

theorem tasks_cases (h : w.Renames ρ w') (s : Nat) : (w.tasks s = [] ∧ w'.tasks s = []) ∨
    ∃ task rest task' rest', w.tasks s = task :: rest ∧ w'.tasks s = task' :: rest' ∧ task.Renames ρ task' ∧
      List.Forall₂ (Task.Renames ρ) rest rest' := by
  have alike := h.tasks s
  generalize w.tasks s = own at alike
  generalize w'.tasks s = own' at alike
  cases alike with
  | nil => exact .inl ⟨rfl, rfl⟩
  | cons same outer => exact .inr ⟨_, _, _, _, rfl, rfl, same, outer⟩

theorem isFree (h : w.Renames ρ w') (s : Nat) : w'.IsFree s ↔ w.IsFree s := by
  rcases h.tasks_cases s with ⟨idle, idle'⟩ | ⟨task, rest, task', rest', tasks, tasks', same, -⟩
  · simp only [IsFree, idle, idle']
  · simp only [IsFree, tasks, tasks', List.head?_cons, Option.mem_some, forall_eq', same.stage, ρ.inFront_stage]

theorem calls_eq (h : w.Renames ρ w') (s : Nat) (act : Act) :
    calls s (ρ.act act) w' = (calls s act w).map ρ.callback := by
  rw [calls, calls, ρ.dispatches_act]
  split
  · rcases h.tasks_cases s with ⟨idle, idle'⟩ | ⟨task, rest, task', rest', tasks, tasks', same, -⟩
    · rw [idle, idle']
      rfl
    · simp only [tasks, tasks', List.head?_cons, Option.bind_some, same.stage, ρ.callback?_stage]
      cases task.stage.callback? <;> rfl
  · rfl

/-! ## Steps -/

theorem arrive (h : w.Renames ρ w') (own : w.debugger.host.OwnThreads) {s : Nat}
    (heeded : ∀ thread ∈ w.debugger.host.boundTo? s, ρ.heeds w.debugger.host thread) (event : Event) :
    (w.arrive s event).Renames ρ (w'.arrive s event) := by
  obtain ⟨arrived, renames⟩ := h.debugger.arrive (fun _ bound => own.registered bound) heeded event
  simp only [World.arrive]
  generalize w.debugger.arrive s event = x at arrived renames ⊢
  generalize w'.debugger.arrive s event = y at arrived renames ⊢
  obtain ⟨found, d⟩ := x
  obtain ⟨found', d'⟩ := y
  subst arrived
  cases found with
  | none => exact h.become renames
  | some entry => exact (h.become renames).set s (.cons ⟨rfl, rfl, rfl⟩ (h.tasks s))

variable {task task' : Task} {rest rest' : List Task}

theorem contend (h : w.Renames ρ w') (same : task.Renames ρ task')
    (outer : List.Forall₂ (Task.Renames ρ) rest rest') (event : Event) (granted : Bool) :
    (w.contend s task rest event granted).Renames ρ (w'.contend s task' rest' event granted) := by
  obtain ⟨turn, renames⟩ := h.debugger.contend task.thread task.context granted
  simp only [World.contend, same.thread, same.context]
  generalize w.debugger.contend task.thread task.context granted = x at turn renames ⊢
  generalize w'.debugger.contend task.thread (ρ.address task.context) granted = y at turn renames ⊢
  obtain ⟨got, d⟩ := x
  obtain ⟨got', d'⟩ := y
  subst turn
  cases got' with
  | ticket => exact (h.become renames).set s (.cons ⟨rfl, rfl, rfl⟩ outer)
  | dropped => exact (h.become renames).set s outer
  | wait reason =>
      refine (h.become renames).set s (.cons ⟨rfl, rfl, ?_⟩ outer)
      exact congrArg (Stage.waiting event reason) renames.wakeups

theorem proceed (h : w.Renames ρ w') (same : task.Renames ρ task')
    (outer : List.Forall₂ (Task.Renames ρ) rest rest') {piece piece' : Outcome × Debugger}
    (pieces : EventDebugger.Renames.Pieces ρ piece piece') :
    (w.proceed s task rest piece).Renames ρ (w'.proceed s task' rest' piece') := by
  refine (h.become pieces.renames).set s (.cons ⟨same.thread, same.context, ?_⟩ outer)
  rw [pieces.outcome]
  exact ρ.stage_outcome piece.1

theorem inspect (h : w.Renames ρ w') (s : Nat) : (w.inspect s).Renames ρ (w'.inspect s) := by
  obtain ⟨agrees, renames⟩ := h.debugger.enterPostMortem s
  have thread := (h.debugger.currentThread s).1
  simp only [World.inspect, thread]
  generalize w.debugger.enterPostMortem s = x at agrees renames ⊢
  generalize w'.debugger.enterPostMortem s = y at agrees renames ⊢
  obtain ⟨entered, d⟩ := x
  obtain ⟨entered', d'⟩ := y
  cases agrees with
  | error error => exact h.become renames
  | ok before =>
      subst before
      exact (h.become renames).set s (.cons ⟨rfl, rfl, rfl⟩ (h.tasks s))

theorem onHost (h : w.Renames ρ w') {f : Host → Host} (continues : w.debugger.host.Continues (f w.debugger.host)) :
    (w.become { w.debugger with host := f w.debugger.host }).Renames ρ
      (w'.become { w'.debugger with host := f w'.debugger.host }) := by
  rw [h.debugger.host]
  exact h.become (h.debugger.onHost continues)

theorem guarded {p p' : Prop} [Decidable p] [Decidable p'] (iff : p' ↔ p) {after after' : World}
    (related : p → after.Renames ρ after') :
    Option.Rel (Renames ρ) (if p then some after else none) (if p' then some after' else none) := by
  by_cases holds : p
  · rw [if_pos holds, if_pos (iff.mpr holds)]
    exact .some (related holds)
  · rw [if_neg holds, if_neg (mt iff.mp holds)]
    exact .none

theorem perform?_innermost (h : w.Renames ρ w') (lodged : w.Lodged) {move : Move}
    (inner : move ∈ [Move.ask, .awake, .dispatch, .answer, .fail, .release, .leavePostMortem]) :
    Option.Rel (Renames ρ) (w.perform? s (.move move)) (w'.perform? s (.move move)) := by
  simp only [List.mem_cons, List.not_mem_nil, or_false] at inner
  rcases h.tasks_cases s with ⟨idle, idle'⟩ | ⟨task, rest, task', rest', tasks, tasks', same, outer⟩
  · rcases inner with rfl | rfl | rfl | rfl | rfl | rfl | rfl
    all_goals
      simp only [World.perform?, idle, idle']
      exact .none
  · have known (event : task.stage.isInspecting = false) := (lodged.home s task (mem_innermost tasks) event).1
    rcases inner with rfl | rfl | rfl | rfl | rfl | rfl | rfl
    all_goals
      simp only [World.perform?, tasks, tasks', same.stage]
    · cases stage : task.stage with
      | asking event => exact .some (h.contend same outer event false)
      | _ => exact .none
    · cases stage : task.stage with
      | waiting event reason since =>
          have awake := h.debugger.isAwake_eq s task.thread task.context event reason since
          rw [← same.thread, ← same.context] at awake
          refine guarded (by rw [same.thread] at awake ⊢; rw [awake]) fun _ => h.contend same outer event _
      | _ => exact .none
    · cases stage : task.stage with
      | admitted event =>
          have pieces := h.debugger.dispatch (known (by rw [stage]; rfl)) s event
          rw [← same.context] at pieces
          exact .some (h.proceed same outer pieces)
      | _ => exact .none
    · cases stage : task.stage with
      | called callback next =>
          have pieces := h.debugger.run (known (by rw [stage]; rfl)) s next
          rw [← same.context] at pieces
          exact .some (h.proceed same outer pieces)
      | _ => exact .none
    · cases stage : task.stage with
      | called callback next => exact .some (h.proceed same outer h.debugger.done)
      | _ => exact .none
    · cases stage : task.stage with
      | handled => exact .some ((h.become h.debugger.release).set s outer)
      | _ => exact .none
    · cases stage : task.stage with
      | inspecting before => exact .some ((h.become (h.debugger.leavePostMortem s before)).set s outer)
      | _ => exact .none

theorem perform?_begin (h : w.Renames ρ w') (thread : Thread) :
    Option.Rel (Renames ρ) (w.perform? s (.move (.begin thread))) (w'.perform? s (.move (.begin thread))) := by
  rcases h.tasks_cases s with ⟨idle, idle'⟩ | ⟨task, rest, task', rest', tasks, tasks', -, -⟩
  · simp only [World.perform?, idle, idle']
    refine guarded (by rw [h.debugger.host]) fun _ => ?_
    exact h.onHost (f := fun host => host.bind s thread) (Host.continues_bind ..)
  · simp only [World.perform?, tasks, tasks']
    exact .none

theorem perform?_exit (h : w.Renames ρ w') :
    Option.Rel (Renames ρ) (w.perform? s (.move .exit)) (w'.perform? s (.move .exit)) := by
  rcases h.tasks_cases s with ⟨idle, idle'⟩ | ⟨task, rest, task', rest', tasks, tasks', -, -⟩
  · simp only [World.perform?, idle, idle', h.debugger.host]
    cases w.debugger.host.boundTo? s with
    | none => exact .none
    | some thread => exact .some (h.become (h.debugger.onHost (Host.continues_exitThread _ thread)))
  · simp only [World.perform?, tasks, tasks']
    exact .none

theorem perform? (h : w.Renames ρ w') (lodged : w.Lodged)
    (heeded : act.arrives → ∀ thread ∈ w.debugger.host.boundTo? s, ρ.heeds w.debugger.host thread) :
    Option.Rel (Renames ρ) (w.perform? s act) (w'.perform? s (ρ.act act)) := by
  have free := h.isFree s
  cases act with
  | move move =>
      cases move with
      | ask | awake | dispatch | answer | fail | release | leavePostMortem =>
          exact h.perform?_innermost lodged (by decide)
      | arrive event => exact guarded free fun _ => h.arrive lodged.own (heeded rfl) event
      | request request => exact guarded free fun _ => h.become (h.debugger.serve request s)
      | enterPostMortem => exact guarded free fun _ => h.inspect s
      | execute host =>
          refine guarded (by rw [h.debugger.host, free]) fun guard => ?_
          exact h.become (h.debugger.onHost guard.2.continues)
      | register name =>
          refine guarded free fun _ => ?_
          exact h.onHost (f := fun host => (host.register name).2) (Host.continues_register _ name)
      | begin thread => exact h.perform?_begin thread
      | exit => exact h.perform?_exit
  | load stop => exact guarded free fun _ => h.become (h.debugger.prepareLoad s stop)
  | meet => exact guarded free fun _ => h.become (h.debugger.currentContext s).2
  | skip id on =>
      refine guarded free fun _ => h.become (h.debugger.updateContext id (f := ({ · with skipped := on })) ?_)
      exact ⟨fun _ _ => rfl, fun _ => rfl, fun _ => rfl⟩
  | keep on => exact guarded free fun _ => h.become (h.debugger.onSettings ({ · with postMortem := on }))

/-! ## Runs -/

theorem living (h : w.Renames ρ w') (s : Nat) (act : Act) : Living w' s (ρ.act act) ↔ Living w s act := by
  rw [Living, Living, ρ.arrives_act, h.debugger.host]

theorem hear? (h : w.Renames ρ w') (lodged : w.Lodged) (steps : List (Nat × Act)) :
    w'.hear? Living (steps.map ρ.step) = (w.hear? Living steps).map (List.map ρ.callback) := by
  induction steps generalizing w w' with
  | nil => rfl
  | cons step steps ih =>
      obtain ⟨s, act⟩ := step
      simp only [List.map_cons, Renaming.step, World.hear?]
      by_cases living : Living w s act
      · have performed := h.perform? lodged fun arrives thread bound =>
          ρ.heeds_of_isAlive (living arrives thread bound)
        have lodged' {after : World} (after' : w.perform? s act = some after) : after.Lodged :=
          lodged.acts (acts_of_perform? after')
        rw [if_pos living, if_pos ((h.living s act).mpr living)]
        generalize w.perform? s act = x at performed lodged' ⊢
        generalize w'.perform? s (ρ.act act) = y at performed ⊢
        cases performed with
        | none => rfl
        | some alike =>
            simp only [Option.bind_some, ih alike (lodged' rfl), alike.calls_eq, Option.map_map]
            refine congrArg (Option.map · _) (funext fun calls => ?_)
            simp only [Function.comp_apply, List.map_append]
      · rw [if_neg living, if_neg (mt (h.living s act).mp living)]
        rfl

end Renames

end World

end EventDebugger
