import EventDebugger.Proofs.Handling
import EventDebugger.Proofs.Ticket.System

/-!
# Handling an event is a run

What `handleEvent` and `continueEvent` compute is what the steps of one system thread lead to, when no
other system thread takes a step in between. The front-end may be any one that changes the debugger by
requests.

* `handleEvent_run`: an event from its arrival to its end, or to a wait.
* `continueEvent_run`: an event from the end of a wait on.
-/

namespace EventDebugger

variable {σ ε : Type} {kind : Move → Prop}

def FrontEnd.OnlyRequests (front : FrontEnd σ ε) (kind : Move → Prop) : Prop :=
  ∀ system callback d state, ∃ requests : List Request, (∀ request ∈ requests, kind (.request request)) ∧
    (front system callback (d, state)).2.1 =
      requests.foldl (fun d request => request.serve system d) d

def Move.isOwn : Move → Bool
  | .ask | .awake | .dispatch | .answer | .fail | .release => true
  | _ => false

namespace World

def OwnRun (kind : Move → Prop) (s : Nat) (w w' : World) : Prop :=
  ∃ got, Run (fun _ s' move => s' = s ∧ kind move) w got w'

variable {s : Nat} {w w' w'' : World}

theorem OwnRun.refl (kind : Move → Prop) (s : Nat) (w : World) : OwnRun kind s w w := ⟨[], .refl w⟩

theorem OwnRun.step {move : Move} (run : OwnRun kind s w w') (next : w'.Step s move w'')
    (is : kind move) : OwnRun kind s w w'' :=
  run.elim fun _ run => ⟨_, run.step next ⟨rfl, is⟩⟩

theorem OwnRun.single {move : Move} (next : w.Step s move w') (is : kind move) : OwnRun kind s w w' :=
  (refl kind s w).step next is

theorem OwnRun.trans (first : OwnRun kind s w w') (second : OwnRun kind s w' w'') :
    OwnRun kind s w w'' := by
  obtain ⟨_, second⟩ := second
  induction second with
  | refl => exact first
  | step run next is ih =>
      obtain ⟨rfl, is⟩ := is
      exact ih.step next is

theorem run_requests (free : w.IsFree s) (requests : List Request)
    (are : ∀ request ∈ requests, kind (.request request)) :
    ∃ w', OwnRun kind s w w' ∧ w'.tasks = w.tasks ∧
      w'.debugger = requests.foldl (fun d request => request.serve s d) w.debugger := by
  induction requests generalizing w with
  | nil => exact ⟨w, .refl kind s w, rfl, rfl⟩
  | cons request requests ih =>
      obtain ⟨is, are⟩ := List.forall_mem_cons.mp are
      obtain ⟨w', run, tasks, same⟩ := ih (w := w.become (request.serve s w.debugger)) free are
      exact ⟨w', (OwnRun.single (.request request free) is).trans run, tasks, same⟩

theorem run_front {front : FrontEnd σ ε} (only : front.OnlyRequests kind) (free : w.IsFree s)
    (callback : Callback) (state : σ) :
    ∃ w', OwnRun kind s w w' ∧ w'.tasks = w.tasks ∧
      w'.debugger = (front s callback (w.debugger, state)).2.1 := by
  obtain ⟨requests, are, served⟩ := only s callback w.debugger state
  obtain ⟨w', run, tasks, same⟩ := run_requests free requests are
  exact ⟨w', run, tasks, same.trans served.symm⟩

variable (own : ∀ {move : Move}, move.isOwn → kind move)

include own

theorem run_drive {front : FrontEnd σ ε} (only : front.OnlyRequests kind) (n : Nat) (outcome : Outcome)
    (enough : outcome.rank ≤ n) {task : Task} {rest : List Task} (tasks : w.tasks s = task :: rest)
    (stage : task.stage = outcome.stage) (state : σ) :
    ∃ w' task', OwnRun kind s w w' ∧ w'.tasks = Function.update w.tasks s (task' :: rest) ∧
      task'.stage = .handled ∧
      w'.debugger = (outcome.drive front s task.context n (w.debugger, state)).2.1 := by
  induction n generalizing w outcome task state with
  | zero =>
      cases outcome with
      | done =>
          refine ⟨w, task, .refl kind s w, ?_, stage, rfl⟩
          rw [← tasks, Function.update_eq_self]
      | call callback next => cases next <;> cases enough
  | succ n ih =>
      cases outcome with
      | done =>
          refine ⟨w, task, .refl kind s w, ?_, stage, rfl⟩
          rw [← tasks, Function.update_eq_self]
      | call callback next =>
          have free : w.IsFree s := by
            intro head isHead
            rw [tasks] at isHead
            cases isHead
            rw [stage]
            rfl
          obtain ⟨w₁, asked, sameTasks, same⟩ := run_front only free callback state
          have tasks₁ : w₁.tasks s = task :: rest := (congrFun sameTasks s).trans tasks
          rw [drive_call]
          rcases answer : front s callback (w.debugger, state) with ⟨result, d, state'⟩
          rw [answer] at same
          obtain rfl : w₁.debugger = d := same
          cases result with
          | error error =>
              refine ⟨_, { task with stage := .handled }, asked.step (.fail tasks₁ stage) (own rfl), ?_, rfl,
                rfl⟩
              simp only [proceed, set, become, sameTasks]
              rfl
          | ok =>
              have answered := Step.answer tasks₁ stage
              obtain ⟨w₂, task₂, run, tasks₂, handled, same₂⟩ := ih
                (w := w₁.proceed s task rest (next.run w₁.debugger s task.context))
                (next.run w₁.debugger s task.context).1
                (Nat.le_of_lt_succ (Nat.lt_of_lt_of_le (next.rank_run_lt _ _ _) enough))
                (Function.update_self ..) rfl state'
              refine ⟨w₂, task₂, (asked.step answered (own rfl)).trans run, ?_, handled, same₂⟩
              rw [tasks₂]
              simp only [proceed, set, become, sameTasks, Function.update_idem]

omit own in
def Remains (s : Nat) (rest : List Task) (own : List Task) : Progress ε → Prop
  | .finished _ => own = rest
  | .waiting pending => ∃ task, own = task :: rest ∧
      task.stage = .waiting pending.event pending.waiting pending.since ∧
      pending = ⟨s, task.thread, task.context, pending.event, pending.waiting, pending.since⟩

theorem run_handleWithTicket {front : FrontEnd σ ε} (only : front.OnlyRequests kind) {task : Task}
    {rest : List Task} {event : Event} (tasks : w.tasks s = task :: rest)
    (stage : task.stage = .admitted event) (state : σ) :
    ∃ w', OwnRun kind s w w' ∧ w'.tasks = Function.update w.tasks s rest ∧
      w'.debugger = (handleWithTicket front s task.context event (w.debugger, state)).2.1 := by
  obtain ⟨w', task', run, tasks', handled, same⟩ := run_drive own only (s := s)
    (w := w.proceed s task rest (w.debugger.dispatch s task.context event))
    (w.debugger.dispatch s task.context event).1.rank (w.debugger.dispatch s task.context event).1
    (Nat.le_refl _) (Function.update_self ..) rfl state
  have tasks'' : w'.tasks s = task' :: rest := by rw [tasks', Function.update_self]
  have dispatched := OwnRun.single (.dispatch tasks stage) (own rfl)
  refine ⟨_, (dispatched.trans run).step (.release tasks'' handled) (own rfl), ?_, ?_⟩
  · simp only [set, become, tasks', proceed, Function.update_idem]
  · exact congrArg Debugger.release same

theorem run_contendAndHandle {front : FrontEnd σ ε} (only : front.OnlyRequests kind) {task : Task}
    {rest : List Task} {event : Event} {granted : Bool} {move : Move}
    (step : w.Step s move (w.contend s task rest event granted)) (isOwn : move.isOwn) (state : σ) :
    ∃ w' left, OwnRun kind s w w' ∧ w'.tasks = Function.update w.tasks s left ∧
      Remains s rest left
        (contendAndHandle front s task.thread task.context event granted (w.debugger, state)).1 ∧
      w'.debugger =
        (contendAndHandle front s task.thread task.context event granted (w.debugger, state)).2.1 := by
  have first := OwnRun.single step (own isOwn)
  rw [contendAndHandle_eq]
  simp only [World.contend] at first
  rcases contended : w.debugger.contend task.thread task.context granted with ⟨turn, d⟩
  rw [contended] at first
  cases turn with
  | ticket =>
      obtain ⟨w', run, tasks', same⟩ := run_handleWithTicket own only (s := s)
        (w := (w.become d).set s
          ({ task with stage := .admitted event, activation := w.activation } :: rest))
        (Function.update_self ..) rfl state
      refine ⟨w', rest, first.trans run, ?_, rfl, same⟩
      rw [tasks']
      simp only [set, become, Function.update_idem]
  | dropped => exact ⟨_, rest, first, rfl, rfl, rfl⟩
  | wait reason => exact ⟨_, _, first, rfl, ⟨_, rfl, rfl, rfl⟩, rfl⟩

theorem handleEvent_run {front : FrontEnd σ ε} (only : front.OnlyRequests kind) (event : Event)
    (state : σ) :
    ∃ w' left, OwnRun kind s (w.arrive s event) w' ∧ w'.tasks = Function.update w.tasks s left ∧
      Remains s (w.tasks s) left (handleEvent front s event (w.debugger, state)).1 ∧
      w'.debugger = (handleEvent front s event (w.debugger, state)).2.1 := by
  rw [handleEvent_eq]
  simp only [World.arrive]
  rcases arrived : w.debugger.arrive s event with ⟨_ | ⟨thread, id⟩, d⟩
  · exact ⟨_, w.tasks s, .refl kind s _, (Function.update_eq_self s w.tasks).symm, rfl, rfl⟩
  · obtain ⟨w', left, run, tasks', remains, same⟩ := run_contendAndHandle own only
      (Step.ask (w := (w.become d).set s (⟨thread, id, .asking event, decide (w.holder = some thread),
        w.activation, some event⟩ :: w.tasks s)) (Function.update_self ..) rfl) rfl state
    refine ⟨w', left, run, ?_, remains, same⟩
    rw [tasks']
    simp only [set, become, Function.update_idem]

theorem continueEvent_run {front : FrontEnd σ ε} (only : front.OnlyRequests kind) {task : Task}
    {rest : List Task} {event : Event} {reason : Waiting} {since : Nat}
    (tasks : w.tasks s = task :: rest) (stage : task.stage = .waiting event reason since) (state : σ) :
    let pending : PendingEvent := ⟨s, task.thread, task.context, event, reason, since⟩
    ∃ w' left, OwnRun kind s w w' ∧ w'.tasks = Function.update w.tasks s left ∧
      Remains s rest left (continueEvent front pending (w.debugger, state)).1 ∧
      w'.debugger = (continueEvent front pending (w.debugger, state)).2.1 := by
  intro pending
  rw [continueEvent_eq]
  split
  · next awake => exact run_contendAndHandle own only (.awake tasks stage awake) rfl state
  · refine ⟨w, task :: rest, .refl kind s w, ?_, ⟨task, rfl, stage, rfl⟩, rfl⟩
    rw [← tasks, Function.update_eq_self]

end World

end EventDebugger
