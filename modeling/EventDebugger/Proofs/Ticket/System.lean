import EventDebugger.Proofs.Ticket.Untouched
import Mathlib.Logic.Function.Basic

/-!
# Interleaved threads

Threads that notify events, each on a system thread of its own, as a transition system. A step of it is
one operation of the debugger: an event arrives, asks for the ticket, goes on after a wait, is
dispatched up to the next call of the front-end, gives the ticket back. Between two steps of a thread
any number of steps of others can happen.

While the front-end is called on a system thread, further events may be notified and requests made
there. The events of a system thread that are on their way therefore form a stack of tasks.
-/

namespace EventDebugger

/-- How far a task got. -/
inductive Stage where
  /-- The event has arrived and asks for the ticket. -/
  | asking (event : Event)
  /-- The thread waits with the event, since a number of wake-ups. -/
  | waiting (event : Event) (reason : Waiting) (since : Nat)
  /-- The thread got the ticket for the event. -/
  | admitted (event : Event)
  /-- The front-end is called. -/
  | called (callback : Callback) (next : Continuation)
  /-- The event is done, but the ticket is not yet given back. -/
  | handled
  /-- The front-end is called on a post-mortem, which needs no ticket. -/
  | inspecting (before : ContextId × Bool × Bool)
deriving DecidableEq, Repr

namespace Stage

/-- Whether the task is between getting the ticket and giving it back. -/
def holds : Stage → Bool
  | .admitted _ | .called _ _ | .handled => true
  | _ => false

def inFront : Stage → Bool
  | .called _ _ | .inspecting _ => true
  | _ => false

def isQueued : Stage → Bool
  | .waiting _ .queued _ => true
  | _ => false

def isOutside : Stage → Bool
  | .asking _ | .waiting _ _ _ => true
  | _ => false

def isWaiting : Stage → Bool
  | .waiting _ _ _ => true
  | _ => false

end Stage

def Outcome.stage : Outcome → Stage
  | .done => .handled
  | .call callback next => .called callback next

/-- An event of a thread on its way, or a post-mortem of it. -/
structure Task where
  thread : Thread
  context : ContextId
  stage : Stage
  /-- Whether the thread held the ticket when the event arrived. -/
  reentrant : Bool
  /-- The activation in which the event got the ticket, and before that the one in which it arrived. -/
  activation : Nat
  /-- The event; a post-mortem has none. -/
  event : Option Event
deriving DecidableEq, Repr

/-- The debugger and the tasks of each system thread, the innermost one first. -/
structure World where
  debugger : Debugger
  tasks : Nat → List Task
  /-- The number of activations. -/
  activation : Nat

namespace World

variable (w : World)

def holder : Option Thread := w.debugger.ticket.bind (·.1)

def queue : List Thread := w.debugger.ticket.elim [] (·.2)

def set (system : Nat) (tasks : List Task) : World :=
  { w with tasks := Function.update w.tasks system tasks }

def become (d : Debugger) : World :=
  { w with
    debugger := d
    activation := if w.debugger.session.isNone && d.session.isSome then w.activation + 1 else w.activation }

/-- Whether a system thread can notify an event or make a request: it runs code of the program, or the
front-end. -/
def IsFree (system : Nat) : Prop := ∀ task ∈ (w.tasks system).head?, task.stage.inFront

/-! ## Operations -/

def arrive (system : Nat) (event : Event) : World :=
  match w.debugger.arrive system event with
  | (none, d) => w.become d
  | (some (thread, id), d) =>
      let task : Task :=
        ⟨thread, id, .asking event, decide (w.holder = some thread), w.activation, some event⟩
      (w.become d).set system (task :: w.tasks system)

def contend (system : Nat) (task : Task) (rest : List Task) (event : Event) (granted : Bool) : World :=
  match w.debugger.contend task.thread task.context granted with
  | (.ticket, d) =>
      (w.become d).set system
        ({ task with stage := .admitted event, activation := w.activation } :: rest)
  | (.dropped, d) => (w.become d).set system rest
  | (.wait reason, d) =>
      (w.become d).set system ({ task with stage := .waiting event reason d.wakeups } :: rest)

def proceed (system : Nat) (task : Task) (rest : List Task) (piece : Outcome × Debugger) : World :=
  (w.become piece.2).set system ({ task with stage := piece.1.stage } :: rest)

def inspect (system : Nat) : World :=
  match w.debugger.enterPostMortem system with
  | (.error _, d) => w.become d
  | (.ok before, d) =>
      let thread := (w.debugger.currentThread system).1
      (w.become d).set system
        (⟨thread, before.1, .inspecting before, false, w.activation, none⟩ :: w.tasks system)

section

variable {w} {s : Nat} {task outer : Task} {rest : List Task} (tasks : w.tasks s = task :: rest)

include tasks

theorem mem_innermost : task ∈ w.tasks s := tasks ▸ List.mem_cons_self

theorem mem_outer (member : outer ∈ rest) : outer ∈ w.tasks s := tasks ▸ List.mem_cons_of_mem task member

theorem head_innermost : task ∈ (w.tasks s).head? := tasks ▸ rfl

end

theorem debugger_arrive (system : Nat) (event : Event) :
    (w.arrive system event).debugger = (w.debugger.arrive system event).2 := by
  simp only [arrive]
  split <;> next arrived => rw [arrived]; rfl

theorem debugger_contend (system : Nat) (task : Task) (rest : List Task) (event : Event)
    (granted : Bool) : (w.contend system task rest event granted).debugger =
      (w.debugger.contend task.thread task.context granted).2 := by
  simp only [contend]
  split <;> next contended => rw [contended]; rfl

theorem debugger_inspect (system : Nat) :
    (w.inspect system).debugger = (w.debugger.enterPostMortem system).2 := by
  simp only [inspect]
  split <;> next entered => rw [entered]; rfl

theorem tasks_set_self (s : Nat) (tasks : List Task) : (w.set s tasks).tasks s = tasks :=
  Function.update_self ..

theorem tasks_set_ne {s s' : Nat} (ne : s' ≠ s) (tasks : List Task) :
    (w.set s tasks).tasks s' = w.tasks s' := by
  simp only [set, Function.update_of_ne ne]

theorem forall_tasks_set {P : Nat → Task → Prop} {s : Nat} {own : List Task}
    (others : ∀ s', ∀ task ∈ w.tasks s', P s' task) (new : ∀ task ∈ own, P s task) :
    ∀ s', ∀ task ∈ (w.set s own).tasks s', P s' task := by
  intro s' task member
  by_cases same : s' = s
  · subst same
    rw [tasks_set_self] at member
    exact new task member
  · rw [w.tasks_set_ne same] at member
    exact others s' task member

theorem tasks_arrive_ne {s s' : Nat} (ne : s' ≠ s) (event : Event) :
    (w.arrive s event).tasks s' = w.tasks s' := by
  simp only [arrive]
  split
  · rfl
  · exact tasks_set_ne _ ne _

theorem tasks_contend_ne {s s' : Nat} (ne : s' ≠ s) (task : Task) (rest : List Task)
    (event : Event) (granted : Bool) :
    (w.contend s task rest event granted).tasks s' = w.tasks s' := by
  simp only [contend]
  split <;> exact tasks_set_ne _ ne _

theorem tasks_inspect_ne {s s' : Nat} (ne : s' ≠ s) :
    (w.inspect s).tasks s' = w.tasks s' := by
  simp only [inspect]
  split
  · rfl
  · exact tasks_set_ne _ ne _

end World

/-- What a thread does in a step. -/
inductive Move where
  | arrive (event : Event)
  | ask
  | awake
  | dispatch
  /-- The front-end returns. -/
  | answer
  /-- The front-end fails. -/
  | fail
  | release
  | request (request : Request)
  | enterPostMortem
  | leavePostMortem
  /-- The program runs without notifying an event. -/
  | execute (host : Host)
  | register (name : String)
  | begin (thread : Thread)
  | exit
deriving DecidableEq, Repr

def Move.isActivation : Move → Bool
  | .request asked => asked.isActivation
  | _ => false

def Move.ofEvent (event : Event) : List Move := [.arrive event, .ask, .dispatch, .release]

/-- The steps of a system thread. -/
inductive World.Step : World → Nat → Move → World → Prop where
  | arrive {w : World} {s : Nat} (event : Event) (free : w.IsFree s) :
      Step w s (.arrive event) (w.arrive s event)
  | ask {w : World} {s : Nat} {task : Task} {rest : List Task} {event : Event}
      (tasks : w.tasks s = task :: rest) (stage : task.stage = .asking event) :
      Step w s .ask (w.contend s task rest event false)
  | awake {w : World} {s : Nat} {task : Task} {rest : List Task} {event : Event} {reason : Waiting}
      {since : Nat} (tasks : w.tasks s = task :: rest) (stage : task.stage = .waiting event reason since)
      (awake : w.debugger.isAwake ⟨s, task.thread, task.context, event, reason, since⟩) :
      Step w s .awake (w.contend s task rest event (reason == .queued))
  | dispatch {w : World} {s : Nat} {task : Task} {rest : List Task} {event : Event}
      (tasks : w.tasks s = task :: rest) (stage : task.stage = .admitted event) :
      Step w s .dispatch (w.proceed s task rest (w.debugger.dispatch s task.context event))
  | answer {w : World} {s : Nat} {task : Task} {rest : List Task} {callback : Callback}
      {next : Continuation} (tasks : w.tasks s = task :: rest) (stage : task.stage = .called callback next) :
      Step w s .answer (w.proceed s task rest (next.run w.debugger s task.context))
  | fail {w : World} {s : Nat} {task : Task} {rest : List Task} {callback : Callback}
      {next : Continuation} (tasks : w.tasks s = task :: rest) (stage : task.stage = .called callback next) :
      Step w s .fail (w.proceed s task rest (.done, w.debugger))
  | release {w : World} {s : Nat} {task : Task} {rest : List Task}
      (tasks : w.tasks s = task :: rest) (stage : task.stage = .handled) :
      Step w s .release ((w.become w.debugger.release).set s rest)
  | request {w : World} {s : Nat} (request : Request) (free : w.IsFree s) :
      Step w s (.request request) (w.become (request.serve s w.debugger))
  | enterPostMortem {w : World} {s : Nat} (free : w.IsFree s) :
      Step w s .enterPostMortem (w.inspect s)
  | leavePostMortem {w : World} {s : Nat} {task : Task} {rest : List Task}
      {before : ContextId × Bool × Bool} (tasks : w.tasks s = task :: rest)
      (stage : task.stage = .inspecting before) :
      Step w s .leavePostMortem ((w.become (w.debugger.leavePostMortem s before).2).set s rest)
  | execute {w : World} {s : Nat} {host : Host} (free : w.IsFree s)
      (same : w.debugger.host.SameThreads host) :
      Step w s (.execute host) (w.become { w.debugger with host })
  | register {w : World} {s : Nat} (name : String) (free : w.IsFree s) :
      Step w s (.register name)
        (w.become { w.debugger with host := (w.debugger.host.register name).2 })
  | begin {w : World} {s : Nat} {thread : Thread} (idle : w.tasks s = [])
      (free : w.debugger.host.boundTo? s = none) (unbound : ∀ s', w.debugger.host.boundTo? s' ≠ some thread)
      (registered : thread.id ≤ w.debugger.host.threadCount) :
      Step w s (.begin thread) (w.become { w.debugger with host := w.debugger.host.bind s thread })
  | exit {w : World} {s : Nat} {thread : Thread} (idle : w.tasks s = [])
      (bound : w.debugger.host.boundTo? s = some thread) :
      Step w s .exit (w.become { w.debugger with host := w.debugger.host.exitThread thread })

theorem World.Step.tasks_ne {w w' : World} {s s' : Nat} {move : Move} (step : w.Step s move w')
    (ne : s' ≠ s) : w'.tasks s' = w.tasks s' := by
  cases step with
  | arrive event free => exact w.tasks_arrive_ne ne event
  | ask tasks stage => exact w.tasks_contend_ne ne _ _ _ _
  | awake tasks stage awake => exact w.tasks_contend_ne ne _ _ _ _
  | dispatch | answer | fail => exact World.tasks_set_ne _ ne _
  | release | leavePostMortem => exact World.tasks_set_ne _ ne _
  | enterPostMortem free => exact w.tasks_inspect_ne ne
  | request | execute | register | begin | exit => rfl

namespace World

/-- The thread that gets the ticket when its holder changes, if one does. -/
def newHolder (before after : Option Thread) : List Thread := if after = before then [] else after.toList

/-- The thread that gets the ticket between two worlds, if one does. -/
def obtained (w w' : World) : List Thread := newHolder w.holder w'.holder

/-- Runs whose steps are of an allowed kind, with the threads that got the ticket, in order. -/
inductive Run (allowed : World → Nat → Move → Prop) : World → List Thread → World → Prop where
  | refl (w : World) : Run allowed w [] w
  | step {w w' w'' : World} {got : List Thread} {s : Nat} {move : Move} (run : Run allowed w got w')
      (next : Step w' s move w'') (ok : allowed w' s move) :
      Run allowed w (got ++ obtained w' w'') w''

/-- A world in which the debugger is active and nothing is on its way. -/
structure Idle (w : World) : Prop where
  tasks : ∀ s, w.tasks s = []
  ticket : w.debugger.ticket = some (none, [])
  own : w.debugger.host.OwnThreads

end World

end EventDebugger
