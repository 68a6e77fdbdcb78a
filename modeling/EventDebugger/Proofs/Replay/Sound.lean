import EventDebugger.Proofs.Replay.Following
import EventDebugger.Proofs.Replay.Shadow
import EventDebugger.Proofs.Ticket.Discipline

/-!
# What is known of a replayed thread

The invariant of one thread of a program: its activations are shadowed by the frames of its context, or
will be once its event is dispatched. Steps of other threads keep it, and so do the steps of an event.

* `Actor.Sound.spared`: a step of another thread keeps what is known of a thread.
* `Busy.step`: a step of an event keeps what is known of its thread.
-/

namespace EventDebugger

variable {opens : Option TypeRef → Bool → Bool}

def Task.Follows (opens : Option TypeRef → Bool → Bool) (openers : List Opener)
    (activations : Activations) (lined : Bool) (d : Debugger) (task : Task) : Prop :=
  match task.stage with
  | .asking event | .waiting event _ _ =>
      d.isStarted → d.Attends task.thread task.context (Announces opens openers activations lined · event)
  | .admitted event =>
      d.isStarted ∧ d.Attends task.thread task.context (Announces opens openers activations lined · event)
  | .called callback _ =>
      (d.isStarted ∧ callback.context = task.context ∧ Settled openers) ∧
        d.Attends task.thread task.context (Mirrors opens openers activations lined)
  | .handled => d.isStarted → d.Attends task.thread task.context (Mirrors opens openers activations lined)
  | .inspecting _ => False

inductive Busy (opens : Option TypeRef → Bool → Bool) (openers : List Opener) (activations : Activations)
    (lined : Bool) (d : Debugger) (thread : Thread) : List Task → Prop where
  | done (follows : d.Follows thread (Mirrors opens openers activations lined)) :
      Busy opens openers activations lined d thread []
  | task (task : Task) (own : task.thread = thread) (alone : task.reentrant = false)
      (follows : task.Follows opens openers activations lined d) :
      Busy opens openers activations lined d thread [task]

namespace Actor

structure Home (w : World) (s : Nat) (thread : Thread) : Prop where
  bound : w.debugger.host.boundTo? s = some thread
  alive : w.debugger.host.isAlive thread

/-- What is known of a thread that did not start yet. -/
structure Unstarted (w : World) (s : Nat) (actor : Actor) : Prop where
  idle : w.tasks s = []
  free : w.debugger.host.boundTo? s = none
  unbound : ∀ s', w.debugger.host.boundTo? s' ≠ some actor.thread
  registered : actor.thread.id ≤ w.debugger.host.threadCount
  alive : w.debugger.host.isAlive actor.thread
  plain : Step.allPlain actor.steps
  unlined : actor.lined = false
  follows : w.debugger.Follows actor.thread (· = [])

def Sound (opens : Option TypeRef → Bool → Bool) (w : World) (s : Nat) (actor : Actor) : Prop :=
  match actor.phase with
  | .starting => actor.Unstarted w s
  | .running activations actions =>
      Home w s actor.thread ∧ w.tasks s = [] ∧ ∃ openers final, NestsAll actions openers final ∧
        w.debugger.Follows actor.thread (Mirrors opens openers activations actor.lined)
  | .notifying event activations actions =>
      Home w s actor.thread ∧ w.tasks s = [] ∧ ∃ openers final, NestsAll actions openers final ∧
        w.debugger.Follows actor.thread (Announces opens openers activations actor.lined · event)
  | .handling activations actions =>
      Home w s actor.thread ∧ ∃ openers final, NestsAll actions openers final ∧
        Busy opens openers activations actor.lined w.debugger actor.thread (w.tasks s)
  | .ending =>
      Home w s actor.thread ∧ ∀ task ∈ w.tasks s, ∃ before, task.stage = .inspecting before
  | .ended => w.tasks s = []

end Actor

/-! ## Steps of other threads -/

structure World.Spares (w w' : World) (s : Nat) (thread : Thread) : Prop where
  tasks : w'.tasks s = w.tasks s
  bound : w'.debugger.host.boundTo? s = w.debugger.host.boundTo? s
  unbound : (∀ s', w.debugger.host.boundTo? s' ≠ some thread) →
    ∀ s', w'.debugger.host.boundTo? s' ≠ some thread
  count : w.debugger.host.threadCount ≤ w'.debugger.host.threadCount
  alive : w.debugger.host.isAlive thread → w'.debugger.host.isAlive thread
  earlier : w'.debugger.isStarted → w.debugger.isStarted
  lasts : (∃ task ∈ w.tasks s, task.stage.holds) → w.debugger.isStarted → w'.debugger.isStarted
  shows : ∀ {p}, w.debugger.host.isAlive thread → w'.debugger.isStarted →
    w.debugger.Shows thread p → w'.debugger.Shows thread p
  attends : ∀ {id p}, w.debugger.host.isAlive thread → w'.debugger.isStarted →
    w.debugger.Attends thread id p → w'.debugger.Attends thread id p

namespace World.Spares

variable {w w' : World} {s : Nat} {thread : Thread} (h : w.Spares w' s thread)

include h

theorem home (home : Actor.Home w s thread) : Actor.Home w' s thread :=
  ⟨h.bound.trans home.bound, h.alive home.alive⟩

theorem follows (home : w.debugger.host.isAlive thread) {p : Outline → Prop}
    (follows : w.debugger.Follows thread p) : w'.debugger.Follows thread p :=
  fun started => h.shows home started (follows (h.earlier started))

theorem busy (alive : w.debugger.host.isAlive thread) {openers : List Opener}
    {activations : Activations} {lined : Bool}
    (busy : Busy opens openers activations lined w.debugger thread (w.tasks s)) :
    Busy opens openers activations lined w'.debugger thread (w'.tasks s) := by
  have attended {id : ContextId} {p : Outline → Prop}
      (attends : w.debugger.isStarted → w.debugger.Attends thread id p) :
      w'.debugger.isStarted → w'.debugger.Attends thread id p :=
    fun started => h.attends alive started (attends (h.earlier started))
  rw [h.tasks]
  have lasts := h.lasts
  generalize w.tasks s = tasks at busy lasts ⊢
  cases busy with
  | done follows => exact .done (h.follows alive follows)
  | task task own alone follows =>
      refine .task task own alone ?_
      subst own
      revert follows lasts
      simp only [Task.Follows, List.mem_singleton, exists_eq_left]
      cases task.stage with
      | asking | waiting | handled => exact fun follows _ => attended follows
      | admitted =>
          intro follows lasts
          have started := lasts rfl follows.1
          exact ⟨started, h.attends alive started follows.2⟩
      | called =>
          intro follows lasts
          have started := lasts rfl follows.1.1
          exact ⟨⟨started, follows.1.2⟩, h.attends alive started follows.2⟩
      | inspecting => exact fun follows _ => follows

end World.Spares

theorem Actor.Sound.spared {w w' : World} {s : Nat} {actor : Actor} (h : actor.Sound opens w s)
    (spares : w.Spares w' s actor.thread) : actor.Sound opens w' s := by
  revert h
  simp only [Sound]
  cases actor.phase with
  | starting =>
      intro h
      exact ⟨spares.tasks.trans h.idle, spares.bound.trans h.free, spares.unbound h.unbound,
        Nat.le_trans h.registered spares.count, spares.alive h.alive, h.plain, h.unlined,
        spares.follows h.alive h.follows⟩
  | running | notifying =>
      rintro ⟨home, idle, openers, final, nests, follows⟩
      exact ⟨spares.home home, spares.tasks.trans idle, openers, final, nests,
        spares.follows home.alive follows⟩
  | handling =>
      rintro ⟨home, openers, final, nests, busy⟩
      exact ⟨spares.home home, openers, final, nests, spares.busy home.alive busy⟩
  | ending =>
      rintro ⟨home, inspects⟩
      exact ⟨spares.home home, spares.tasks ▸ inspects⟩
  | ended => exact spares.tasks.trans

end EventDebugger
