import EventDebugger.Proofs.Ticket.Operations
import EventDebugger.Proofs.Ticket.System

/-!
# Who holds the ticket

The invariant of interleaved threads. The holder of the ticket has a task that got it in the present
activation or that waits for it and was handed it; every thread in the queue has a task that waits for
the ticket; on each system thread at most one task holds it.

* `World.Orderly.step`: every step keeps the invariant, except one that gives back the ticket of an
  earlier activation while a thread holds the present one.
-/

namespace EventDebugger

/-- Whether a task holds the ticket of an activation. -/
def Task.Holds (task : Task) (activation : Nat) : Prop :=
  task.stage.holds ∧ task.activation = activation

/-! ## The tasks of one system thread -/

/-- How a task stands to the tasks around it on its system thread: those are in the front-end, they got
their tickets before, and if one of them holds the ticket, then this one does not, nor does it wait. -/
structure Task.Above (activation : Nat) (task : Task) (rest : List Task) : Prop where
  front : ∀ outer ∈ rest, outer.stage.inFront
  past : task.activation ≤ activation
  order : ∀ outer ∈ rest, outer.activation ≤ task.activation
  alone : ∀ outer ∈ rest, outer.Holds activation → ¬ task.Holds activation
  known : ∀ outer ∈ rest, outer.Holds activation → task.stage.isOutside → task.reentrant
  asks : ∀ outer ∈ rest, outer.Holds activation → ¬ task.stage.isWaiting

def WellStacked (activation : Nat) : List Task → Prop
  | [] => True
  | task :: rest => task.Above activation rest ∧ WellStacked activation rest

theorem WellStacked.inFront {activation : Nat} {tasks : List Task} (h : WellStacked activation tasks)
    (free : ∀ task ∈ tasks.head?, task.stage.inFront) : ∀ task ∈ tasks, task.stage.inFront := by
  cases tasks with
  | nil => exact List.forall_mem_nil _
  | cons task rest => exact List.forall_mem_cons.mpr ⟨free task rfl, h.1.front⟩

theorem WellStacked.past {activation : Nat} {tasks : List Task} (h : WellStacked activation tasks) :
    ∀ task ∈ tasks, task.activation ≤ activation := by
  induction tasks with
  | nil => exact List.forall_mem_nil _
  | cons task rest ih =>
      intro other member
      rcases List.mem_cons.mp member with rfl | member
      · exact h.1.past
      · exact ih h.2 other member

theorem WellStacked.not_holds_succ {activation : Nat} {tasks : List Task}
    (h : WellStacked activation tasks) : ∀ task ∈ tasks, ¬ task.Holds (activation + 1) := by
  intro task member holds
  have := h.past task member
  rw [holds.2] at this
  omega

theorem WellStacked.succ {activation : Nat} {tasks : List Task} (h : WellStacked activation tasks) :
    WellStacked (activation + 1) tasks := by
  induction tasks with
  | nil => trivial
  | cons task rest ih =>
      have free := h.2.not_holds_succ
      refine ⟨⟨h.1.front, Nat.le_succ_of_le h.1.past, h.1.order, ?_, ?_, ?_⟩, ih h.2⟩
      all_goals exact fun outer member holds => absurd holds (free outer member)

/-! ## The tasks of all system threads -/

/-- Whether some system thread has a task with a property. -/
def HasTask (tasks : Nat → List Task) (p : Task → Prop) : Prop := ∃ s, ∃ task ∈ tasks s, p task

theorem hasTask_split {tasks : Nat → List Task} {p : Task → Prop} (s : Nat) :
    HasTask tasks p ↔ (∃ task ∈ tasks s, p task) ∨ ∃ other, other ≠ s ∧ ∃ task ∈ tasks other, p task := by
  refine ⟨fun ⟨other, h⟩ => ?_, fun h => ?_⟩
  · by_cases same : other = s
    · exact .inl (same ▸ h)
    · exact .inr ⟨other, same, h⟩
  · rcases h with h | ⟨other, _, h⟩
    · exact ⟨s, h⟩
    · exact ⟨other, h⟩

theorem hasTask_update {tasks : Nat → List Task} {p : Task → Prop} {s : Nat} {own : List Task} :
    HasTask (Function.update tasks s own) p ↔
      (∃ task ∈ own, p task) ∨ ∃ other, other ≠ s ∧ ∃ task ∈ tasks other, p task := by
  rw [hasTask_split s, Function.update_self]
  refine or_congr Iff.rfl (exists_congr fun other => and_congr_right fun ne => ?_)
  rw [Function.update_of_ne ne]

theorem hasTask_push {tasks : Nat → List Task} {p : Task → Prop} {s : Nat} {task : Task}
    (other : ¬ p task) : HasTask (Function.update tasks s (task :: tasks s)) p ↔ HasTask tasks p := by
  rw [hasTask_update, hasTask_split s]
  simp only [List.mem_cons, exists_eq_or_imp, other, false_or]

theorem hasTask_pop {tasks : Nat → List Task} {p : Task → Prop} {s : Nat} {task : Task}
    {rest : List Task} (eq : tasks s = task :: rest) (other : ¬ p task) :
    HasTask (Function.update tasks s rest) p ↔ HasTask tasks p := by
  rw [hasTask_update, hasTask_split s, eq]
  simp only [List.mem_cons, exists_eq_or_imp, other, false_or]

theorem hasTask_swap {tasks : Nat → List Task} {p : Task → Prop} {s : Nat} {task task' : Task}
    {rest : List Task} (eq : tasks s = task :: rest) (same : p task' ↔ p task) :
    HasTask (Function.update tasks s (task' :: rest)) p ↔ HasTask tasks p := by
  rw [hasTask_update, hasTask_split s, eq]
  simp only [List.mem_cons, exists_eq_or_imp, same]

def HasTicket (tasks : Nat → List Task) (activation : Nat) (thread : Thread) : Prop :=
  HasTask tasks fun task => task.thread = thread ∧ task.Holds activation

/-- Whether a thread waits for the ticket. -/
def IsQueued (tasks : Nat → List Task) (thread : Thread) : Prop :=
  HasTask tasks fun task => task.thread = thread ∧ task.stage.isQueued

structure Custody (tasks : Nat → List Task) (activation : Nat) (holder : Option Thread)
    (waiting : List Thread) : Prop where
  nodup : waiting.Nodup
  outside : ∀ thread, holder = some thread → thread ∉ waiting
  free : holder = none → waiting = []
  single : ∀ thread, HasTicket tasks activation thread → holder = some thread
  held : ∀ thread, holder = some thread → HasTicket tasks activation thread ∨ IsQueued tasks thread
  queued : ∀ thread ∈ waiting, IsQueued tasks thread

namespace Custody

variable {tasks tasks' : Nat → List Task} {activation : Nat} {holder : Option Thread}
  {waiting : List Thread}

theorem of_free (unheld : ∀ thread, ¬ HasTicket tasks activation thread) :
    Custody tasks activation none [] where
  nodup := .nil
  outside _ holds := by cases holds
  free _ := rfl
  single thread has := absurd has (unheld thread)
  held _ holds := by cases holds
  queued := List.forall_mem_nil _

theorem congr (h : Custody tasks activation holder waiting)
    (ticket : ∀ thread, HasTicket tasks' activation thread ↔ HasTicket tasks activation thread)
    (queued : ∀ thread, IsQueued tasks' thread ↔ IsQueued tasks thread) :
    Custody tasks' activation holder waiting where
  nodup := h.nodup
  outside := h.outside
  free := h.free
  single thread has := h.single thread ((ticket thread).mp has)
  held thread holds := (h.held thread holds).imp (ticket thread).mpr (queued thread).mpr
  queued thread member := (queued thread).mpr (h.queued thread member)

theorem handOver {thread : Thread} (h : Custody tasks activation (some thread) waiting)
    (unheld : ∀ other, ¬ HasTicket tasks' activation other)
    (queued : ∀ other, other ≠ thread → IsQueued tasks other → IsQueued tasks' other) :
    Custody tasks' activation waiting.head? waiting.tail := by
  have later (other : Thread) (member : other ∈ waiting) : IsQueued tasks' other := by
    refine queued other ?_ (h.queued other member)
    rintro rfl
    exact h.outside other rfl member
  cases waiting with
  | nil => exact of_free unheld
  | cons first others =>
      refine ⟨h.nodup.of_cons, ?_, (fun free => by cases free),
        fun other has => absurd has (unheld other), ?_, ?_⟩
      · rintro _ ⟨rfl⟩
        exact (List.nodup_cons.mp h.nodup).1
      · rintro _ ⟨rfl⟩
        exact .inr (later first List.mem_cons_self)
      · exact fun other member => later other (List.mem_cons_of_mem _ member)

end Custody

namespace World

structure Orderly (w : World) : Prop where
  own : w.debugger.host.OwnThreads
  bound : ∀ s, ∀ task ∈ w.tasks s, w.debugger.host.boundTo? s = some task.thread
  stacked : ∀ s, WellStacked w.activation (w.tasks s)
  custody : ∀ {holder waiting}, w.debugger.ticket = some (holder, waiting) →
    Custody w.tasks w.activation holder waiting

/-! ## Steps that leave the tasks alone -/

theorem session_isNone_iff (d : Debugger) : d.session.isNone = true ↔ d.ticket = none := by
  simp only [Debugger.ticket, Option.isNone_iff_eq_none, Option.map_eq_none_iff]

theorem session_isSome_iff (d : Debugger) : d.session.isSome = true ↔ d.ticket.isSome = true := by
  simp only [Debugger.ticket, Option.isSome_map]

theorem activation_become {w : World} {d : Debugger} (h : w.debugger.ticket.isSome ∨ d.ticket = none) :
    (w.become d).activation = w.activation := by
  simp only [become]
  refine if_neg ?_
  rw [Bool.and_eq_true, session_isNone_iff, session_isSome_iff]
  rintro ⟨before, after⟩
  rcases h with h | h
  · rw [before] at h
    cases h
  · rw [h] at after
    cases after

theorem activation_become_of_keeps {w : World} {d : Debugger} (h : w.debugger.Keeps d) :
    (w.become d).activation = w.activation := by
  refine activation_become ?_
  rw [h.ticket]
  cases w.debugger.ticket with
  | none => exact .inr rfl
  | some ticket => exact .inl rfl

theorem activation_become_le (w : World) (d : Debugger) :
    (w.become d).activation = w.activation ∨ (w.become d).activation = w.activation + 1 := by
  simp only [become]
  split
  · exact .inr rfl
  · exact .inl rfl

namespace Orderly

variable {w : World}

theorem stacked_become (h : w.Orderly) (d : Debugger) (s : Nat) :
    WellStacked (w.become d).activation (w.tasks s) := by
  rcases w.activation_become_le d with same | later
  · exact same ▸ h.stacked s
  · exact later ▸ (h.stacked s).succ

theorem become (h : w.Orderly) {d : Debugger} (shifts : w.debugger.Shifts d) : (w.become d).Orderly where
  own := shifts.host.own h.own
  bound s task member := shifts.host.bound (h.bound s task member)
  stacked := h.stacked_become d
  custody {holder waiting} ticket := by
    change d.ticket = _ at ticket
    rcases shifts.ticket with same | ended | ⟨inactive, began⟩
    · have active : w.debugger.ticket = some (holder, waiting) := same.symm.trans ticket
      rw [activation_become (.inl (by rw [active]; rfl))]
      exact h.custody active
    · rw [ended] at ticket
      cases ticket
    · rw [began] at ticket
      cases ticket
      have later : (w.become d).activation = w.activation + 1 := by
        refine if_pos ?_
        rw [Bool.and_eq_true, session_isNone_iff, session_isSome_iff, began]
        exact ⟨inactive, rfl⟩
      rw [later]
      refine .of_free fun thread has => ?_
      obtain ⟨s, task, member, _, holds⟩ := has
      exact (h.stacked s).not_holds_succ task member holds

theorem set (h : w.Orderly) {d : Debugger} {s : Nat} {own : List Task}
    (grows : w.debugger.host.Grows d.host)
    (bound : ∀ task ∈ own, d.host.boundTo? s = some task.thread)
    (stacked : WellStacked (w.become d).activation own)
    (custody : ∀ {holder waiting}, d.ticket = some (holder, waiting) →
      Custody (Function.update w.tasks s own) (w.become d).activation holder waiting) :
    ((w.become d).set s own).Orderly where
  own := grows.own h.own
  bound := (w.become d).forall_tasks_set (fun other task member => grows.bound (h.bound other task member)) bound
  stacked other := by
    by_cases same : other = s
    · subst same
      simpa only [World.set, Function.update_self] using stacked
    · simpa only [World.set, World.become, Function.update_of_ne same] using h.stacked_become d other
  custody := custody

theorem same_thread (h : w.Orderly) {s : Nat} {task other : Task} (member : task ∈ w.tasks s)
    (member' : other ∈ w.tasks s) : other.thread = task.thread :=
  Option.some.inj ((h.bound s other member').symm.trans (h.bound s task member))

theorem same_system (h : w.Orderly) {s s' : Nat} {task other : Task} (member : task ∈ w.tasks s)
    (member' : other ∈ w.tasks s') (same : other.thread = task.thread) : s' = s :=
  h.own.injective (h.bound s' other member') (same ▸ h.bound s task member)

/-! ## Steps of one system thread -/

theorem arrive (h : w.Orderly) {s : Nat} (event : Event) (free : w.IsFree s) :
    (w.arrive s event).Orderly := by
  have kept := (w.debugger.tends_arrive s event).keeps
  simp only [World.arrive]
  rcases arrived : w.debugger.arrive s event with ⟨_ | ⟨thread, id⟩, d⟩
  all_goals rw [arrived] at kept
  · exact h.become kept.shifts
  · obtain ⟨active, bound, _⟩ := Debugger.arrive_eq_some arrived
    have same := activation_become_of_keeps kept
    refine h.set kept.host ?_ ?_ ?_
    · intro task member
      rcases List.mem_cons.mp member with rfl | member
      · exact bound
      · exact kept.host.bound (h.bound s task member)
    · rw [same]
      refine ⟨⟨(h.stacked s).inFront free, Nat.le_refl _, (h.stacked s).past, ?_, ?_, ?_⟩, h.stacked s⟩
      · exact fun _ _ _ holds => by cases holds.1
      · intro outer member holds _
        obtain ⟨⟨holder, waiting⟩, ticket⟩ : ∃ ticket, w.debugger.ticket = some ticket := by
          rw [session_isSome_iff] at active
          exact Option.isSome_iff_exists.mp active
        have single := (h.custody ticket).single outer.thread ⟨s, outer, member, rfl, holds⟩
        have sameThread : outer.thread = thread :=
          Option.some.inj ((kept.host.bound (h.bound s outer member)).symm.trans bound)
        simp only [World.holder, ticket, Option.bind_some, single, sameThread, decide_true]
      · exact fun _ _ _ waits => by cases waits
    · intro holder waiting ticket
      rw [same]
      refine (h.custody (kept.ticket.symm.trans ticket)).congr (fun thread => ?_) fun thread => ?_
      · exact hasTask_push fun has => by cases has.2.1
      · exact hasTask_push fun has => by cases has.2

theorem above (h : w.Orderly) {s : Nat} {task : Task} {rest : List Task}
    (tasks : w.tasks s = task :: rest) :
    task.Above w.activation rest ∧ WellStacked w.activation rest := by
  have stacked := h.stacked s
  rw [tasks] at stacked
  exact stacked

theorem rest_thread (h : w.Orderly) {s : Nat} {task : Task} {rest : List Task}
    (tasks : w.tasks s = task :: rest) : ∀ outer ∈ rest, outer.thread = task.thread := by
  intro outer member
  refine h.same_thread (s := s) ?_ ?_ <;> rw [tasks]
  · exact List.mem_cons_self
  · exact List.mem_cons_of_mem _ member

theorem bound_cons (h : w.Orderly) {s : Nat} {task task' : Task} {rest : List Task}
    (tasks : w.tasks s = task :: rest) {host : Host} (grows : w.debugger.host.Grows host)
    (same : task'.thread = task.thread) :
    ∀ other ∈ task' :: rest, host.boundTo? s = some other.thread := by
  have own := h.bound s
  rw [tasks] at own
  refine List.forall_mem_cons.mpr ⟨?_, fun other member => ?_⟩
  · rw [same]
    exact grows.bound (own task List.mem_cons_self)
  · exact grows.bound (own other (List.mem_cons_of_mem _ member))

theorem proceed (h : w.Orderly) {s : Nat} {task : Task} {rest : List Task}
    (tasks : w.tasks s = task :: rest) (holds : task.stage.holds) {piece : Outcome × Debugger}
    (grows : w.debugger.host.Grows piece.2.host)
    (lasts : piece.2.ticket = w.debugger.ticket ∨ piece.2.ticket = none) :
    (w.proceed s task rest piece).Orderly := by
  have same : (w.become piece.2).activation = w.activation := by
    refine activation_become ?_
    rcases lasts with same | ended
    · rw [same]
      cases w.debugger.ticket with
      | none => exact .inr rfl
      | some ticket => exact .inl rfl
    · exact .inr ended
  have goesOn : piece.1.stage.holds = true ∧ piece.1.stage.isOutside = false ∧
      piece.1.stage.isWaiting = false ∧ piece.1.stage.isQueued = false := by
    cases piece.1 <;> exact ⟨rfl, rfl, rfl, rfl⟩
  have notQueued : task.stage.isQueued = false := by
    cases stage : task.stage <;> simp_all [Stage.holds, Stage.isQueued]
  obtain ⟨above, below⟩ := h.above tasks
  refine h.set grows (h.bound_cons tasks grows rfl) ?_ ?_
  · rw [same]
    refine ⟨⟨above.front, above.past, above.order, ?_, ?_, ?_⟩, below⟩
    · exact fun outer member outerHolds own => above.alone outer member outerHolds ⟨holds, own.2⟩
    · exact fun _ _ _ outside => absurd (goesOn.2.1.symm.trans outside) Bool.false_ne_true
    · exact fun _ _ _ waits => absurd (goesOn.2.2.1.symm.trans waits) Bool.false_ne_true
  · intro holder waiting ticket
    rw [same]
    have before : w.debugger.ticket = some (holder, waiting) := by
      rcases lasts with kept | ended
      · exact kept.symm.trans ticket
      · rw [ended] at ticket
        cases ticket
    refine (h.custody before).congr (fun thread => ?_) fun thread => ?_
    · refine hasTask_swap tasks (and_congr_right fun _ => ?_)
      simp only [Task.Holds, goesOn.1, holds]
    · refine hasTask_swap tasks (and_congr_right fun _ => ?_)
      simp only [goesOn.2.2.2, notQueued]

theorem pop (h : w.Orderly) {s : Nat} {task : Task} {rest : List Task} (tasks : w.tasks s = task :: rest)
    (other : ¬ task.Holds w.activation) {d : Debugger} (kept : w.debugger.Keeps d)
    (notQueued : d.ticket.isSome → ¬ task.stage.isQueued) : ((w.become d).set s rest).Orderly := by
  have same := activation_become_of_keeps kept
  obtain ⟨above, below⟩ := h.above tasks
  refine h.set kept.host (List.forall_mem_cons.mp (h.bound_cons tasks kept.host rfl)).2 ?_ ?_
  · rw [same]
    exact below
  · intro holder waiting ticket
    rw [same]
    refine (h.custody (kept.ticket.symm.trans ticket)).congr (fun thread => ?_) fun thread => ?_
    · exact hasTask_pop tasks fun has => other has.2
    · exact hasTask_pop tasks fun has => notQueued (by rw [ticket]; rfl) has.2

theorem getTicket (h : w.Orderly) {s : Nat} {task : Task} {rest : List Task} {event : Event}
    (tasks : w.tasks s = task :: rest) {d : Debugger} {waiting : List Thread}
    (grows : w.debugger.host.Grows d.host) (active : w.debugger.ticket.isSome)
    (ticket : d.ticket = some (some task.thread, waiting))
    (unheld : ∀ thread, ¬ HasTicket w.tasks w.activation thread)
    (nodup : waiting.Nodup) (outside : task.thread ∉ waiting)
    (queued : ∀ thread ∈ waiting, IsQueued w.tasks thread) :
    ((w.become d).set s
      ({ task with stage := .admitted event, activation := w.activation } :: rest)).Orderly := by
  have same : (w.become d).activation = w.activation := activation_become (.inl active)
  obtain ⟨above, below⟩ := h.above tasks
  have restUnheld (outer : Task) (member : outer ∈ rest) : ¬ outer.Holds w.activation := by
    intro holds
    exact unheld outer.thread ⟨s, outer, mem_outer tasks member, rfl, holds⟩
  refine h.set grows (h.bound_cons tasks grows rfl) ?_ ?_
  · rw [same]
    refine ⟨⟨above.front, Nat.le_refl _, below.past, ?_, ?_, ?_⟩, below⟩
    · exact fun outer member holds => absurd holds (restUnheld outer member)
    · exact fun _ _ _ outside => by cases outside
    · exact fun _ _ _ waits => by cases waits
  · intro holder waiting' ticket'
    rw [same]
    rw [ticket] at ticket'
    cases ticket'
    refine ⟨nodup, ?_, (fun free => by cases free), fun thread has => ?_, ?_, fun thread member => ?_⟩
    · rintro _ ⟨rfl⟩
      exact outside
    · -- only the admitted task holds the ticket
      rcases hasTask_update.mp has with ⟨other, member, isOther, holds⟩ | ⟨s', ne, other, member, has⟩
      · rcases List.mem_cons.mp member with rfl | member
        · exact congrArg some isOther
        · exact absurd holds (restUnheld other member)
      · exact absurd ⟨s', other, member, has⟩ (unheld thread)
    · rintro _ ⟨rfl⟩
      exact .inl (hasTask_update.mpr (.inl ⟨_, List.mem_cons_self, rfl, rfl, rfl⟩))
    · -- the admitted task was not in the queue
      have ne : thread ≠ task.thread := fun same => outside (same ▸ member)
      have was := (hasTask_split s).mp (queued thread member)
      rw [tasks] at was
      simp only [List.mem_cons, exists_eq_or_imp, ne.symm, false_and, false_or] at was
      refine hasTask_update.mpr (was.imp_left fun ⟨other, member, has⟩ => ?_)
      exact ⟨other, List.mem_cons_of_mem _ member, has⟩

theorem wait (h : w.Orderly) {s : Nat} {task : Task} {rest : List Task} {event : Event}
    {reason : Waiting} {since : Nat} (tasks : w.tasks s = task :: rest)
    {d : Debugger} (grows : w.debugger.host.Grows d.host) (active : w.debugger.ticket.isSome)
    (restUnheld : ∀ outer ∈ rest, ¬ outer.Holds w.activation)
    (custody : ∀ {holder waiting}, d.ticket = some (holder, waiting) →
      Custody (Function.update w.tasks s ({ task with stage := .waiting event reason since } :: rest))
        w.activation holder waiting) :
    ((w.become d).set s ({ task with stage := .waiting event reason since } :: rest)).Orderly := by
  have same : (w.become d).activation = w.activation := activation_become (.inl active)
  obtain ⟨above, below⟩ := h.above tasks
  refine h.set grows (h.bound_cons tasks grows rfl) ?_ ?_
  · rw [same]
    refine ⟨⟨above.front, above.past, above.order, ?_, ?_, ?_⟩, below⟩
    · exact fun _ _ _ holds => by cases holds.1
    · exact fun outer member holds => absurd holds (restUnheld outer member)
    · exact fun outer member holds => absurd holds (restUnheld outer member)
  · rw [same]
    exact custody

theorem rest_unheld (h : w.Orderly) {s : Nat} {task : Task} {rest : List Task}
    (tasks : w.tasks s = task :: rest) {holder : Option Thread} {waiting : List Thread}
    (ticket : w.debugger.ticket = some (holder, waiting)) (ne : holder ≠ some task.thread) :
    ∀ outer ∈ rest, ¬ outer.Holds w.activation := by
  intro outer member holds
  refine ne ?_
  rw [← h.rest_thread tasks outer member]
  exact (h.custody ticket).single _ ⟨s, outer, mem_outer tasks member, rfl, holds⟩

theorem unheld_of_waiting (h : w.Orderly) {s : Nat} {task : Task} {rest : List Task}
    (tasks : w.tasks s = task :: rest) {waiting : List Thread}
    (ticket : w.debugger.ticket = some (some task.thread, waiting)) (waits : task.stage.isWaiting) :
    ∀ thread, ¬ HasTicket w.tasks w.activation thread := by
  rintro thread ⟨s', other, member, rfl, holds⟩
  have same := (h.custody ticket).single _ ⟨s', other, member, rfl, holds⟩
  have taskMember := mem_innermost tasks
  have home : s' = s := h.same_system taskMember member (Option.some.inj same).symm
  rw [home, tasks] at member
  rcases List.mem_cons.mp member with rfl | member
  · have inside := holds.1
    revert waits inside
    cases other.stage <;> simp [Stage.holds, Stage.isWaiting]
  · exact (h.above tasks).1.asks other member holds waits

theorem hasTicket_waiting {s : Nat} {task : Task} {rest : List Task} (tasks : w.tasks s = task :: rest)
    (notHolds : ¬ task.Holds w.activation) (event : Event) (reason : Waiting) (since : Nat) (thread : Thread) :
    HasTicket (Function.update w.tasks s ({ task with stage := .waiting event reason since } :: rest))
      w.activation thread ↔ HasTicket w.tasks w.activation thread := by
  refine hasTask_swap tasks (and_congr_right fun _ => iff_of_false ?_ notHolds)
  exact fun holds => by cases holds.1

theorem isQueued_of_ne {s : Nat} {task : Task} {rest : List Task} (tasks : w.tasks s = task :: rest) (stage : Stage)
    (thread : Thread) (ne : thread ≠ task.thread) (queued : IsQueued w.tasks thread) :
    IsQueued (Function.update w.tasks s ({ task with stage } :: rest)) thread := by
  refine (hasTask_swap tasks (iff_of_false ?_ ?_)).mpr queued
  · exact fun has => ne has.1.symm
  · exact fun has => ne has.1.symm

theorem custody_queued (h : w.Orderly) {s : Nat} {task : Task} {rest : List Task} (tasks : w.tasks s = task :: rest)
    (notHolds : ¬ task.Holds w.activation) {holder : Thread} {waiting : List Thread}
    (ticket : w.debugger.ticket = some (some holder, waiting)) (other : holder ≠ task.thread) (event : Event)
    (since : Nat) :
    Custody (Function.update w.tasks s ({ task with stage := .waiting event .queued since } :: rest)) w.activation
      (some holder) (if waiting.contains task.thread then waiting else waiting ++ [task.thread]) := by
  have custody := h.custody ticket
  have own : IsQueued (Function.update w.tasks s ({ task with stage := .waiting event .queued since } :: rest))
      task.thread := hasTask_update.mpr (.inl ⟨_, List.mem_cons_self, rfl, rfl⟩)
  have still (thread : Thread) (queued : IsQueued w.tasks thread) :
      IsQueued (Function.update w.tasks s ({ task with stage := .waiting event .queued since } :: rest)) thread := by
    by_cases same : thread = task.thread
    · exact same ▸ own
    · exact isQueued_of_ne tasks _ thread same queued
  have held (thread : Thread) := hasTicket_waiting tasks notHolds event .queued since thread
  refine ⟨?_, ?_, (fun free => by cases free), fun thread has => custody.single thread ((held thread).mp has),
    fun thread holds => (custody.held thread holds).imp (held thread).mpr (still thread), ?_⟩
  · split
    · exact custody.nodup
    · next absent =>
        refine List.nodup_append.mpr ⟨custody.nodup, List.pairwise_singleton _ _, ?_⟩
        rintro thread member _ last rfl
        rw [List.mem_singleton.mp last] at member
        exact absent (List.contains_iff_mem.mpr member)
  · rintro _ ⟨rfl⟩
    split
    · exact custody.outside holder rfl
    · simp only [List.mem_append, List.mem_singleton, not_or]
      exact ⟨custody.outside holder rfl, other⟩
  · intro thread member
    split at member
    · exact still thread (custody.queued thread member)
    · rcases List.mem_append.mp member with member | member
      · exact still thread (custody.queued thread member)
      · exact List.mem_singleton.mp member ▸ own

theorem contend (h : w.Orderly) {s : Nat} {task : Task} {rest : List Task} {event : Event}
    {granted : Bool} (tasks : w.tasks s = task :: rest) (outside : task.stage.isOutside)
    (handed : granted = true → task.stage.isWaiting)
    (fresh : granted = false → ¬ task.stage.isQueued) :
    (w.contend s task rest event granted).Orderly := by
  have contended := w.debugger.contended task.thread task.context granted
  have host := w.debugger.host_contend task.thread task.context granted
  have notHolds : ¬ task.Holds w.activation := by
    intro holds
    have inside := holds.1
    revert outside inside
    cases task.stage <;> simp [Stage.holds, Stage.isOutside]
  simp only [World.contend]
  rcases eq : w.debugger.contend task.thread task.context granted with ⟨turn, d⟩
  rw [eq] at contended host
  have grows : w.debugger.host.Grows d.host := by
    rw [show d.host = w.debugger.host from host]
    exact .refl _
  have held (reason : Waiting) (thread : Thread) := hasTicket_waiting tasks notHolds event reason d.wakeups thread
  simp only at contended
  generalize before : w.debugger.ticket = ticket at contended
  generalize after : d.ticket = ticket' at contended
  cases contended with
  | inactive => exact h.pop tasks notHolds ⟨after.trans before.symm, grows⟩ fun active => by simp [after] at active
  | taken waiting =>
      have custody := h.custody before
      have empty := custody.free rfl
      subst empty
      refine h.getTicket tasks grows (by rw [before]; rfl) after ?_ .nil List.not_mem_nil (List.forall_mem_nil _)
      exact fun thread has => by cases custody.single thread has
  | granted waiting granted =>
      have custody := h.custody before
      exact h.getTicket tasks grows (by rw [before]; rfl) after
        (h.unheld_of_waiting tasks before (handed granted)) custody.nodup (custody.outside _ rfl) custody.queued
  | reentrant waiting asked =>
      exact h.pop tasks notHolds ⟨after.trans before.symm, grows⟩ fun _ => fresh asked
  | queued waiting other =>
      have unheld := h.rest_unheld tasks before fun same => other (Option.some.inj same)
      refine h.wait tasks grows (by rw [before]; rfl) unheld fun ticket => ?_
      rw [after] at ticket
      cases ticket
      exact h.custody_queued tasks notHolds before other event d.wakeups
  | parked waiting =>
      have custody := h.custody before
      have empty := custody.free rfl
      subst empty
      refine h.wait tasks grows (by rw [before]; rfl) (h.rest_unheld tasks before (Option.some_ne_none _).symm)
        fun ticket => ?_
      rw [after] at ticket
      cases ticket
      refine .of_free fun thread has => ?_
      cases custody.single thread ((held _ thread).mp has)
  | handedOn waiting granted =>
      have waits := handed granted
      have unheld := h.unheld_of_waiting tasks before waits
      refine h.wait tasks grows (by rw [before]; rfl) ?_ fun ticket => ?_
      · intro outer member holds
        exact unheld outer.thread ⟨s, outer, mem_outer tasks member, rfl, holds⟩
      · rw [after] at ticket
        cases ticket
        refine (h.custody before).handOver (fun other has => ?_) (isQueued_of_ne tasks _)
        exact unheld other ((held _ other).mp has)

theorem unheld_of_pop (h : w.Orderly) {s : Nat} {task : Task} {rest : List Task}
    (tasks : w.tasks s = task :: rest) {waiting : List Thread}
    (ticket : w.debugger.ticket = some (some task.thread, waiting)) (holds : task.Holds w.activation) :
    ∀ thread, ¬ HasTicket (Function.update w.tasks s rest) w.activation thread := by
  intro thread has
  rcases hasTask_update.mp has with ⟨other, member, _, otherHolds⟩ | ⟨s', ne, other, member, _, otherHolds⟩
  · exact (h.above tasks).1.alone other member otherHolds holds
  · have same := (h.custody ticket).single _ ⟨s', other, member, rfl, otherHolds⟩
    have own := mem_innermost tasks
    exact ne (h.same_system own member (Option.some.inj same).symm)

theorem release (h : w.Orderly) {s : Nat} {task : Task} {rest : List Task}
    (tasks : w.tasks s = task :: rest) (stage : task.stage = .handled)
    (own : task.activation = w.activation ∨ w.holder = none) :
    ((w.become w.debugger.release).set s rest).Orderly := by
  have released := w.debugger.ticket_release
  have grows : w.debugger.host.Grows w.debugger.release.host := by
    rw [w.debugger.host_release]
    exact .refl _
  have same : (w.become w.debugger.release).activation = w.activation := by
    refine activation_become ?_
    rw [released]
    cases w.debugger.ticket with
    | none => exact .inr rfl
    | some ticket => exact .inl rfl
  refine h.set grows (List.forall_mem_cons.mp (h.bound_cons tasks grows rfl)).2 ?_ ?_
  · rw [same]
    exact (h.above tasks).2
  · intro holder' waiting' ticket
    rw [same]
    rw [released] at ticket
    obtain ⟨⟨holder, waiting⟩, before, handed⟩ := Option.map_eq_some_iff.mp ticket
    cases handed
    have custody := h.custody before
    have holderEq : w.holder = holder := by rw [World.holder, before, Option.bind_some]
    rcases own with own | unheld
    · have holds : task.Holds w.activation := ⟨by rw [stage]; rfl, own⟩
      have single : holder = some task.thread := custody.single _ ⟨s, task, mem_innermost tasks, rfl, holds⟩
      subst single
      refine custody.handOver (h.unheld_of_pop tasks before holds) fun other _ queued => ?_
      refine (hasTask_pop tasks fun has => ?_).mpr queued
      rw [stage] at has
      cases has.2
    · rw [unheld] at holderEq
      subst holderEq
      rw [custody.free rfl]
      refine .of_free fun thread has => ?_
      have was : HasTicket w.tasks w.activation thread := by
        rcases hasTask_update.mp has with ⟨other, member, has⟩ | ⟨s', _, other, member, has⟩
        · exact ⟨s, other, mem_outer tasks member, has⟩
        · exact ⟨s', other, member, has⟩
      cases custody.single thread was

theorem inspect (h : w.Orderly) {s : Nat} (free : w.IsFree s) : (w.inspect s).Orderly := by
  have kept := (w.debugger.tends_enterPostMortem s).keeps
  have bound := w.debugger.boundTo?_enterPostMortem s
  simp only [World.inspect]
  rcases entered : w.debugger.enterPostMortem s with ⟨error | before, d⟩
  all_goals rw [entered] at kept bound
  · exact h.become kept.shifts
  · have same := activation_become_of_keeps kept
    refine h.set kept.host ?_ ?_ ?_
    · refine List.forall_mem_cons.mpr ⟨bound, fun task member => ?_⟩
      exact kept.host.bound (h.bound s task member)
    · rw [same]
      refine ⟨⟨(h.stacked s).inFront free, Nat.le_refl _, (h.stacked s).past, ?_, ?_, ?_⟩, h.stacked s⟩
      · exact fun _ _ _ holds => by cases holds.1
      · exact fun _ _ _ outside => by cases outside
      · exact fun _ _ _ waits => by cases waits
    · intro holder waiting ticket
      rw [same]
      refine (h.custody (kept.ticket.symm.trans ticket)).congr (fun thread => ?_) fun thread => ?_
      · exact hasTask_push fun has => by cases has.2.1
      · exact hasTask_push fun has => by cases has.2

theorem rebind (h : w.Orderly) {s : Nat} (idle : w.tasks s = []) {host : Host} (own : host.OwnThreads)
    (others : ∀ s', s' ≠ s → host.boundTo? s' = w.debugger.host.boundTo? s') :
    (w.become { w.debugger with host }).Orderly := by
  have same : (w.become { w.debugger with host }).activation = w.activation := by
    refine activation_become ?_
    change w.debugger.ticket.isSome ∨ w.debugger.ticket = none
    cases w.debugger.ticket with
    | none => exact .inr rfl
    | some ticket => exact .inl rfl
  refine ⟨own, fun s' task member => ?_, ?_, ?_⟩
  · have ne : s' ≠ s := by
      rintro rfl
      change task ∈ w.tasks s' at member
      rw [idle] at member
      cases member
    exact (others s' ne).trans (h.bound s' task member)
  · exact h.stacked_become _
  · rw [same]
    exact h.custody

end Orderly

/-- A step that gives back the ticket of an earlier activation while a thread holds the present one. -/
def Overrides (w : World) (s : Nat) (move : Move) : Prop :=
  move = .release ∧ w.holder ≠ none ∧ ∃ task ∈ (w.tasks s).head?, task.activation ≠ w.activation

theorem Orderly.step {w w' : World} {s : Nat} {move : Move} (h : w.Orderly) (step : w.Step s move w')
    (present : ¬ w.Overrides s move) : w'.Orderly := by
  cases step with
  | arrive event free => exact h.arrive event free
  | ask tasks stage =>
      refine h.contend tasks ?_ (fun granted => by cases granted) fun _ => ?_ <;> rw [stage]
      · rfl
      · exact Bool.false_ne_true
  | awake tasks stage awake =>
      rename_i reason _
      refine h.contend tasks ?_ (fun _ => ?_) fun parked => ?_ <;> rw [stage]
      · rfl
      · rfl
      · cases reason with
        | queued => cases parked
        | parked => exact Bool.false_ne_true
  | dispatch tasks stage =>
      refine h.proceed tasks (by rw [stage]; rfl) ?_ ?_
      · exact w.debugger.grows_dispatch _ _ _
      · exact w.debugger.ticket_dispatch _ _ _
  | answer tasks stage =>
      rename_i task _ _ next
      have touched := w.debugger.touches_run s task.context next
      exact h.proceed tasks (by rw [stage]; rfl) touched.grows (.inl touched.keeps.ticket)
  | fail tasks stage => exact h.proceed tasks (by rw [stage]; rfl) (.refl _) (.inl rfl)
  | release tasks stage =>
      rename_i task rest
      refine h.release tasks stage ?_
      by_cases unheld : w.holder = none
      · exact .inr unheld
      · refine .inl (Classical.byContradiction fun earlier => present ⟨rfl, unheld, task, ?_, earlier⟩)
        rw [tasks]
        rfl
  | request request free => exact h.become (w.debugger.shifts_request request s)
  | enterPostMortem free => exact h.inspect free
  | leavePostMortem tasks stage =>
      refine h.pop tasks (fun holds => ?_) (w.debugger.tends_leavePostMortem s _).keeps fun _ => ?_
      · rw [Task.Holds, stage] at holds
        cases holds.1
      · rw [stage]
        exact Bool.false_ne_true
  | execute free same => exact h.become ⟨.inl rfl, same.grows⟩
  | register name free => exact h.become ⟨.inl rfl, Host.grows_register _ name⟩
  | begin idle free unbound registered =>
      refine h.rebind idle (Host.ownThreads_bind h.own free unbound registered) fun s' ne => ?_
      rw [Host.boundTo?_bind, if_neg ne]
  | exit idle bound =>
      exact h.rebind idle (Host.ownThreads_exitThread h.own bound) fun s' ne =>
        Host.boundTo?_exitThread h.own bound ne

/-! ## One activation -/

def Current (w : World) : Prop := ∀ s, ∀ task ∈ w.tasks s, task.activation = w.activation

namespace Current

variable {w : World}

theorem become (h : w.Current) {d : Debugger} (same : (w.become d).activation = w.activation) :
    (w.become d).Current := fun s task member => (h s task member).trans same.symm

theorem set (h : w.Current) {d : Debugger} (same : (w.become d).activation = w.activation) {s : Nat}
    {own : List Task} (current : ∀ task ∈ own, task.activation = w.activation) :
    ((w.become d).set s own).Current := by
  intro other task member
  have activation := (w.become d).forall_tasks_set h current other task member
  exact activation.trans same.symm

theorem set_cons (h : w.Current) {d : Debugger} (same : (w.become d).activation = w.activation)
    {s : Nat} {task task' : Task} {rest : List Task} (tasks : w.tasks s = task :: rest)
    (current : task'.activation = task.activation ∨ task'.activation = w.activation) :
    ((w.become d).set s (task' :: rest)).Current := by
  have own := h s
  rw [tasks] at own
  refine h.set same (List.forall_mem_cons.mpr ⟨?_, fun other member => ?_⟩)
  · exact current.elim (fun kept => kept.trans (own task List.mem_cons_self)) id
  · exact own other (List.mem_cons_of_mem _ member)

theorem set_rest (h : w.Current) {d : Debugger} (same : (w.become d).activation = w.activation)
    {s : Nat} {task : Task} {rest : List Task} (tasks : w.tasks s = task :: rest) :
    ((w.become d).set s rest).Current := by
  have own := h s
  rw [tasks] at own
  exact h.set same fun other member => own other (List.mem_cons_of_mem _ member)

theorem contend (h : w.Current) {s : Nat} {task : Task} {rest : List Task} {event : Event}
    {granted : Bool} (tasks : w.tasks s = task :: rest) :
    (w.contend s task rest event granted).Current := by
  have contended := w.debugger.contended task.thread task.context granted
  simp only [World.contend]
  rcases eq : w.debugger.contend task.thread task.context granted with ⟨turn, d⟩
  rw [eq] at contended
  have same : (w.become d).activation = w.activation := by
    refine activation_become ?_
    simp only at contended
    generalize w.debugger.ticket = ticket at contended
    generalize d.ticket = ticket' at contended
    cases contended with
    | inactive => exact .inr rfl
    | _ => exact .inl rfl
  cases turn with
  | ticket => exact h.set_cons same tasks (.inr rfl)
  | dropped => exact h.set_rest same tasks
  | wait => exact h.set_cons same tasks (.inl rfl)

theorem step {w' : World} {s : Nat} {move : Move} (h : w.Current) (step : w.Step s move w')
    (lasts : move.isActivation = false) : w'.Current := by
  have unchanged (d : Debugger) (same : d.session = w.debugger.session) :
      (w.become d).activation = w.activation := by
    simp only [World.become, same]
    cases w.debugger.session <;> rfl
  cases step with
  | arrive event free =>
      have kept := (w.debugger.tends_arrive s event).keeps
      simp only [World.arrive]
      rcases arrived : w.debugger.arrive s event with ⟨_ | ⟨thread, id⟩, d⟩
      all_goals
        rw [arrived] at kept
        have same := activation_become_of_keeps kept
      · exact h.become same
      · exact h.set same (List.forall_mem_cons.mpr ⟨rfl, h s⟩)
  | ask tasks stage => exact h.contend tasks
  | awake tasks stage awake => exact h.contend tasks
  | dispatch tasks stage =>
      rename_i task rest event
      refine h.set_cons (activation_become ?_) tasks (.inl rfl)
      rcases w.debugger.ticket_dispatch s task.context event with same | ended
      · rw [same]
        cases w.debugger.ticket with
        | none => exact .inr rfl
        | some ticket => exact .inl rfl
      · exact .inr ended
  | answer tasks stage =>
      rename_i task _ _ next
      exact h.set_cons (unchanged _ (w.debugger.touches_run s task.context next).session) tasks (.inl rfl)
  | fail tasks stage => exact h.set_cons (unchanged _ rfl) tasks (.inl rfl)
  | release tasks stage =>
      refine h.set_rest (activation_become ?_) tasks
      rw [w.debugger.ticket_release]
      cases w.debugger.ticket with
      | none => exact .inr rfl
      | some ticket => exact .inl rfl
  | request request free =>
      exact h.become (activation_become_of_keeps (request.tends_request s w.debugger lasts).keeps)
  | enterPostMortem free =>
      have kept := (w.debugger.tends_enterPostMortem s).keeps
      simp only [World.inspect]
      rcases entered : w.debugger.enterPostMortem s with ⟨error | before, d⟩
      all_goals
        rw [entered] at kept
        have same := activation_become_of_keeps kept
      · exact h.become same
      · exact h.set same (List.forall_mem_cons.mpr ⟨rfl, h s⟩)
  | leavePostMortem tasks stage =>
      exact h.set_rest (activation_become_of_keeps (w.debugger.tends_leavePostMortem s _).keeps) tasks
  | execute | register | begin | exit => exact h.become (unchanged _ rfl)

theorem not_overrides (h : w.Current) (s : Nat) (move : Move) : ¬ w.Overrides s move := by
  rintro ⟨rfl, _, task, head, earlier⟩
  exact earlier (h s task (List.mem_of_head? head))

end Current

theorem Idle.orderly {w : World} (h : w.Idle) : w.Orderly where
  own := h.own
  bound s task member := by
    rw [h.tasks s] at member
    cases member
  stacked s := by
    rw [h.tasks s]
    trivial
  custody {holder waiting} ticket := by
    rw [h.ticket] at ticket
    cases ticket
    refine .of_free fun thread has => ?_
    obtain ⟨s, task, member, _⟩ := has
    rw [h.tasks s] at member
    cases member

theorem Idle.current {w : World} (h : w.Idle) : w.Current := by
  intro s task member
  rw [h.tasks s] at member
  cases member

theorem Run.orderly {allowed : World → Nat → Move → Prop} {w w' : World} {got : List Thread}
    (run : Run allowed w got w') (present : ∀ {w s move}, allowed w s move → ¬ w.Overrides s move)
    (h : w.Orderly) : w'.Orderly := by
  induction run with
  | refl => exact h
  | step run next ok ih => exact ih.step next (present ok)

end World

end EventDebugger
