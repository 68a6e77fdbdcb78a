import EventDebugger.Proofs.Conduct
import EventDebugger.Proofs.Ticket.Handover
import EventDebugger.Proofs.Ticket.Restoration

/-!
# The end of an event

When an event is over, its thread does not hold the ticket, unless it held it for another event when this one
arrived, and whatever happened meanwhile: the front-end may fail, the event may be dropped, the debugger may be
stopped and started. The ticket is then free or in the hands of a thread that goes on, so later events are
handled.

* `World.Underway.acts`: while the event is on its way, the holder has one that is not further out.
* `World.conducted_and_returned`: the calls of an event, its result, and the ticket at its end.
-/

namespace EventDebugger

theorem Debugger.thread_of_arrive {d d' : Debugger} {system : Nat} {event : Event} {thread : Thread}
    {id : ContextId} (arrived : d.arrive system event = (some (thread, id), d')) :
    (d.currentThread system).1 = thread := by
  simp only [arrive] at arrived
  split at arrived
  · split at arrived
    · cases arrived
    · split at arrived
      · cases arrived
      · split at arrived <;> cases arrived
        rfl
  · cases arrived

/-! ## The tasks that are further in than others -/

theorem Aside.cut {above rest own' : List Task} (changes : Aside (above ++ rest) own') (inner : above ≠ []) :
    ∃ above', own' = above' ++ rest ∧ Aside above above' := by
  obtain ⟨task, inside, rfl⟩ := List.exists_cons_of_ne_nil inner
  rw [List.cons_append] at changes
  cases changes with
  | same => exact ⟨_, rfl, .same _⟩
  | begins free fresh => exact ⟨_ :: task :: inside, rfl, .begins free fresh⟩
  | goesOn before after => exact ⟨_ :: inside, rfl, .goesOn before after⟩
  | ends unclaimed => exact ⟨inside, rfl, .ends unclaimed⟩

namespace World

variable {w w' w₀ : World} {s s' : Nat} {act : Act} {above rest own' : List Task} {thread : Thread}

theorem Hands.cut (hands : Hands w w' (above ++ rest) own') (inner : above ≠ []) :
    ∃ above', own' = above' ++ rest ∧ Hands w w' above above' := by
  have aside (endures : w.debugger.Endures w'.debugger) (changes : Aside (above ++ rest) own') :
      ∃ above', own' = above' ++ rest ∧ Hands w w' above above' := by
    obtain ⟨above', same, changes⟩ := changes.cut inner
    exact ⟨above', same, .aside endures changes⟩
  obtain ⟨task, inside, rfl⟩ := List.exists_cons_of_ne_nil inner
  rw [List.cons_append] at hands
  cases hands with
  | aside endures changes => exact aside endures changes
  | admits left same holds holder queue => exact ⟨_ :: inside, rfl, .admits left same holds holder queue⟩
  | joins before ne holder queue => exact ⟨_ :: inside, rfl, .joins before ne holder queue⟩
  | drops left unclaimed holder queue => exact ⟨inside, rfl, .drops left unclaimed holder queue⟩
  | handsOver left ended holder queue woken =>
      rcases ended with rfl | ⟨stage, unclaimed, rfl⟩
      · exact ⟨inside, rfl, .handsOver left (.inl rfl) holder queue woken⟩
      · exact ⟨_ :: inside, rfl, .handsOver left (.inr ⟨stage, unclaimed, rfl⟩) holder queue woken⟩

/-- An event of a thread is on its way on a system thread, further in than others, or is over: whoever holds the
ticket has an event that got it or waits for it, and that is none of those others. -/
structure Underway (s : Nat) (rest : List Task) (thread : Thread) (w : World) : Prop where
  lodged : w.Lodged
  ticketed : w.Ticketed
  bound : w.debugger.host.boundTo? s = some thread
  manned : ∃ above, w.tasks s = above ++ rest ∧ Manned (Function.update w.tasks s above) w.holder

theorem Underway.acts (h : w.Underway s rest thread) (acts : w.Acts s' act w')
    (ongoing : rest.length < (w.tasks s).length) : w'.Underway s rest thread := by
  obtain ⟨above, tasks, manned⟩ := h.manned
  have inner : above ≠ [] := by
    rintro rfl
    rw [tasks] at ongoing
    exact Nat.lt_irrefl _ ongoing
  have busy : w.tasks s ≠ [] := List.ne_nil_of_length_pos (Nat.zero_lt_of_lt ongoing)
  have lined : Lined (Function.update w.tasks s above) w.queue := by
    intro other member
    obtain ⟨s₁, task, head, is⟩ := h.ticketed.lined other member
    refine ⟨s₁, task, ?_, is⟩
    by_cases here : s₁ = s
    · subst here
      rw [Function.update_self]
      rwa [tasks, List.head?_append_of_ne_nil _ inner] at head
    · rwa [Function.update_of_ne here]
  have hands := acts.hands h.lodged h.ticketed.lined
  refine ⟨h.lodged.acts acts, h.ticketed.acts h.lodged acts, acts.bound_of_busy h.lodged.own busy h.bound, ?_⟩
  by_cases here : s' = s
  · subst here
    rw [tasks] at hands
    obtain ⟨above', tasks', hands⟩ := hands.cut inner
    have cut : Hands w w' (Function.update w.tasks s' above s') above' := by rwa [Function.update_self]
    have manned' := cut.manned lined manned
    rw [Function.update_idem] at manned'
    refine ⟨above', tasks', ?_⟩
    rwa [acts.tasks_eq, Function.update_idem]
  · have apart : Hands w w' (Function.update w.tasks s above s') (w'.tasks s') := by
      rwa [Function.update_of_ne here]
    have manned' := apart.manned lined manned
    rw [Function.update_comm (Ne.symm here), ← acts.tasks_eq] at manned'
    refine ⟨above, ?_, manned'⟩
    rw [acts.tasks_eq, Function.update_of_ne (Ne.symm here), tasks]

theorem Ticketed.underway (h : w.Ticketed) (lodged : w.Lodged) {event : Event} (free : w.IsFree s) {id : ContextId}
    {d : Debugger} (arrived : w.debugger.arrive s event = (some (thread, id), d)) (other : w.holder ≠ some thread) :
    (w.arrive s event).Underway s (w.tasks s) thread := by
  have acts : w.Acts s (.move (.arrive event)) (w.arrive s event) := .move (.arrive event free)
  have tends := w.debugger.tends_arrive s event
  rw [arrived] at tends
  obtain ⟨-, bound, -⟩ := Debugger.arrive_eq_some arrived
  let task : Task := ⟨thread, id, .asking event, decide (w.holder = some thread), w.activation, some event⟩
  have arrives : w.arrive s event = (w.become d).set s (task :: w.tasks s) := by
    simp only [World.arrive, arrived]
    rfl
  have holder : ((w.become d).set s (task :: w.tasks s)).holder = w.holder := congrArg (·.bind (·.1)) tends.ticket
  refine ⟨lodged.acts acts, h.acts lodged acts, ?_, [task], ?_, ?_⟩
  all_goals rw [arrives]
  · exact bound
  · exact tasks_set_self _ _ _
  · rw [holder]
    intro holding held
    obtain ⟨s', claiming, member, is, claims⟩ := h.manned holding held
    have elsewhere : s' ≠ s := by
      rintro rfl
      have home := lodged.bound s' claiming member (Stage.not_isInspecting_of_claims claims)
      have same := (tends.keeps.host.bound home).symm.trans bound
      rw [is] at same
      exact other (held.trans same)
    exact hasTask_update.mpr (.inr ⟨s', elsewhere, claiming, by rwa [tasks_set_ne _ elsewhere], is, claims⟩)

theorem Underway.returned (h : w.Underway s rest thread) (ended : (w.tasks s).length = rest.length) :
    w.holder ≠ some thread := by
  intro held
  obtain ⟨above, tasks, manned⟩ := h.manned
  obtain rfl : above = [] := by
    rw [tasks, List.length_append] at ended
    exact List.eq_nil_of_length_eq_zero (by omega)
  rcases hasTask_update.mp (manned thread held) with ⟨task, member, -⟩ | ⟨s', ne, task, member, is, claims⟩
  · cases member
  · have bound := h.lodged.bound s' task member (Stage.not_isInspecting_of_claims claims)
    exact ne (h.lodged.own.injective bound (is ▸ h.bound))

/-! ## Runs -/

/-- Steps while more tasks are on their way on a system thread than a number. -/
def Ongoing (s depth : Nat) (w : World) (_ : Nat) (_ : Act) : Prop := depth < (w.tasks s).length

instance (s depth : Nat) (w : World) (s' : Nat) (act : Act) : Decidable (Ongoing s depth w s' act) :=
  inferInstanceAs (Decidable (depth < (w.tasks s).length))

theorem Course.underway (course : Course (Ongoing s rest.length) w w') (h : w.Underway s rest thread) :
    w'.Underway s rest thread := by
  induction course with
  | refl => exact h
  | step _ next ongoing ih => exact ih.acts next ongoing

theorem Course.eq_of_over {depth : Nat} (course : Course (Ongoing s depth) w w')
    (ended : (w.tasks s).length = depth) : w' = w := by
  induction course with
  | refl => rfl
  | step _ _ ongoing ih =>
      rw [ih, Ongoing, ended] at ongoing
      exact absurd ongoing (Nat.lt_irrefl _)

/-- The ticket is used, and kept from nobody: who holds it has an event that got it or that was handed it and can
go on, who is in the queue waits with an event, nobody is in the queue of a free ticket, and an event is dropped
only while another one of its thread got the ticket or waits for it. -/
structure Served (w : World) : Prop where
  holder : ∀ thread, w.holder = some thread → ∃ s, ∃ task ∈ w.tasks s, task.thread = thread ∧
    (task.stage.holds ∨ ∃ event since, task.stage = .waiting event .queued since ∧
      w.debugger.isAwake ⟨s, thread, task.context, event, .queued, since⟩)
  queue : ∀ thread ∈ w.queue, IsQueued w.tasks thread
  free : w.holder = none → w.queue = []
  dropped : ∀ thread id, w.debugger.isStarted → (w.debugger.contend thread id false).1 = .dropped →
    Claimed w.tasks thread

theorem Ticketed.served (h : w.Ticketed) : w.Served where
  holder thread held := by
    obtain ⟨s, task, member, is, claims⟩ := h.manned thread held
    refine ⟨s, task, member, is, ?_⟩
    cases holds : task.stage.holds with
    | true => exact .inl rfl
    | false =>
        rw [Stage.claims, holds, Bool.false_or] at claims
        obtain ⟨event, since, stage⟩ := Stage.waiting_of_isQueued claims
        have left : thread ∉ w.queue := h.outside thread held
        refine .inr ⟨event, since, stage, Bool.and_eq_true_iff.mpr ⟨decide_eq_true ?_, isOver_queued_iff.mpr left⟩⟩
        rcases h.prompt s task member event since stage with ⟨inside, -⟩ | woken
        · exact absurd (is ▸ inside) left
        · exact woken
  queue thread inside := by
    obtain ⟨s, task, head, is⟩ := h.lined thread inside
    exact ⟨s, task, List.mem_of_mem_head? head, is⟩
  free := h.free
  dropped thread id started dropped := by
    apply h.manned
    have contended := w.debugger.contended thread id false
    rw [dropped] at contended
    rw [Debugger.isStarted_eq] at started
    rw [World.holder]
    generalize w.debugger.ticket = ticket at contended started
    generalize (w.debugger.contend thread id false).2.ticket = ticket' at contended
    cases contended with
    | inactive => cases started
    | reentrant => rfl

/-- The calls of an event follow a script of its kind up to the first one that fails, whose error is then the
result of the event, and nothing else makes it fail: in every state, for every front-end, and also where the
thread has waited before the first call. When the event is over, its thread does not hold the ticket, unless it
held it when the event arrived, and the ticket is kept from nobody: in every run, whatever is done in it until
then. -/
theorem conducted_and_returned {σ ε : Type} (front : FrontEnd σ ε) (idle : ∀ s, w₀.tasks s = [])
    (own : w₀.debugger.host.OwnThreads) (inactive : w₀.debugger.session = none) (course : Course Anything w₀ w)
    (s : Nat) (event : Event) :
    Records event (handleEvent front s event) (handleEvent front.recorded s event) ∧
      (∀ pending, Records pending.event (continueEvent front pending) (continueEvent front.recorded pending)) ∧
      (w.IsFree s → w.holder ≠ some (w.debugger.currentThread s).1 →
        ∀ w', Course (Ongoing s (w.tasks s).length) (w.arrive s event) w' →
          (w'.tasks s).length = (w.tasks s).length →
            w'.holder ≠ some (w.debugger.currentThread s).1 ∧ w'.Served) := by
  refine ⟨handleEvent_records front s event, continueEvent_records front, fun free other w' way ended => ?_⟩
  have lodged₀ : w₀.Lodged := .of_idle idle own (.of_ended inactive)
  have lodged := course.lodged lodged₀
  have ticketed := course.ticketed lodged₀ (.of_inactive idle inactive)
  rcases arrived : w.debugger.arrive s event with ⟨_ | ⟨thread, id⟩, d⟩
  · -- The event is of no interest.
    have arrives : w.arrive s event = w.become d := by simp only [World.arrive, arrived]
    obtain rfl := way.eq_of_over (by rw [arrives]; rfl)
    have ticket := (w.debugger.tends_arrive s event).ticket
    rw [arrived] at ticket
    have holder : (w.arrive s event).holder = w.holder := by
      rw [arrives]
      exact congrArg (·.bind (·.1)) ticket
    rw [holder]
    exact ⟨other, (ticketed.acts lodged (.move (.arrive event free))).served⟩
  · rw [Debugger.thread_of_arrive arrived] at other ⊢
    have underway := way.underway (ticketed.underway lodged free arrived other)
    exact ⟨underway.returned ended, underway.ticketed.served⟩

def soonTraced : World :=
  unstarted.afterwards [(0, .move (.request (.debugger .start))),
    (0, .move (.request (.debugger (.setTracing true)))), (0, .move (.request (.debugger .interrupt))),
    (0, .move (.register "worker")), (1, .move (.begin ⟨2, "worker"⟩))]

def untraced : List (Nat × Act) :=
  [(0, .move .ask), (0, .move .dispatch), (1, .move (.arrive bareLine)), (1, .move .ask), (0, .move .fail),
    (0, .move .release)]

def passedOn : World := ((soonTraced.arrive 0 bareLine).follow? (Ongoing 0 0) untraced).getD unstarted

def unwilling : FrontEnd Unit Unit := fun _ _ => return .error ()

theorem returned_after_failure :
    Course Anything unstarted soonTraced ∧ Course (Ongoing 0 0) (soonTraced.arrive 0 bareLine) passedOn ∧
      kindsOf (handleEvent unwilling.recorded 0 bareLine (soonTraced.debugger, (), [])).2.2.2 = [.tracing] ∧
      Records bareLine (handleEvent unwilling 0 bareLine) (handleEvent unwilling.recorded 0 bareLine) ∧
      passedOn.holder = some ⟨2, "worker"⟩ ∧
      passedOn.holder ≠ some (soonTraced.debugger.currentThread 0).1 ∧ passedOn.Served := by
  have course : Course Anything unstarted soonTraced := course_afterwards _ _
  have way : Course (Ongoing 0 0) (soonTraced.arrive 0 bareLine) passedOn := course_of_follow? untraced rfl
  have conducted := conducted_and_returned unwilling (fun _ => rfl) Host.ownThreads_initial rfl course 0 bareLine
  obtain ⟨returned, served⟩ := conducted.2.2 (by decide) (by decide) passedOn way rfl
  exact ⟨course, way, by decide +kernel, conducted.1, rfl, returned, served⟩

end World

end EventDebugger
