import EventDebugger.Proofs.Histories
import EventDebugger.Proofs.Ticket.Turns

/-!
# The ticket is handed over

In every run, restarts of the debugger included, whoever holds the ticket has an event on its way that got the
ticket or waits for it, whoever is in the queue waits with an event, and whoever left the queue was woken up.

* `World.Acts.hands`: what a step does to the ticket, its queue and the tasks.
* `World.Course.ticketed`: the invariant of the ticket.
-/

namespace EventDebugger

namespace Debugger

variable {d d' d'' : Debugger} {system : Nat} {thread : Thread} {id : ContextId} {granted : Bool}

/-! ## Wake-ups -/

theorem wakeups_entriesFor (d : Debugger) (table : ThreadTable) (threads : List Thread) :
    (d.entriesFor table threads).2.wakeups = d.wakeups := by
  induction threads generalizing d with
  | nil => rfl
  | cons thread threads ih =>
      simp only [entriesFor]
      split
      · exact ih d
      · exact ih (d.newContext thread).2

theorem Edit.wakeups_le (edit : Edit system d d') : d.wakeups ≤ d'.wakeups := by
  cases edit with
  | counts rest => exact Nat.le_of_eq (congrArg Debugger.wakeups rest).symm
  | wakeUp => exact Nat.le_succ _
  | track active thread =>
      simp only [Debugger.track]
      split <;> exact Nat.le_refl _
  | rebuild => exact Nat.le_of_eq (d.wakeups_entriesFor _ _).symm
  | _ => exact Nat.le_refl _

theorem Edits.wakeups_le (edits : Edits system d d') : d.wakeups ≤ d'.wakeups := by
  induction edits with
  | refl => exact Nat.le_refl _
  | tail _ edit ih => exact Nat.le_trans ih edit.wakeups_le

theorem wakeups_of_parked (parks : d.contend thread id granted = (.wait .parked, d')) : d.wakeups < d'.wakeups := by
  obtain ⟨session, letIn⟩ := letIn_of_contend parks (by decide) (by decide)
  simp only [Debugger.letIn] at letIn
  split at letIn
  · cases letIn
    exact Nat.lt_succ_self _
  · cases letIn

theorem wakeups_release (d : Debugger) : d.release.wakeups = d.wakeups + 1 := by
  simp only [release, pruneWhenDue]
  split
  · rfl
  · split <;> rfl

/-! ## The ticket between two requests for it -/

/-- A later debugger, in which nobody asked for the ticket or gave it back: it is where it was, or a session
began or ended, and at its end the waiting threads were woken up. -/
inductive Endures (d d' : Debugger) : Prop where
  | same (ticket : d'.ticket = d.ticket)
  | begins (before : d.ticket = none) (after : d'.ticket = some (none, []))
  | ends (after : d'.ticket = none) (woken : d.wakeups < d'.wakeups)

theorem Turns.endures (turns : Turns d d') : Endures d d' := by
  cases turns.switches with
  | lasts => exact .same rfl
  | begins count inactive => exact .begins (by rw [ticket, inactive, Option.map_none]) rfl
  | ends => exact .ends rfl (Nat.lt_succ_self _)

theorem Turns.wakeups_le (turns : Turns d d') : d.wakeups ≤ d'.wakeups := by
  cases turns.switches with
  | lasts | begins => exact Nat.le_refl _
  | ends => exact Nat.le_succ _

theorem Touches.wakeups_eq (touches : Touches system id d d') : d'.wakeups = d.wakeups := by rw [touches.rest]

theorem Touches.endures (touches : Touches system id d d') (h : Endures d' d'') : Endures d d'' := by
  cases h with
  | same ticket => exact .same (ticket.trans touches.keeps.ticket)
  | begins before after => exact .begins (touches.keeps.ticket.symm.trans before) after
  | ends after woken => exact .ends after (touches.wakeups_eq ▸ woken)

theorem endures_dispatch (d : Debugger) (system : Nat) (id : ContextId) (event : Event) :
    Endures d (d.dispatch system id event).2 := by
  cases exits : event.isExit with
  | false => exact .same (d.touches_dispatch system id event exits).keeps.ticket
  | true =>
      obtain ⟨last, touches, same | ended⟩ := d.dispatch_exit system id event exits
      · exact same ▸ .same touches.keeps.ticket
      · rw [ended]
        exact touches.endures (Turns.forceStop last).endures

theorem endures_request (d : Debugger) (request : Request) (system : Nat) :
    Endures d (request.serve system d) := by
  cases activation : request.isActivation with
  | false => exact .same (request.tends_request system d activation).ticket
  | true =>
      refine (request.turns system d ?_).endures
      cases request with
      | context => cases activation
      | debugger command => cases command <;> first | rfl | cases activation

theorem Shape.wakeups_le (shape : Shape d d') : d.wakeups ≤ d'.wakeups := by
  cases shape with
  | edits system edits => exact edits.wakeups_le
  | touches system id touches => exact Nat.le_of_eq touches.wakeups_eq.symm
  | exits system id last touches ended =>
      rw [ended, ← touches.wakeups_eq]
      exact (Turns.forceStop last).wakeups_le
  | turns turns => exact turns.wakeups_le
  | skips id on same => exact Nat.le_of_eq (congrArg Debugger.wakeups same).symm
  | host host operates same => exact Nat.le_of_eq (congrArg Debugger.wakeups same).symm

theorem History.wakeups_le (history : History d d') : d.wakeups ≤ d'.wakeups := by
  induction history with
  | refl => exact Nat.le_refl _
  | tail _ operates ih => exact Nat.le_trans ih operates.shape.wakeups_le

end Debugger

/-! ## Tasks around the ticket -/

namespace Stage

def claims (stage : Stage) : Bool := stage.holds || stage.isQueued

variable {stage : Stage}

theorem claims_of_holds (holds : stage.holds) : stage.claims := by rw [claims, holds, Bool.true_or]

theorem claims_of_isQueued (queued : stage.isQueued) : stage.claims := by rw [claims, queued, Bool.or_true]

theorem not_isQueued_of_holds (holds : stage.holds) : ¬ stage.isQueued := by
  cases stage <;> first | exact Bool.false_ne_true | cases holds

theorem not_isQueued_of_inFront (front : stage.inFront) : ¬ stage.isQueued := by
  cases stage <;> first | exact Bool.false_ne_true | cases front

theorem not_isInspecting_of_claims (claims : stage.claims) : stage.isInspecting = false := by
  cases stage <;> first | rfl | cases claims

theorem claims_of_isOutside (outside : stage.isOutside) (idle : ¬ stage.isQueued) : stage.claims = false := by
  rw [claims, eq_false_of_ne_true idle, Bool.or_false]
  cases stage <;> first | rfl | cases outside

theorem waiting_of_isQueued (queued : stage.isQueued) : ∃ event since, stage = .waiting event .queued since := by
  cases stage with
  | waiting event reason since =>
      cases reason with
      | queued => exact ⟨event, since, rfl⟩
      | parked => cases queued
  | _ => cases queued

end Stage

theorem Outcome.holds_stage (outcome : Outcome) : outcome.stage.holds := by cases outcome <;> rfl

/-- Whether a thread has an event that got the ticket or waits for it. -/
def Claimed (tasks : Nat → List Task) (thread : Thread) : Prop :=
  HasTask tasks fun task => task.thread = thread ∧ task.stage.claims

def Lined (tasks : Nat → List Task) (queue : List Thread) : Prop :=
  ∀ thread ∈ queue, ∃ s, ∃ task ∈ (tasks s).head?, task.thread = thread ∧ task.stage.isQueued

theorem Lined.update {tasks : Nat → List Task} {s : Nat} {own' : List Task} {queue queue' : List Thread}
    (lined : Lined tasks queue) (subset : queue' ⊆ queue)
    (left : ∀ head ∈ (tasks s).head?, head.stage.isQueued → head.thread ∉ queue') :
    Lined (Function.update tasks s own') queue' := by
  intro thread member
  obtain ⟨s', task, head, same, queued⟩ := lined thread (subset member)
  have ne : s' ≠ s := by
    rintro rfl
    exact left task head queued (same ▸ member)
  exact ⟨s', task, by rwa [Function.update_of_ne ne], same, queued⟩

theorem Lined.update_cons {tasks : Nat → List Task} {s : Nat} {task : Task} {rest own' : List Task}
    {queue queue' : List Thread} (lined : Lined tasks queue) (eq : tasks s = task :: rest) (subset : queue' ⊆ queue)
    (left : task.stage.isQueued → task.thread ∉ queue') : Lined (Function.update tasks s own') queue' := by
  refine lined.update subset ?_
  rw [eq]
  rintro _ ⟨rfl⟩
  exact left

def Manned (tasks : Nat → List Task) (holder : Option Thread) : Prop :=
  ∀ thread, holder = some thread → Claimed tasks thread

def Task.Prompt (queue : List Thread) (wakeups : Nat) (task : Task) : Prop :=
  ∀ event since, task.stage = .waiting event .queued since →
    task.thread ∈ queue ∧ since ≤ wakeups ∨ since < wakeups

namespace Task.Prompt

variable {queue queue' : List Thread} {wakeups wakeups' : Nat} {task : Task}

theorem of_not_queued (idle : ¬ task.stage.isQueued) : task.Prompt queue wakeups := by
  intro event since stage
  rw [stage] at idle
  exact absurd rfl idle

theorem later (h : task.Prompt queue wakeups)
    (passes : queue ⊆ queue' ∧ wakeups ≤ wakeups' ∨ wakeups < wakeups') : task.Prompt queue' wakeups' := by
  intro event since stage
  have seen : since ≤ wakeups := by
    rcases h event since stage with ⟨-, bound⟩ | woken
    · exact bound
    · exact Nat.le_of_lt woken
  rcases passes with ⟨queued, later⟩ | later
  · rcases h event since stage with ⟨member, bound⟩ | woken
    · exact .inl ⟨queued member, Nat.le_trans bound later⟩
    · exact .inr (Nat.lt_of_lt_of_le woken later)
  · exact .inr (Nat.lt_of_le_of_lt seen later)

end Task.Prompt

inductive Aside : List Task → List Task → Prop where
  | same (own : List Task) : Aside own own
  | begins {task : Task} {own : List Task} (free : ∀ head ∈ own.head?, head.stage.inFront)
      (fresh : task.stage.claims = false) : Aside own (task :: own)
  | goesOn {task : Task} {stage : Stage} {rest : List Task} (before : task.stage.holds) (after : stage.holds) :
      Aside (task :: rest) ({ task with stage } :: rest)
  | ends {task : Task} {rest : List Task} (unclaimed : task.stage.claims = false) : Aside (task :: rest) rest

theorem Aside.claims {own own' : List Task} (changes : Aside own own') {task : Task} (member : task ∈ own)
    (claims : task.stage.claims) : ∃ task' ∈ own', task'.thread = task.thread ∧ task'.stage.claims := by
  cases changes with
  | same => exact ⟨task, member, rfl, claims⟩
  | begins => exact ⟨task, List.mem_cons_of_mem _ member, rfl, claims⟩
  | goesOn _ after =>
      rcases List.mem_cons.mp member with rfl | member
      · exact ⟨_, List.mem_cons_self, rfl, Stage.claims_of_holds after⟩
      · exact ⟨task, List.mem_cons_of_mem _ member, rfl, claims⟩
  | ends unclaimed =>
      rcases List.mem_cons.mp member with rfl | member
      · exact absurd (unclaimed.symm.trans claims) Bool.false_ne_true
      · exact ⟨task, member, rfl, claims⟩

theorem Aside.lined {tasks : Nat → List Task} {s : Nat} {own' : List Task} {queue : List Thread}
    (changes : Aside (tasks s) own') (lined : Lined tasks queue) : Lined (Function.update tasks s own') queue := by
  generalize eq : tasks s = own at changes
  cases changes with
  | same =>
      rw [← eq, Function.update_eq_self]
      exact lined
  | begins free fresh =>
      exact lined.update (List.Subset.refl _) fun head is queued =>
        absurd queued (Stage.not_isQueued_of_inFront (free head (eq ▸ is)))
  | goesOn before after =>
      exact lined.update_cons eq (List.Subset.refl _) fun queued =>
        absurd queued (Stage.not_isQueued_of_holds before)
  | ends unclaimed =>
      exact lined.update_cons eq (List.Subset.refl _) fun queued =>
        absurd (unclaimed.symm.trans (Stage.claims_of_isQueued queued)) Bool.false_ne_true

namespace World

variable {w w' : World} {s : Nat} {act : Act} {own own' rest : List Task} {thread : Thread}
  {tasks : Nat → List Task}

inductive Hands (w w' : World) : List Task → List Task → Prop where
  | aside {own own' : List Task} (endures : w.debugger.Endures w'.debugger) (changes : Aside own own') :
      Hands w w' own own'
  | admits {task task' : Task} {rest : List Task} (left : task.thread ∉ w.queue)
      (same : task'.thread = task.thread) (holds : task'.stage.holds) (holder : w'.holder = some task.thread)
      (queue : w'.queue = w.queue) : Hands w w' (task :: rest) (task' :: rest)
  | joins {task : Task} {rest : List Task} {event : Event} {other : Thread} (before : w.holder = some other)
      (ne : other ≠ task.thread) (holder : w'.holder = some other)
      (queue : w'.queue = if w.queue.contains task.thread then w.queue else w.queue ++ [task.thread]) :
      Hands w w' (task :: rest) ({ task with stage := .waiting event .queued w'.debugger.wakeups } :: rest)
  | drops {task : Task} {rest : List Task} (left : task.thread ∉ w.queue)
      (unclaimed : task.stage.claims = false ∨ w'.holder = none) (holder : w'.holder = w.holder)
      (queue : w'.queue = w.queue) : Hands w w' (task :: rest) rest
  /-- The ticket goes to the first thread of the queue: an event is over, or its thread parks. -/
  | handsOver {task : Task} {rest own' : List Task} (left : task.thread ∉ w.queue)
      (ended : own' = rest ∨ ∃ stage : Stage, stage.claims = false ∧ own' = { task with stage } :: rest)
      (holder : w'.holder = w.queue.head?) (queue : w'.queue = w.queue.tail)
      (woken : w.debugger.wakeups < w'.debugger.wakeups) : Hands w w' (task :: rest) own'

/-! ## Steps -/

theorem holder_of_ticket {holder : Option Thread} {queue : List Thread}
    (ticket : w.debugger.ticket = some (holder, queue)) : w.holder = holder ∧ w.queue = queue := by
  rw [World.holder, World.queue, ticket]
  exact ⟨rfl, rfl⟩

theorem holder_of_inactive (ticket : w.debugger.ticket = none) : w.holder = none ∧ w.queue = [] := by
  rw [World.holder, World.queue, ticket]
  exact ⟨rfl, rfl⟩

theorem isOver_queued_iff {id : ContextId} : w.debugger.isOver thread id .queued ↔ thread ∉ w.queue := by
  simp only [Debugger.isOver, World.queue, Debugger.ticket]
  cases w.debugger.session <;> simp

theorem holder_of_endures (endures : w.debugger.Endures w'.debugger) :
    w'.holder = w.holder ∧ w'.queue = w.queue ∨
      (w'.holder = none ∧ w'.queue = []) ∧ (w.queue = [] ∨ w.debugger.wakeups < w'.debugger.wakeups) := by
  cases endures with
  | same ticket =>
      rw [World.holder, World.queue, ticket]
      exact .inl ⟨rfl, rfl⟩
  | begins before after => exact .inr ⟨holder_of_ticket after, .inl (holder_of_inactive before).2⟩
  | ends after woken => exact .inr ⟨holder_of_inactive after, .inr woken⟩

theorem not_mem_queue_of_head (lodged : w.Lodged) (lined : Lined w.tasks w.queue) {task : Task}
    (tasks : w.tasks s = task :: rest) (event : task.stage.isInspecting = false) (idle : ¬ task.stage.isQueued) :
    task.thread ∉ w.queue := by
  intro member
  obtain ⟨s', other, head, same, queued⟩ := lined _ member
  have inside : other ∈ w.tasks s' := List.mem_of_mem_head? head
  have bound := lodged.bound s' other inside (Stage.not_isInspecting_of_claims (Stage.claims_of_isQueued queued))
  obtain rfl : s' = s :=
    lodged.own.injective bound (same ▸ lodged.bound s task (mem_innermost tasks) event)
  rw [tasks] at head
  cases head
  exact idle queued

theorem hands_contend {task : Task} {event : Event} {granted : Bool} (tasks : w.tasks s = task :: rest)
    (outside : task.stage.isOutside) (fresh : granted = false → ¬ task.stage.isQueued)
    (left : task.thread ∉ w.queue) : Hands w (w.contend s task rest event granted) (w.tasks s)
      ((w.contend s task rest event granted).tasks s) := by
  have contends := w.debugger.contended task.thread task.context granted
  rw [tasks]
  simp only [World.contend]
  rcases contended : w.debugger.contend task.thread task.context granted with ⟨turn, d⟩
  have parks (waits : turn = .wait .parked) : w.debugger.wakeups < d.wakeups :=
    Debugger.wakeups_of_parked (waits ▸ contended)
  rw [contended] at contends
  have reads {holder : Option Thread} {queue : List Thread} (after : d.ticket = some (holder, queue))
      (own : List Task) : ((w.become d).set s own).holder = holder ∧ ((w.become d).set s own).queue = queue :=
    holder_of_ticket (w := (w.become d).set s own) after
  generalize before : w.debugger.ticket = ticket at contends
  generalize after : d.ticket = ticket' at contends
  cases contends with
  | inactive =>
      obtain ⟨holder, queue⟩ := holder_of_inactive before
      obtain ⟨holder', queue'⟩ := holder_of_inactive (w := (w.become d).set s rest) after
      rw [tasks_set_self]
      exact .drops left (.inr holder') (holder'.trans holder.symm) (queue'.trans queue.symm)
  | taken waiting | granted waiting =>
      obtain ⟨holder, queue⟩ := reads after
        ({ task with stage := .admitted event, activation := w.activation } :: rest)
      rw [tasks_set_self]
      exact .admits left rfl rfl holder (queue.trans (holder_of_ticket before).2.symm)
  | reentrant waiting asked =>
      obtain ⟨holder, queue⟩ := reads after rest
      obtain ⟨holder', queue'⟩ := holder_of_ticket before
      rw [tasks_set_self]
      exact .drops left (.inl (Stage.claims_of_isOutside outside (fresh asked))) (holder.trans holder'.symm)
        (queue.trans queue'.symm)
  | queued waiting other =>
      obtain ⟨holder, queue⟩ := reads after
        ({ task with stage := .waiting event .queued d.wakeups } :: rest)
      obtain ⟨holder', queue'⟩ := holder_of_ticket before
      rw [tasks_set_self]
      exact .joins holder' other holder (queue'.symm ▸ queue)
  | parked waiting | handedOn waiting =>
      obtain ⟨holder, queue⟩ := reads after
        ({ task with stage := .waiting event .parked d.wakeups } :: rest)
      have queue' := (holder_of_ticket before).2
      rw [tasks_set_self]
      exact .handsOver left (.inr ⟨_, rfl, rfl⟩) (queue'.symm ▸ holder) (queue'.symm ▸ queue) (parks rfl)

theorem hands_release {task : Task} (tasks : w.tasks s = task :: rest) (left : task.thread ∉ w.queue) :
    Hands w ((w.become w.debugger.release).set s rest) (w.tasks s)
      (((w.become w.debugger.release).set s rest).tasks s) := by
  have handed : ((w.become w.debugger.release).set s rest).holder = w.queue.head? ∧
      ((w.become w.debugger.release).set s rest).queue = w.queue.tail := by
    change w.debugger.release.ticket.bind (·.1) = _ ∧ w.debugger.release.ticket.elim [] (·.2) = _
    rw [w.debugger.ticket_release, World.queue]
    cases w.debugger.ticket <;> exact ⟨rfl, rfl⟩
  rw [tasks_set_self, tasks]
  refine .handsOver left (.inl rfl) handed.1 handed.2 ?_
  exact Nat.lt_of_lt_of_eq (Nat.lt_succ_self _) w.debugger.wakeups_release.symm

theorem Acts.hands (acts : w.Acts s act w') (lodged : w.Lodged) (lined : Lined w.tasks w.queue) :
    Hands w w' (w.tasks s) (w'.tasks s) := by
  have unchanged {d : Debugger} (ticket : d.ticket = w.debugger.ticket) :
      Hands w (w.become d) (w.tasks s) (w.tasks s) := .aside (.same ticket) (.same _)
  have proceeds {task : Task} {rest : List Task} {piece : Outcome × Debugger} (tasks : w.tasks s = task :: rest)
      (holds : task.stage.holds) (endures : w.debugger.Endures piece.2) :
      Hands w (w.proceed s task rest piece) (w.tasks s) ((w.proceed s task rest piece).tasks s) := by
    rw [tasks_proceed, tasks]
    exact .aside endures (.goesOn holds piece.1.holds_stage)
  cases acts with
  | move step =>
      cases step with
      | arrive event free =>
          have ticket := (w.debugger.tends_arrive s event).ticket
          simp only [World.arrive]
          rcases arrived : w.debugger.arrive s event with ⟨_ | ⟨thread, id⟩, d⟩
          all_goals rw [arrived] at ticket
          · exact unchanged ticket
          · rw [tasks_set_self]
            exact .aside (.same ticket) (.begins free rfl)
      | @ask task rest event tasks stage =>
          have idle : ¬ task.stage.isQueued := by
            rw [stage]
            exact Bool.false_ne_true
          exact hands_contend tasks (by rw [stage]; rfl) (fun _ => idle)
            (not_mem_queue_of_head lodged lined tasks (by rw [stage]; rfl) idle)
      | @awake task rest event reason since tasks stage awake =>
          refine hands_contend tasks (by rw [stage]; rfl) (fun fresh queued => ?_) ?_
          · rw [stage] at queued
            cases reason with
            | queued => cases fresh
            | parked => cases queued
          · cases reason with
            | queued => exact isOver_queued_iff.mp (Bool.and_eq_true_iff.mp awake).2
            | parked =>
                refine not_mem_queue_of_head lodged lined tasks (by rw [stage]; rfl) ?_
                rw [stage]
                exact Bool.false_ne_true
      | dispatch tasks stage => exact proceeds tasks (by rw [stage]; rfl) (w.debugger.endures_dispatch s _ _)
      | answer tasks stage =>
          exact proceeds tasks (by rw [stage]; rfl) (.same (w.debugger.touches_run s _ _).keeps.ticket)
      | fail tasks stage => exact proceeds tasks (by rw [stage]; rfl) (.same rfl)
      | release tasks stage =>
          exact hands_release tasks (not_mem_queue_of_head lodged lined tasks (by rw [stage]; rfl)
            (Stage.not_isQueued_of_holds (by rw [stage]; rfl)))
      | request request free => exact .aside (w.debugger.endures_request request s) (.same _)
      | enterPostMortem free =>
          have ticket := (w.debugger.tends_enterPostMortem s).ticket
          simp only [World.inspect]
          split
          · next entered => exact unchanged (by rw [entered] at ticket; exact ticket)
          · next entered =>
              rw [entered] at ticket
              rw [tasks_set_self]
              exact .aside (.same ticket) (.begins free rfl)
      | leavePostMortem tasks stage =>
          rw [tasks_set_self, tasks]
          exact .aside (.same (w.debugger.tends_leavePostMortem s _).ticket) (.ends (by rw [stage]; rfl))
      | execute | register | begin | exit => exact unchanged rfl
  | load stop free => exact unchanged (w.debugger.ticket_prepareLoad s stop)
  | meet free => exact unchanged (w.debugger.tends_currentContext s).ticket
  | skip | keep => exact unchanged rfl

theorem Acts.tasks_eq (acts : w.Acts s act w') : w'.tasks = Function.update w.tasks s (w'.tasks s) := by
  funext s'
  by_cases same : s' = s
  · rw [same, Function.update_self]
  · rw [Function.update_of_ne same]
    cases acts with
    | move step => exact step.tasks_ne same
    | load | meet | skip | keep => rfl

/-! ## The queue -/

theorem Hands.lined (hands : Hands w w' (tasks s) own') (lined : Lined tasks w.queue) :
    Lined (Function.update tasks s own') w'.queue := by
  generalize eq : tasks s = own at hands
  cases hands with
  | aside endures changes =>
      rcases holder_of_endures endures with ⟨-, same⟩ | ⟨⟨-, empty⟩, -⟩
      · subst eq
        rw [same]
        exact changes.lined lined
      · rw [empty]
        exact List.forall_mem_nil _
  | admits left same holds holder queue =>
      rw [queue]
      exact lined.update_cons eq (List.Subset.refl _) fun _ => left
  | @joins task rest event other before ne holder queue =>
      intro thread member
      by_cases same : thread = task.thread
      · let queued : Task := { task with stage := .waiting event .queued w'.debugger.wakeups }
        exact ⟨s, queued, by rw [Function.update_self]; rfl, same.symm, rfl⟩
      · have old : thread ∈ w.queue := by
          rw [queue] at member
          split at member
          · exact member
          · exact (List.mem_append.mp member).resolve_right fun last => same (List.mem_singleton.mp last)
        obtain ⟨s', outer, head, is, queued⟩ := lined thread old
        have elsewhere : s' ≠ s := by
          rintro rfl
          rw [eq] at head
          cases head
          exact same is.symm
        exact ⟨s', outer, by rwa [Function.update_of_ne elsewhere], is, queued⟩
  | drops left unclaimed holder queue =>
      rw [queue]
      exact lined.update_cons eq (List.Subset.refl _) fun _ => left
  | handsOver left ended holder queue woken =>
      rw [queue]
      exact lined.update_cons eq (fun _ => List.mem_of_mem_tail) fun _ member =>
        left (List.mem_of_mem_tail member)

/-! ## The holder -/

theorem Hands.manned (hands : Hands w w' (tasks s) own') (lined : Lined tasks w.queue)
    (manned : Manned tasks w.holder) : Manned (Function.update tasks s own') w'.holder := by
  have keeps (same : w'.holder = w.holder) (claims : ∀ task ∈ tasks s, task.stage.claims →
      ∃ task' ∈ own', task'.thread = task.thread ∧ task'.stage.claims) :
      Manned (Function.update tasks s own') w'.holder := by
    intro thread holds
    rcases (hasTask_split s).mp (manned thread (same ▸ holds)) with ⟨task, member, rfl, is⟩ | others
    · exact hasTask_update.mpr (.inl (claims task member is))
    · exact hasTask_update.mpr (.inr others)
  generalize eq : tasks s = own at hands
  rw [eq] at keeps
  cases hands with
  | aside endures changes =>
      rcases holder_of_endures endures with ⟨same, -⟩ | ⟨⟨none, -⟩, -⟩
      · exact keeps same fun task => changes.claims
      · rw [none]
        rintro _ ⟨⟩
  | @admits task task' rest left same holds holder queue =>
      intro thread held
      cases holder.symm.trans held
      exact hasTask_update.mpr (.inl ⟨task', List.mem_cons_self, same, Stage.claims_of_holds holds⟩)
  | joins before ne holder queue =>
      refine keeps (holder.trans before.symm) fun other member claims => ?_
      rcases List.mem_cons.mp member with rfl | member
      · exact ⟨_, List.mem_cons_self, rfl, rfl⟩
      · exact ⟨other, List.mem_cons_of_mem _ member, rfl, claims⟩
  | drops left unclaimed holder queue =>
      rcases unclaimed with unclaimed | none
      · refine keeps holder fun other member claims => ?_
        rcases List.mem_cons.mp member with rfl | member
        · exact absurd (unclaimed.symm.trans claims) Bool.false_ne_true
        · exact ⟨other, member, rfl, claims⟩
      · rw [none]
        rintro _ ⟨⟩
  | handsOver left ended holder queue woken =>
      -- The new holder waits with the innermost event of another system thread.
      intro thread held
      have member : thread ∈ w.queue := List.mem_of_mem_head? (holder.symm.trans held)
      obtain ⟨s', other, head, is, queued⟩ := lined thread member
      have ne : s' ≠ s := by
        rintro rfl
        rw [eq] at head
        cases head
        exact left (is ▸ member)
      exact hasTask_update.mpr
        (.inr ⟨s', ne, other, List.mem_of_mem_head? head, is, Stage.claims_of_isQueued queued⟩)

/-! ## Wake-ups of waiting tasks -/

theorem Hands.passes (hands : Hands w w' own own') (later : w.debugger.wakeups ≤ w'.debugger.wakeups) :
    w.queue ⊆ w'.queue ∧ w.debugger.wakeups ≤ w'.debugger.wakeups ∨
      w.debugger.wakeups < w'.debugger.wakeups := by
  cases hands with
  | aside endures changes =>
      rcases holder_of_endures endures with ⟨-, same⟩ | ⟨-, empty | woken⟩
      · exact .inl ⟨same ▸ List.Subset.refl _, later⟩
      · exact .inl ⟨empty ▸ List.nil_subset _, later⟩
      · exact .inr woken
  | admits left same holds holder queue => exact .inl ⟨queue ▸ List.Subset.refl _, later⟩
  | joins before ne holder queue =>
      refine .inl ⟨?_, later⟩
      rw [queue]
      split
      · exact List.Subset.refl _
      · exact List.subset_append_left _ _
  | drops left unclaimed holder queue => exact .inl ⟨queue ▸ List.Subset.refl _, later⟩
  | handsOver left ended holder queue woken => exact .inr woken

theorem Hands.prompt (hands : Hands w w' own own') (later : w.debugger.wakeups ≤ w'.debugger.wakeups)
    (prompt : ∀ task ∈ own, task.Prompt w.queue w.debugger.wakeups) :
    ∀ task ∈ own', task.Prompt w'.queue w'.debugger.wakeups := by
  have before : ∀ task ∈ own, task.Prompt w'.queue w'.debugger.wakeups :=
    fun task member => (prompt task member).later (hands.passes later)
  cases hands with
  | aside endures changes =>
      cases changes with
      | same => exact before
      | begins free fresh =>
          exact List.forall_mem_cons.mpr ⟨.of_not_queued fun queued =>
            absurd (fresh.symm.trans (Stage.claims_of_isQueued queued)) Bool.false_ne_true, before⟩
      | goesOn _ after =>
          exact List.forall_mem_cons.mpr
            ⟨.of_not_queued (Stage.not_isQueued_of_holds after), (List.forall_mem_cons.mp before).2⟩
      | ends => exact (List.forall_mem_cons.mp before).2
  | admits left same holds holder queue =>
      exact List.forall_mem_cons.mpr
        ⟨.of_not_queued (Stage.not_isQueued_of_holds holds), (List.forall_mem_cons.mp before).2⟩
  | @joins task rest event other _ ne holder queue =>
      refine List.forall_mem_cons.mpr ⟨fun event' since stage => ?_, (List.forall_mem_cons.mp before).2⟩
      cases stage
      refine .inl ⟨?_, Nat.le_refl _⟩
      rw [queue]
      split
      · next inside => exact List.contains_iff_mem.mp inside
      · exact List.mem_append_right _ (List.mem_singleton_self _)
  | drops left unclaimed holder queue => exact (List.forall_mem_cons.mp before).2
  | handsOver left ended holder queue woken =>
      have outer := (List.forall_mem_cons.mp before).2
      rcases ended with rfl | ⟨stage, unclaimed, rfl⟩
      · exact outer
      · exact List.forall_mem_cons.mpr ⟨.of_not_queued fun queued =>
          absurd (unclaimed.symm.trans (Stage.claims_of_isQueued queued)) Bool.false_ne_true, outer⟩

/-! ## The invariant -/

structure Ticketed (w : World) : Prop where
  lined : Lined w.tasks w.queue
  nodup : w.queue.Nodup
  outside : ∀ thread, w.holder = some thread → thread ∉ w.queue
  free : w.holder = none → w.queue = []
  manned : Manned w.tasks w.holder
  prompt : ∀ s, ∀ task ∈ w.tasks s, task.Prompt w.queue w.debugger.wakeups

theorem Ticketed.of_inactive (idle : ∀ s, w.tasks s = []) (inactive : w.debugger.session = none) : w.Ticketed := by
  obtain ⟨holder, queue⟩ := holder_of_inactive (w := w) (by rw [Debugger.ticket, inactive, Option.map_none])
  refine ⟨queue ▸ List.forall_mem_nil _, queue ▸ .nil, ?_, fun _ => queue, ?_, fun s task member => ?_⟩
  · rw [holder]
    rintro _ ⟨⟩
  · rw [holder]
    rintro _ ⟨⟩
  · rw [idle s] at member
    cases member

theorem Hands.order (hands : Hands w w' own own') (nodup : w.queue.Nodup)
    (outside : ∀ thread, w.holder = some thread → thread ∉ w.queue) (free : w.holder = none → w.queue = []) :
    w'.queue.Nodup ∧ (∀ thread, w'.holder = some thread → thread ∉ w'.queue) ∧ (w'.holder = none → w'.queue = []) := by
  cases hands with
  | aside endures changes =>
      rcases holder_of_endures endures with ⟨holder, queue⟩ | ⟨⟨holder, queue⟩, -⟩
      · rw [holder, queue]
        exact ⟨nodup, outside, free⟩
      · rw [queue]
        exact ⟨.nil, fun _ _ => List.not_mem_nil, fun _ => rfl⟩
  | admits left same holds holder queue =>
      rw [holder, queue]
      refine ⟨nodup, ?_, fun is => by cases is⟩
      rintro _ ⟨rfl⟩
      exact left
  | joins before ne holder queue =>
      rw [holder, queue]
      refine ⟨?_, ?_, fun is => by cases is⟩
      · split
        · exact nodup
        · next unqueued =>
            have new : _ ∉ w.queue := fun member => unqueued (List.contains_iff_mem.mpr member)
            exact List.nodup_append_comm.mp (List.nodup_cons.mpr ⟨new, nodup⟩)
      · rintro _ ⟨rfl⟩ member
        split at member
        · exact outside _ before member
        · rcases List.mem_append.mp member with member | last
          · exact outside _ before member
          · exact ne (List.mem_singleton.mp last)
  | drops left unclaimed holder queue =>
      rw [holder, queue]
      exact ⟨nodup, outside, free⟩
  | handsOver left ended holder queue woken =>
      rw [holder, queue]
      cases waiting : w.queue with
      | nil => exact ⟨.nil, fun _ _ => List.not_mem_nil, fun _ => rfl⟩
      | cons first others =>
          rw [waiting] at nodup
          refine ⟨nodup.of_cons, ?_, fun is => by cases is⟩
          rintro _ ⟨rfl⟩
          exact (List.nodup_cons.mp nodup).1

theorem Ticketed.acts (h : w.Ticketed) (lodged : w.Lodged) (acts : w.Acts s act w') : w'.Ticketed := by
  have hands := acts.hands lodged h.lined
  have later := (acts.history lodged).wakeups_le
  obtain ⟨nodup, outside, free⟩ := hands.order h.nodup h.outside h.free
  have lined := hands.lined h.lined
  have manned := hands.manned h.lined h.manned
  rw [← acts.tasks_eq] at lined manned
  refine ⟨lined, nodup, outside, free, manned, fun s' => ?_⟩
  by_cases here : s' = s
  · rw [here]
    exact hands.prompt later (h.prompt s)
  · rw [acts.tasks_eq, Function.update_of_ne here]
    exact fun task member => (h.prompt s' task member).later (hands.passes later)

theorem Course.ticketed {allowed : World → Nat → Act → Prop} (course : Course allowed w w') (lodged : w.Lodged)
    (h : w.Ticketed) : w'.Ticketed := by
  induction course with
  | refl => exact h
  | step course next ok ih => exact ih.acts (course.lodged lodged) next

end World

end EventDebugger
