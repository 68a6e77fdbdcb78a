import EventDebugger.Proofs.Ticket.Turns

/-!
# Suspended contexts and parked threads

A thread asks for the ticket with every event, and finds out only then whether its context is suspended. If
it is, the thread hands the ticket on at once and parks with its event, until the context is resumed. An event
that has the ticket before its context is suspended goes on. All of this is about one activation: the debugger
may be stopped, but is not started again.

* `World.Located.step`: where the event of a parked thread is after a step.
* `World.restrained`: what holds of suspended contexts and of parked threads in all runs.
-/

namespace EventDebugger

namespace Stage

def isParked : Stage → Bool
  | .waiting _ .parked _ => true
  | _ => false

def isDispatched : Stage → Bool
  | .called _ _ | .handled => true
  | _ => false

theorem isWaiting_of_isParked {stage : Stage} (parked : stage.isParked) : stage.isWaiting := by
  cases stage with
  | waiting => rfl
  | _ => cases parked

theorem not_isQueued_of_isParked {stage : Stage} (parked : stage.isParked) : ¬ stage.isQueued := by
  cases stage with
  | waiting event reason since =>
      cases reason with
      | queued => cases parked
      | parked => exact Bool.false_ne_true
  | _ => cases parked

theorem not_inFront_of_isWaiting {stage : Stage} (waits : stage.isWaiting) : ¬ stage.inFront := by
  cases stage with
  | waiting => exact Bool.false_ne_true
  | _ => cases waits

end Stage

theorem Outcome.isDispatched_stage (outcome : Outcome) : outcome.stage.isDispatched := by
  cases outcome <;> rfl

def Context.trail (context : Context) : CallStack × Option Position × Bool × StopReason :=
  (context.stack, context.lastPosition, context.moved, context.reason)

def Context.counters (context : Context) :
    Countdown × Countdown × Bool × Bool × Option Nat × Option Nat :=
  (context.stopNext, context.stopLine, context.stepped, context.forced, context.targetDepth,
    context.finishDepth)

namespace World

variable {w w₀ w' w'' : World} {s s' : Nat} {move : Move} {act : Act}

/-! ## Suspended contexts -/

/-- No event of a context is between getting the ticket and giving it back. -/
def Quiet (w : World) (id : ContextId) : Prop :=
  ∀ s, ∀ task ∈ w.tasks s, task.context = id → ¬ task.stage.holds

/-- Steps taken while a context is suspended, apart from its thread being about to load code. -/
structure Withheld (id : ContextId) (w : World) (s : Nat) (act : Act) : Prop where
  suspended : (w.debugger.context id).suspended
  loads : ∀ stop, act = .load stop → (w.debugger.currentContext s).1 ≠ .ok id

/-- Such steps that arm no steps of the context. -/
structure Unarmed (id : ContextId) (w : World) (s : Nat) (act : Act) : Prop extends Withheld id w s act where
  steps : ∀ move, act = .move move → w.Continues id s move

theorem Quiet.acts {id : ContextId} (quiet : w.Quiet id) (acts : w.Acts s act w')
    (suspended : (w.debugger.context id).suspended) : w'.Quiet id := by
  cases acts with
  | move step =>
      intro s' task' member same holds
      cases step.holds member holds with
      | before member context activation held => exact quiet s' _ member (context.trans same) held
      | admitted resumed =>
          rw [same, suspended] at resumed
          cases resumed
  | load | meet | skip | keep => exact quiet

section

variable {id : ContextId} {P : Context → Prop} (neutral : Neutral P)
  (skips : ∀ {context}, P context → ∀ on, P { context with skipped := on })

include neutral skips

theorem Withheld.preserves (withheld : w.Withheld id s act) (acts : w.Acts s act w')
    (unarmed : Unstepped P ∨ ∀ move, act = .move move → w.Continues id s move)
    (known : id < w.debugger.contexts.size) (quiet : w.Quiet id) :
    Debugger.Preserves P id w.debugger w'.debugger := by
  cases acts with
  | move step =>
      cases dispatches : Move.isDispatch _ with
      | false => exact step.preserves neutral dispatches (unarmed.imp_right fun steps => steps _ rfl)
      | true =>
          obtain ⟨task, rest, piece, is, rfl⟩ := step.piece dispatches
          have ne : id ≠ task.context := fun same =>
            quiet s task (mem_innermost is.tasks) same.symm is.holds
          have same : (w.proceed s task rest piece).debugger.context id = w.debugger.context id :=
            is.others known ne
          intro holds
          rw [same]
          exact holds
  | load stop free =>
      exact Debugger.preserves_prepareLoad neutral.tolerant w.debugger s stop (withheld.loads stop rfl)
  | meet free => exact Debugger.preserves_currentContext neutral.tolerant w.debugger s
  | skip other on free =>
      exact Debugger.preserves_updateContext w.debugger other fun holds => skips holds on
  | keep on free => exact fun holds => holds

theorem Course.withheld {allowed : World → Nat → Act → Prop} (course : Course allowed w w')
    (withheld : ∀ {w s act}, allowed w s act → w.Withheld id s act)
    (unarmed : Unstepped P ∨
      ∀ {w s act}, allowed w s act → ∀ move, act = .move move → w.Continues id s move)
    (known : id < w.debugger.contexts.size) (quiet : w.Quiet id) :
    w'.Quiet id ∧ id < w'.debugger.contexts.size ∧ Debugger.Preserves P id w.debugger w'.debugger := by
  induction course with
  | refl => exact ⟨quiet, known, fun holds => holds⟩
  | step course next ok ih =>
      obtain ⟨quiet, known, kept⟩ := ih
      have later := quiet.acts next (withheld ok).suspended
      have keeps := (withheld ok).preserves neutral skips next (unarmed.imp_right fun steps => steps ok)
        known quiet
      exact ⟨later, Nat.lt_of_lt_of_le known next.lodges.size, kept.trans keeps⟩

end

/-! ## Parked threads -/

theorem Orderly.innermost_of_waiting (h : w.Orderly) {task : Task} (member : task ∈ w.tasks s)
    (waits : task.stage.isWaiting) : ∃ rest, w.tasks s = task :: rest := by
  cases tasks : w.tasks s with
  | nil =>
      rw [tasks] at member
      cases member
  | cons first rest =>
      rw [tasks] at member
      rcases List.mem_cons.mp member with rfl | inRest
      · exact ⟨rest, rfl⟩
      · exact absurd ((h.above tasks).1.front task inRest) (Stage.not_inFront_of_isWaiting waits)

theorem Orderly.outside_of_parked (h : w.Orderly) {task : Task} (member : task ∈ w.tasks s)
    (parked : task.stage.isParked) : w.holder ≠ some task.thread ∧ task.thread ∉ w.queue := by
  have waits := Stage.isWaiting_of_isParked parked
  obtain ⟨rest, tasks⟩ := h.innermost_of_waiting member waits
  have unqueued : ¬ IsQueued w.tasks task.thread := by
    rintro ⟨s', other, otherMember, same, queued⟩
    obtain rfl := h.same_system member otherMember same
    rw [tasks] at otherMember
    rcases List.mem_cons.mp otherMember with rfl | inRest
    · exact Stage.not_isQueued_of_isParked parked queued
    · have front := (h.above tasks).1.front other inRest
      revert front queued
      cases other.stage <;> simp [Stage.isQueued, Stage.inFront]
  cases ticket : w.debugger.ticket with
  | none =>
      rw [World.holder, World.queue, ticket]
      exact ⟨(Option.some_ne_none _).symm, List.not_mem_nil⟩
  | some pair =>
      obtain ⟨holder, waiting⟩ := pair
      have custody := h.custody ticket
      rw [holder_eq ticket, queue_eq ticket]
      refine ⟨?_, fun queued => unqueued (custody.queued _ queued)⟩
      rintro rfl
      rcases custody.held _ rfl with has | queued
      · exact h.unheld_of_waiting tasks ticket waits _ has
      · exact unqueued queued

theorem Orderly.stopped_of_dropped (h : w.Orderly) {task : Task} {rest : List Task}
    (tasks : w.tasks s = task :: rest) (waits : task.stage.isWaiting) {granted : Bool} {d : Debugger}
    (fresh : granted = false → ¬ task.stage.isQueued)
    (refused : w.debugger.contend task.thread task.context granted = (.dropped, d)) :
    w.debugger.isStarted = false := by
  have contended := w.debugger.contended task.thread task.context granted
  rw [refused] at contended
  rw [Debugger.isStarted_eq]
  cases ticket : w.debugger.ticket with
  | none => rfl
  | some pair =>
      rw [ticket] at contended
      generalize Debugger.ticket _ = ticket' at contended
      cases contended with
      | reentrant waiting asked =>
          have unqueued := fresh asked
          have parked : task.stage.isParked := by
            revert waits unqueued
            cases task.stage with
            | waiting event reason since => cases reason <;> simp [Stage.isQueued, Stage.isParked]
            | _ => exact fun waits _ => absurd waits Bool.false_ne_true
          obtain ⟨notHolder, -⟩ := h.outside_of_parked (mem_innermost tasks) parked
          exact absurd (holder_eq ticket) notHolder

/-- How often a step dispatches an event of a system thread that is on its way above `depth` tasks. -/
def dispatches (w : World) (s depth s' : Nat) (act : Act) : Nat :=
  if s' = s ∧ act = .move .dispatch ∧ (w.tasks s).length = depth + 1 then 1 else 0

/-- Runs of one activation during which an event of a system thread is on its way above `depth` tasks, with the
number of times that it was dispatched. -/
inductive Pending (s depth : Nat) (w : World) : World → Nat → Prop where
  | refl : Pending s depth w w 0
  | step {w' w'' : World} {n s' : Nat} {act : Act} (pending : Pending s depth w w' n)
      (next : w'.Acts s' act w'') (single : w'.Single s' act) (stays : depth < (w''.tasks s).length) :
      Pending s depth w w'' (n + w'.dispatches s depth s' act)

theorem Pending.course {depth n : Nat} (pending : Pending s depth w w' n) : Course Single w w' := by
  induction pending with
  | refl => exact .refl w
  | step pending next single stays ih => exact ih.step next single

/-- Where the event of a parked task is among the tasks of its system thread, after it was dispatched a number
of times. -/
inductive Located (task : Task) (rest : List Task) : Nat → List Task → Prop where
  | outside {task' : Task} (event : task'.stage.event? = task.stage.event?)
      (context : task'.context = task.context) (thread : task'.thread = task.thread)
      (undispatched : task'.stage.isWaiting ∨ task'.stage.isAdmitted) : Located task rest 0 (task' :: rest)
  | dispatched {inner : List Task} {task' : Task} (context : task'.context = task.context)
      (passed : task'.stage.isDispatched) : Located task rest 1 (inner ++ task' :: rest)

variable {task : Task} {rest : List Task} {n : Nat}

theorem Located.lowest {task' : Task} (context : task'.context = task.context)
    (passed : task'.stage.isDispatched) : Located task rest 1 (task' :: rest) :=
  @dispatched task rest [] task' context passed

theorem dispatches_ne {depth : Nat} (other : act ≠ .move .dispatch) : w.dispatches s depth s' act = 0 :=
  if_neg fun is => other is.2.1

theorem dispatches_move {depth : Nat} (other : move ≠ .dispatch) :
    w.dispatches s depth s' (.move move) = 0 := dispatches_ne fun same => other (Act.move.inj same)

theorem innermost_or_above {inner others : List Task} {task' first : Task}
    (tasks : inner ++ task' :: rest = first :: others) :
    (first = task' ∧ others = rest) ∨ ∃ inner', others = inner' ++ task' :: rest := by
  cases inner with
  | nil =>
      cases tasks
      exact .inl ⟨rfl, rfl⟩
  | cons _ inner =>
      cases tasks
      exact .inr ⟨inner, rfl⟩

theorem turns_dispatched {inner own : List Task} {task' : Task} (tasks : w.tasks s = inner ++ task' :: rest)
    (context : task'.context = task.context) (passed : task'.stage.isDispatched) (turns : w.Turns s move own)
    (stays : rest.length < own.length) :
    w.dispatches s rest.length s (.move move) = 0 ∧ Located task rest 1 own := by
  have still (inner : List Task) : Located task rest 1 (inner ++ task' :: rest) := .dispatched context passed
  have swapped {first new : Task} {others : List Task} (is : w.tasks s = first :: others)
      (above : ¬ first.stage.isDispatched) : Located task rest 1 (new :: others) := by
    rcases innermost_or_above (tasks.symm.trans is) with ⟨rfl, -⟩ | ⟨inner', rfl⟩
    · exact absurd passed above
    · exact still (new :: inner')
  -- The dispatched task itself ends only together with the whole event.
  have popped {first : Task} {others : List Task} (is : w.tasks s = first :: others)
      (stays : rest.length < others.length) : Located task rest 1 others := by
    rcases innermost_or_above (tasks.symm.trans is) with ⟨-, rfl⟩ | ⟨inner', rfl⟩
    · exact absurd stays (Nat.lt_irrefl _)
    · exact still inner'
  have undispatched {stage : Stage} (asks : stage.isOutside) : ¬ stage.isDispatched := by
    revert asks
    cases stage <;> simp [Stage.isOutside, Stage.isDispatched]
  cases turns with
  | stays other => exact ⟨dispatches_move other, tasks ▸ still inner⟩
  | begins other free outside =>
      rw [tasks]
      exact ⟨dispatches_move other, still (_ :: inner)⟩
  | admitted other is asks same resumed =>
      exact ⟨dispatches_move other, swapped is (undispatched asks)⟩
  | waits other is asks same =>
      exact ⟨dispatches_move other, swapped is (undispatched asks)⟩
  | dropped other is asks fresh refused =>
      exact ⟨dispatches_move other, popped is stays⟩
  | @dispatched first others event outcome is stage =>
      have above : ¬ first.stage.isDispatched := by
        rw [stage]
        exact Bool.false_ne_true
      refine ⟨if_neg ?_, swapped is above⟩
      rintro ⟨-, -, lowest⟩
      rcases innermost_or_above (tasks.symm.trans is) with ⟨rfl, -⟩ | ⟨inner', rfl⟩
      · exact above passed
      · rw [is] at lowest
        simp only [List.length_cons, List.length_append] at lowest
        omega
  | goesOn other is called =>
      refine ⟨dispatches_move other, ?_⟩
      rcases innermost_or_above (tasks.symm.trans is) with ⟨rfl, rfl⟩ | ⟨inner', rfl⟩
      · exact .lowest context (Outcome.isDispatched_stage _)
      · exact still (_ :: inner')
  | ends other is last =>
      exact ⟨dispatches_move other, popped is stays⟩

theorem turns_outside {own : List Task} {task' : Task} (tasks : w.tasks s = task' :: rest)
    (event : task'.stage.event? = task.stage.event?) (context : task'.context = task.context)
    (thread : task'.thread = task.thread) (undispatched : task'.stage.isWaiting ∨ task'.stage.isAdmitted)
    (turns : w.Turns s move own) (stays : rest.length < own.length) :
    Located task rest (w.dispatches s rest.length s (.move move)) own := by
  cases turns with
  | stays other =>
      rw [dispatches_move other, tasks]
      exact .outside event context thread undispatched
  | begins other free outside =>
      -- Something new begins only inside a call of the front-end.
      have front := free task' (head_innermost tasks)
      revert front undispatched
      cases task'.stage <;> simp [Stage.inFront, Stage.isWaiting, Stage.isAdmitted]
  | admitted other is asks same resumed =>
      cases tasks.symm.trans is
      rw [dispatches_move other]
      exact .outside (same.symm.trans event) context thread (.inr rfl)
  | waits other is asks same =>
      cases tasks.symm.trans is
      rw [dispatches_move other]
      exact .outside (same.symm.trans event) context thread (.inl rfl)
  | dropped other is asks fresh refused =>
      cases tasks.symm.trans is
      exact absurd stays (Nat.lt_irrefl _)
  | dispatched is stage =>
      cases tasks.symm.trans is
      have innermost : (w.tasks s).length = rest.length + 1 := congrArg List.length tasks
      have once : w.dispatches s rest.length s (.move .dispatch) = 1 := if_pos ⟨rfl, rfl, innermost⟩
      rw [once]
      exact .lowest context (Outcome.isDispatched_stage _)
  | goesOn other is called =>
      cases tasks.symm.trans is
      revert called undispatched
      cases task'.stage <;> simp [Stage.callback?, Stage.isWaiting, Stage.isAdmitted]
  | ends other is last =>
      cases tasks.symm.trans is
      exact absurd stays (Nat.lt_irrefl _)

theorem Located.step (located : Located task rest n (w.tasks s)) (step : w.Step s' move w')
    (stays : rest.length < (w'.tasks s).length) :
    Located task rest (n + w.dispatches s rest.length s' (.move move)) (w'.tasks s) := by
  by_cases here : s' = s
  · subst here
    have turns := step.turns
    generalize w'.tasks s' = own at turns stays ⊢
    generalize tasks : w.tasks s' = before at located
    cases located with
    | outside event context thread undispatched =>
        rw [Nat.zero_add]
        exact turns_outside tasks event context thread undispatched turns stays
    | dispatched context passed =>
        obtain ⟨none, still⟩ := turns_dispatched tasks context passed turns stays
        rw [none]
        exact still
  · have elsewhere : w.dispatches s rest.length s' (.move move) = 0 := if_neg fun is => here is.1
    rw [elsewhere, step.tasks_ne (Ne.symm here)]
    exact located

theorem Pending.located (pending : Pending s rest.length w w' n) (tasks : w.tasks s = task :: rest)
    (waits : task.stage.isWaiting) : Located task rest n (w'.tasks s) := by
  induction pending with
  | refl =>
      rw [tasks]
      exact .outside rfl rfl rfl (.inl waits)
  | step pending next single stays ih =>
      cases next with
      | move step => exact ih.step step stays
      | load | meet | skip | keep =>
          rw [dispatches_ne (by nofun)]
          exact ih

theorem Located.gone (located : Located task rest n (w.tasks s)) (orderly : w.Orderly)
    (acts : w.Acts s' act w') (gone : (w'.tasks s).length ≤ rest.length) :
    n = 1 ∨ w.debugger.isStarted = false := by
  generalize tasks : w.tasks s = before at located
  cases located with
  | dispatched => exact .inl rfl
  | @outside task' event context thread undispatched =>
      right
      have longer (same : w'.tasks s = w.tasks s) : w.debugger.isStarted = false := by
        rw [same, tasks, List.length_cons] at gone
        omega
      cases acts with
      | load | meet | skip | keep => exact longer rfl
      | move step =>
          by_cases here : s' = s
          · subst here
            have turns := step.turns
            generalize w'.tasks s' = own at turns gone longer
            have shorter {first : Task} {others : List Task} (is : w.tasks s' = first :: others) {new : Task}
                (gone : (new :: others).length ≤ rest.length) : w.debugger.isStarted = false := by
              cases tasks.symm.trans is
              exact absurd gone (Nat.not_succ_le_self _)
            cases turns with
            | stays other => exact longer rfl
            | begins other free outside =>
                rw [tasks] at gone
                simp only [List.length_cons] at gone
                omega
            | admitted other is asks same resumed => exact shorter is gone
            | waits other is asks same => exact shorter is gone
            | dispatched is stage => exact shorter is gone
            | goesOn other is called => exact shorter is gone
            | dropped other is asks fresh refused =>
                cases tasks.symm.trans is
                rcases undispatched with waits | admitted
                · exact orderly.stopped_of_dropped tasks waits fresh refused
                · revert asks admitted
                  cases task'.stage <;> simp [Stage.isOutside, Stage.isAdmitted]
            | ends other is last =>
                cases tasks.symm.trans is
                revert last undispatched
                cases task'.stage <;> simp [Stage.isInspecting, Stage.isWaiting, Stage.isAdmitted]
          · exact longer (step.tasks_ne (Ne.symm here))

/-! ## All runs -/

/-- What holds of suspended contexts and of parked threads in a world. -/
structure Restrained (w : World) : Prop where
  /-- An event gets the ticket only while its context is not suspended. -/
  admits : ∀ {s act w'}, w.Acts s act w' → ∀ s', ∀ task ∈ w'.tasks s', task.stage.isAdmitted →
    task ∈ w.tasks s' ∨ (w.debugger.context task.context).suspended = false
  /-- An event goes with the context of its thread. -/
  arrives : ∀ {s event w'}, w.Step s (.arrive event) w' → ∀ task ∈ w'.tasks s,
    task ∈ w.tasks s ∨ w'.debugger.contextOf? task.thread = some task.context
  /-- A thread that is alive keeps its context. -/
  keeps : ∀ {s act w' thread id}, w.Acts s act w' → w.Single s act → w.debugger.host.isAlive thread →
    w.debugger.contextOf? thread = some id →
    w'.debugger.contextOf? thread = some id ∨ w'.debugger.isStarted = false
  /-- As long as a context is suspended of which no event has the ticket, none gets it, the front-end is not
  called on the context, and it stays where it is. -/
  idles : ∀ {id w'}, id < w.debugger.contexts.size → w.Quiet id → Course (Withheld id) w w' → w'.Quiet id ∧
    (∀ s, ∀ task ∈ w'.tasks s, ∀ callback ∈ task.stage.callback?, callback.context ≠ id) ∧
    (w'.debugger.context id).trail = (w.debugger.context id).trail
  /-- Meanwhile its steps are not counted. -/
  counts : ∀ {id w'}, id < w.debugger.contexts.size → w.Quiet id → Course (Unarmed id) w w' →
    (w'.debugger.context id).counters = (w.debugger.context id).counters
  /-- A parked thread does not hold the ticket, nor does it wait for it. -/
  outside : ∀ {s task}, task ∈ w.tasks s → task.stage.isParked →
    w.holder ≠ some task.thread ∧ task.thread ∉ w.queue
  /-- The event of a parked thread stays on its way until it is dispatched, which happens once at most, and if
  it goes without having been dispatched, the debugger is not active. -/
  once : ∀ {s task rest w' n}, w.tasks s = task :: rest → task.stage.isParked →
    Pending s rest.length w w' n → n ≤ 1 ∧
      (n = 0 → ∃ task', w'.tasks s = task' :: rest ∧ task'.context = task.context ∧
        task'.stage.event? = task.stage.event?) ∧
      ∀ {s' act w''}, w'.Acts s' act w'' → (w''.tasks s).length ≤ rest.length →
        n = 1 ∨ w'.debugger.isStarted = false

theorem Acts.admits (acts : w.Acts s act w') {task' : Task} (member : task' ∈ w'.tasks s')
    (admitted : task'.stage.isAdmitted) :
    task' ∈ w.tasks s' ∨ (w.debugger.context task'.context).suspended = false := by
  cases acts with
  | move step =>
      have holds : task'.stage.holds := by
        revert admitted
        cases task'.stage <;> simp [Stage.isAdmitted, Stage.holds]
      cases step.holds member holds with
      | before before context activation holds same => exact .inl (same admitted ▸ before)
      | admitted resumed => exact .inr resumed
  | load | meet | skip | keep => exact .inl member

theorem Step.arrived {event : Event} (step : w.Step s (.arrive event) w') {task : Task}
    (member : task ∈ w'.tasks s) :
    task ∈ w.tasks s ∨ w'.debugger.contextOf? task.thread = some task.context := by
  cases step with
  | arrive event free =>
      simp only [World.arrive] at member ⊢
      rcases arrived : w.debugger.arrive s event with ⟨_ | ⟨thread, id⟩, d⟩
      all_goals simp only [arrived] at member ⊢
      · exact .inl member
      · rw [tasks_set_self] at member
        rcases List.mem_cons.mp member with rfl | before
        · obtain ⟨-, -, found, -⟩ := Debugger.arrive_eq_some arrived
          exact .inr found
        · exact .inl before

theorem Quiet.uncalled {id : ContextId} (quiet : w.Quiet id) (paired : w.Paired) {task : Task}
    (member : task ∈ w.tasks s) : ∀ callback ∈ task.stage.callback?, callback.context ≠ id := by
  intro callback called about
  have holds := Stage.holds_of_callback? (Option.isSome_of_mem called)
  revert called
  cases stage : task.stage with
  | called callback' next =>
      rintro ⟨⟩
      refine quiet s task member ?_ holds
      rw [← about]
      have pairs := paired s task member stage
      cases pairs <;> rfl
  | _ => nofun

theorem Pending.once (pending : Pending s rest.length w w' n) (orderly : w'.Orderly)
    (tasks : w.tasks s = task :: rest) (parked : task.stage.isParked) : n ≤ 1 ∧
      (n = 0 → ∃ task', w'.tasks s = task' :: rest ∧ task'.context = task.context ∧
        task'.stage.event? = task.stage.event?) ∧
      ∀ {s' act w''}, w'.Acts s' act w'' → (w''.tasks s).length ≤ rest.length →
        n = 1 ∨ w'.debugger.isStarted = false := by
  have located := pending.located tasks (Stage.isWaiting_of_isParked parked)
  refine ⟨?_, fun undispatched => ?_, fun acts gone => located.gone orderly acts gone⟩
  · generalize w'.tasks s = own at located
    cases located with
    | outside => exact Nat.zero_le 1
    | dispatched => exact Nat.le_refl 1
  · subst undispatched
    generalize w'.tasks s = own at located ⊢
    cases located with
    | outside event context => exact ⟨_, rfl, context, event⟩

/-- Whatever threads do within one activation, in any order, a suspended context keeps the events of its
thread from being dispatched, and a parked thread waits with its event until the context is resumed. -/
theorem restrained (idle : w₀.Idle) (tracked : w₀.debugger.WellTracked) (course : Course Single w₀ w) :
    w.Restrained := by
  obtain ⟨orderly, current⟩ := course.single idle
  have lodged : w.Lodged := course.lodged (.of_idle idle.tasks idle.own tracked)
  have paired : w.Paired := course.paired idle.paired
  exact {
    admits := fun acts _ _ member => acts.admits member
    arrives := fun step _ member => step.arrived member
    keeps := fun acts single => acts.found single lodged.tracked
    idles := fun {id w'} known quiet course => by
      have neutral : Neutral fun context => context.trail = (w.debugger.context id).trail :=
        ⟨fun h _ _ _ _ _ => h, fun _ _ _ h => h⟩
      obtain ⟨quiet', -, same⟩ := course.withheld neutral (fun h _ => h) (fun withheld => withheld)
        (.inl fun h _ _ _ _ _ _ => h) known quiet
      exact ⟨quiet', fun _ _ member => quiet'.uncalled (course.paired paired) member, same rfl⟩
    counts := fun {id w'} known quiet course => by
      have neutral : Neutral fun context => context.counters = (w.debugger.context id).counters :=
        ⟨fun h _ _ _ _ _ => h, fun _ _ _ h => h⟩
      obtain ⟨-, -, same⟩ := course.withheld neutral (fun h _ => h) Unarmed.toWithheld (.inr Unarmed.steps)
        known quiet
      exact same rfl
    outside := orderly.outside_of_parked
    once := fun tasks parked pending =>
      pending.once ((course.trans pending.course).single idle).1 tasks parked }

def parking : List (Nat × Act) :=
  [(1, .move (.request (.debugger .contexts))), (1, .move (.request (.context 0 .suspend))),
    (0, .move (.arrive lineEvent)), (0, .move .ask)]

def parked : World := (startedWithTwo.follow? Single parking).getD startedWithTwo

theorem course_parked : Course Single startedWithTwo parked := course_of_follow? parking rfl

theorem restrained_parked : Course Single startedWithTwo parked ∧
    parked.tasks 0 = [⟨⟨1, "a"⟩, 0, .waiting lineEvent .parked 1, false, 1, some lineEvent⟩] ∧
    (parked.debugger.context 0).suspended ∧ parked.Restrained :=
  ⟨course_parked, rfl, rfl, restrained idle_startedWithTwo wellTracked_startedWithTwo course_parked⟩

end World

end EventDebugger
