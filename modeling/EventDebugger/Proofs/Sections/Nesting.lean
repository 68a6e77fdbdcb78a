import EventDebugger.Debugger.Sections
import EventDebugger.Proofs.Schedule.Events
import EventDebugger.Proofs.Sections.Lasting

/-!
# Nested sections

Sections nest in any order, around events, requests and each other, and whatever fails in them: when one ends, the
starts of the debugger, its switch for post-mortems and the mark of the current context are what they were when it
began. While events of a context are not handled, none of them reaches the front-end.

* `Scoped`: programs of sections, events and requests.
* `Scoped.reinstates`: what they restore.
* `Debugger.restored_of_scoped`: the same for front-ends that run such programs when they are called, and the events
  of a context that is marked.
-/

namespace EventDebugger

open Debugger (Reinstates Balances Lasts Settled)

/-- Programs of a thread on its system thread, over the front-end that its events call: events that do not end the
program, requests that leave the activation and the switch for post-mortems alone, and sections, one after another
and in each other. What comes next may depend on results, those of failing events included. -/
inductive Scoped {σ ε : Type} (system : Nat) : {α : Type} → (FrontEnd σ ε → Run σ α) → Prop where
  | pure {α : Type} (a : α) : Scoped system fun _ => pure a
  | bind {α β : Type} {m : FrontEnd σ ε → Run σ α} {k : α → FrontEnd σ ε → Run σ β} (first : Scoped system m)
      (next : ∀ a, Scoped system (k a)) : Scoped system fun front => m front >>= fun a => k a front
  | onFront {α : Type} (f : σ → α × σ) : Scoped system fun _ => Run.onFront f
  | request {α : Type} (request : Request) (free : request.isRestricted = false) (reply : Debugger → α) :
      Scoped system fun _ => Run.onDebugger fun d => (reply d, request.serve system d)
  /-- The program runs: variables, exceptions and the status of threads change. -/
  | execute (f : Host → Host) (same : ∀ host : Host, host.SameThreads (f host)) :
      Scoped system fun _ => Run.onDebugger fun d => ((), { d with host := f d.host })
  | event (event : Event) (stays : event.isExit = false) : Scoped system fun front => handleEvent front system event
  | started {α : Type} {m : FrontEnd σ ε → Run σ α} (body : Scoped system m) :
      Scoped system fun front => runStarted (m front)
  | loaded {α : Type} {m : FrontEnd σ ε → Run σ α} (stop : Bool) (body : Scoped system m) :
      Scoped system fun front => runLoaded system stop (m front)
  | skipped {α : Type} {m : FrontEnd σ ε → Run σ α} (body : Scoped system m) :
      Scoped system fun front => runSkipped system (m front)
  | withPostMortem {α : Type} {m : FrontEnd σ ε → Run σ α} (body : Scoped system m) :
      Scoped system fun front => runWithPostMortem (m front)

/-- The calls of a front-end are such programs, which may notify events to the front-end itself. -/
def FrontEnd.Conforms {σ ε : Type} (front : FrontEnd σ ε) (system : Nat) : Prop :=
  ∀ callback, ∃ m : FrontEnd σ ε → Run σ (Except ε Unit), Scoped system m ∧ front system callback = m front

/-- A context is the same, but that it is to be woken up if it is suspended. -/
def Context.Dozes (before after : Context) : Prop :=
  after = before ∨ (before.suspended ∧ after = { before with wasRunning := true })

variable {σ ε α : Type} {system : Nat} {front front' : FrontEnd σ ε} {d d₁ d' : Debugger} {state : σ} {id : ContextId}
  {body : Run σ α} {m : FrontEnd σ ε → Run σ α}

namespace Debugger

def stopOnce (d : Debugger) : Debugger :=
  match d.stop with
  | .ok (_, d) => d
  | .error _ => d

end Debugger

/-! ## Sections, step by step -/

theorem runStarted_eq (body : Run σ α) (d : Debugger) (state : σ) :
    runStarted body (d, state) =
      let ran := body (d.start.2, state)
      (ran.1, ran.2.1.stopOnce, ran.2.2) := by
  rw [runStarted, run_bind_eq, run_bind_eq, run_bind_eq]
  simp only [Run.attempt, Run.onDebugger, Debugger.stopOnce]
  split <;> simp only [*] <;> rfl

theorem runSkipped_eq (body : Run σ α) (d : Debugger) (state : σ) :
    runSkipped system body (d, state) =
      match d.currentContext system with
      | (.error _, d) => body (d, state)
      | (.ok id, d) =>
          let ran := body (d.updateContext id ({ · with skipped := true }), state)
          (ran.1, ran.2.1.updateContext id ({ · with skipped := (d.context id).skipped }), ran.2.2) := by
  rw [runSkipped, run_bind_eq, Run.onDebugger]
  rcases d.currentContext system with ⟨_ | id, d⟩ <;> rfl

theorem runWithPostMortem_eq (body : Run σ α) (d : Debugger) (state : σ) :
    runWithPostMortem body (d, state) =
      match d.beginPostMortem with
      | .error error => (.error error, d, state)
      | .ok d =>
          let ran := body (d, state)
          (.ok ran.1, { ran.2.1 with settings := { ran.2.1.settings with postMortem := false } }, ran.2.2) := by
  rw [runWithPostMortem, run_bind_eq, Run.perform, Run.attempt, Run.onDebugger]
  rcases d.beginPostMortem with error | d <;> rfl

def loadedBody (system : Nat) (stop : Bool) (body : Run σ α) : Run σ (Except Error α) := do
  match ← Run.onDebugger fun d => d.prepareLoad system stop with
  | .error error => return .error error
  | .ok () => return .ok (← body)

theorem loadedBody_eq (stop : Bool) (body : Run σ α) (d : Debugger) (state : σ) :
    loadedBody system stop body (d, state) =
      match d.prepareLoad system stop with
      | (.error error, d) => (.error error, d, state)
      | (.ok (), d) =>
          let ran := body (d, state)
          (.ok ran.1, ran.2) := by
  rw [loadedBody, run_bind_eq, Run.onDebugger]
  rcases d.prepareLoad system stop with ⟨_ | _, d⟩ <;> rfl

theorem runLoaded_eq (stop : Bool) (body : Run σ α) :
    runLoaded system stop body = runStarted (loadedBody system stop body) := rfl

/-! ## Sections restore what they change -/

namespace Debugger

theorem operates_start (d : Debugger) : Operates d d.start.2 := .request d (.debugger .start) 0

theorem operates_stopOnce (d : Debugger) : Operates d d.stopOnce := by
  have served : (Request.debugger .stop).serve 0 d = d.stopOnce := by
    change ((do return .flag (← Script.Attempt.change stop) : Script.Attempt Script.Reply) (d, .initial [])).2.1 = _
    rw [Script.Attempt.debugger_map, Script.Attempt.debugger_change, stopOnce]
    split <;> simp only [*]
  exact served ▸ .request d (.debugger .stop) 0

theorem start_of_started (started : d.isStarted) : d.start.2 = { d with startCount := d.startCount + 1 } := by
  obtain ⟨session, active⟩ := Option.isSome_iff_exists.mp started
  simp only [start, active]

theorem start_of_ended (ended : d.session = none) :
    d.start.2 = { d with startCount := d.startCount + 1, session := some newSession } := by
  simp only [start, ended]

theorem stopOnce_of_more (started : d.isStarted) (more : 0 < d.startCount - 1) :
    d.stopOnce = { d with startCount := d.startCount - 1 } := by
  obtain ⟨session, active⟩ := Option.isSome_iff_exists.mp started
  have stopped : d.stop = .ok (false, { d with startCount := d.startCount - 1 }) := by
    simp only [stop, activeSession, active]
    exact congrArg Except.ok (if_pos more)
  rw [stopOnce, stopped]

theorem stopOnce_of_last (started : d.isStarted) (last : d.startCount = 1) :
    d.stopOnce = { d with startCount := 0 }.deactivate := by
  obtain ⟨session, active⟩ := Option.isSome_iff_exists.mp started
  have stopped : d.stop = .ok (true, { d with startCount := d.startCount - 1 }.deactivate) := by
    simp only [stop, activeSession, active]
    exact congrArg Except.ok (if_neg (by rw [last]; exact Nat.lt_irrefl 0))
  rw [stopOnce, stopped, last]

theorem reinstates_runStarted (settled : d.Settled)
    (inner : Reinstates system d.start.2 (body (d.start.2, state)).2.1) :
    Reinstates system d (runStarted body (d, state)).2.1 := by
  rw [runStarted_eq]
  simp only
  have began : History d d.start.2 := .single d.operates_start
  generalize (body (d.start.2, state)).2.1 = d₂ at inner
  have ended : History d₂ d₂.stopOnce := .single d₂.operates_stopOnce
  by_cases started : d.isStarted
  · have positive := settled.counted.mp started
    rw [start_of_started started] at inner began
    have active : d₂.isStarted := inner.started.trans started
    have count : d₂.startCount = d.startCount + 1 := inner.startCount
    rw [stopOnce_of_more active (by rw [count]; exact positive)] at ended ⊢
    have first : Lasts system d _ := lasts_of_session began (.refl _ _) rfl rfl
    have last : Lasts system d₂ _ := lasts_of_session ended (.refl _ _) rfl rfl
    refine ⟨⟨first.trans (inner.toLasts.trans last), ?_, inner.started, inner.postMortem⟩,
      fun held => inner.occupied held⟩
    rw [count, Nat.add_sub_cancel]
  · have inactive : d.session = none := Option.not_isSome_iff_eq_none.mp started
    have none : d.startCount = 0 := Nat.eq_zero_of_not_pos fun positive => started (settled.counted.mpr positive)
    have unknown (thread : Thread) : d.contextOf? thread = .none := by rw [contextOf?, inactive, Option.bind_none]
    rw [start_of_ended inactive] at inner began
    have active : d₂.isStarted := inner.started
    have count : d₂.startCount = 1 := by rw [inner.startCount, none]
    rw [stopOnce_of_last active count] at ended ⊢
    have unmarked : (deactivate { d₂ with startCount := 0 }).marked system = false := marked_of_unknown rfl
    refine ⟨⟨⟨began.trans (inner.history.trans ended), inner.host, fun _ _ _ found => ?_, fun _ _ => ?_⟩, none.symm, ?_,
      inner.postMortem⟩, fun held => ?_⟩
    · cases (unknown _).symm.trans found
    · rw [unmarked, marked_of_unknown (unknown _)]
    · rw [isStarted, isStarted, inactive]
      rfl
    · obtain ⟨_, held⟩ := held
      rw [ticket, inactive] at held
      cases held

theorem reinstates_currentContext (d : Debugger) (system : Nat) : Reinstates system d (d.currentContext system).2 :=
  (d.edits_currentContext system).reinstates (.single (.current d system)) (d.tends_currentContext system).ticket

theorem reinstates_runSkipped
    (plain : ∀ error d₁, d.currentContext system = (.error error, d₁) → Reinstates system d₁ (body (d₁, state)).2.1)
    (inner : ∀ id d₁, d.currentContext system = (.ok id, d₁) →
      Reinstates system (d₁.updateContext id ({ · with skipped := true }))
        (body (d₁.updateContext id ({ · with skipped := true }), state)).2.1) :
    Reinstates system d (runSkipped system body (d, state)).2.1 := by
  have met := d.reinstates_currentContext system
  rw [runSkipped_eq]
  rcases current : d.currentContext system with ⟨error | id, d₁⟩
  · rw [current] at met
    exact met.trans (plain error d₁ current)
  · rw [current] at met
    refine met.trans ?_
    have inner := inner id d₁ current
    have found : d₁.contextOf? (d₁.currentThread system).1 = some id := by
      rw [met.thread]
      exact (currentContext_eq_ok current).2
    simp only
    generalize (body (d₁.updateContext id ({ · with skipped := true }), state)).2.1 = d₂ at inner ⊢
    have began : Operates d₁ (d₁.updateContext id ({ · with skipped := true })) := .skip d₁ id true
    have ended : Operates d₂ (d₂.updateContext id ({ · with skipped := (d₁.context id).skipped })) := .skip d₂ id _
    have kept (regular : d₁.Regular) (present : d₁.Present system) {own : ContextId}
        (is : d₁.contextOf? (d₁.currentThread system).1 = some own) :
        d₂.contextOf? (d₁.currentThread system).1 = some own :=
      inner.found (began.regular regular) present is
    refine ⟨⟨⟨?_, inner.host, fun regular present _ is => kept regular present is, fun regular present => ?_⟩,
      inner.startCount, inner.started, inner.postMortem⟩, fun held => inner.occupied held⟩
    · exact ((Relation.ReflTransGen.single began).trans inner.history).tail ended
    · have found' := kept regular present found
      rw [show (d₁.currentThread system).1 = (d₂.currentThread system).1 from inner.host.thread.symm] at found'
      have known : id < d₂.contexts.size := by
        exact ((inner.history.regular (began.regular regular)).numbered.wellTracked.1.known found').1
      rw [marked_of_found found, marked_updateContext found' known]

theorem reinstates_runWithPostMortem
    (inner : ∀ d₁, d.beginPostMortem = .ok d₁ → Reinstates system d₁ (body (d₁, state)).2.1) :
    Reinstates system d (runWithPostMortem body (d, state)).2.1 := by
  rw [runWithPostMortem_eq]
  rcases began : d.beginPostMortem with error | d₁
  · exact .refl system d
  · have inner := inner d₁ began
    have on : d.settings.postMortem = false ∧
        d₁ = { d with settings := { d.settings with postMortem := true } } := by
      simp only [beginPostMortem] at began
      split at began
      · cases began
      · next off =>
          obtain ⟨_, _, changed⟩ := except_bind_eq_ok began
          cases changed
          exact ⟨eq_false_of_ne_true off, rfl⟩
    obtain ⟨off, rfl⟩ := on
    simp only
    generalize (body ({ d with settings := { d.settings with postMortem := true } }, state)).2.1 = d₂ at inner ⊢
    have first : Lasts system d { d with settings := { d.settings with postMortem := true } } :=
      lasts_of_session (.single (.keep d true)) (.refl _ _) rfl rfl
    have last : Lasts system d₂ { d₂ with settings := { d₂.settings with postMortem := false } } :=
      lasts_of_session (.single (.keep d₂ false)) (.refl _ _) rfl rfl
    exact ⟨⟨first.trans (inner.toLasts.trans last), inner.startCount, inner.started, off.symm⟩,
      fun held => inner.occupied held⟩

/-! ## Events that do not reach the front-end -/

/-- Events of the thread of a system thread do not reach the front-end: the thread holds the ticket already, or
events of its context are not handled. -/
def Screened (d : Debugger) (system : Nat) : Prop := d.Occupied system ∨ (d.Present system ∧ d.marked system)

theorem Occupied.started (held : d.Occupied system) : d.isStarted := by
  obtain ⟨_, held⟩ := held
  rw [isStarted_eq, held]
  rfl

theorem Screened.started (screened : d.Screened system) : d.isStarted := by
  rcases screened with held | ⟨-, mark⟩
  · exact held.started
  · by_contra ended
    have unknown (thread : Thread) : d.contextOf? thread = none := by
      rw [contextOf?, Option.not_isSome_iff_eq_none.mp ended, Option.bind_none]
    cases (marked_of_unknown (unknown _)).symm.trans mark

theorem Reinstates.screened (reinstates : Reinstates system d d') (settled : d.Settled) (screened : d.Screened system) :
    d'.Screened system := by
  rcases screened with held | ⟨present, mark⟩
  · exact .inl (reinstates.occupied held)
  · exact .inr ⟨present.of_attended reinstates.host, (reinstates.marked settled.regular present).trans mark⟩

theorem context_letIn (d : Debugger) (session : Session) (known : id < d.contexts.size) :
    (d.context id).Dozes ((d.letIn session id).2.context id) ∧
      ((d.letIn session id).1 = .ticket → (d.letIn session id).2.context id = d.context id) := by
  simp only [letIn]
  split
  · next suspended =>
      refine ⟨.inr ⟨suspended, ?_⟩, fun ticket => by cases ticket⟩
      exact context_updateContext_self { d with session := some session.handOver, wakeups := d.wakeups + 1 } _ known
  · exact ⟨.inl rfl, fun _ => rfl⟩

theorem context_contend (known : id < d.contexts.size) (thread : Thread) (granted : Bool) :
    (d.context id).Dozes ((d.contend thread id granted).2.context id) ∧
      ((d.contend thread id granted).1 = .ticket → (d.contend thread id granted).2.context id = d.context id) := by
  simp only [contend]
  split
  · exact ⟨.inl rfl, fun ticket => by cases ticket⟩
  · split
    · exact d.context_letIn _ known
    · split
      · split
        · exact d.context_letIn _ known
        · exact ⟨.inl rfl, fun ticket => by cases ticket⟩
      · exact ⟨.inl rfl, fun ticket => by cases ticket⟩

/-- What becomes of an event that does not reach the front-end. -/
structure Unheard (ε : Type) (id : ContextId) (d : Debugger) (progress : Progress ε) (d' : Debugger) : Prop where
  succeeds : ∀ error, progress ≠ .finished (.error error)
  rests : (d.context id).Dozes (d'.context id)

theorem Unheard.finished (ε : Type) (rests : (d.context id).Dozes (d'.context id)) :
    Unheard ε id d (.finished (.ok ())) d' := ⟨fun error failed => (by cases failed), rests⟩

theorem Unheard.waiting (ε : Type) (pending : PendingEvent) (rests : (d.context id).Dozes (d'.context id)) :
    Unheard ε id d (.waiting pending) d' := ⟨fun error failed => (by cases failed), rests⟩

theorem contend_of_skipped (ε : Type) (system : Nat) (known : id < d.contexts.size) (skipped : (d.context id).skipped)
    (thread : Thread) (event : Event) (granted : Bool) :
    ∃ (progress : Progress ε) (d' : Debugger), Unheard ε id d progress d' ∧
      (d' = (d.contend thread id granted).2 ∨ d' = (d.contend thread id granted).2.release) ∧
      ∀ {σ : Type} (front : FrontEnd σ ε) (state : σ),
        contendAndHandle front system thread id event granted (d, state) = (progress, d', state) := by
  obtain ⟨rests, same⟩ := context_contend known thread granted
  rcases contended : d.contend thread id granted with ⟨turn, d'⟩
  rw [contended] at rests same
  cases turn with
  | ticket =>
      have skipped' : (d'.context id).skipped := (congrArg (·.skipped) (same rfl)).trans skipped
      refine ⟨.finished (.ok ()), d'.release, .finished ε ?_, .inr rfl, fun front state => ?_⟩
      · rw [context_release]
        exact rests
      · rw [contendAndHandle_eq, contended]
        simp only [handleWithTicket_eq, dispatch, skipped', if_true, Outcome.complete, drive_done]
  | dropped =>
      refine ⟨.finished (.ok ()), d', .finished ε rests, .inl rfl, fun front state => ?_⟩
      rw [contendAndHandle_eq, contended]
  | wait reason =>
      refine ⟨.waiting ⟨system, thread, id, event, reason, d'.wakeups⟩, d', .waiting ε _ rests, .inl rfl,
        fun front state => ?_⟩
      rw [contendAndHandle_eq, contended]

theorem arrive_of_found (found : d.contextOf? (d.currentThread system).1 = some id) (event : Event) :
    (d.arrive system event).2.contexts = d.contexts ∧
      ∀ arrived ∈ (d.arrive system event).1, arrived = ((d.currentThread system).1, id) := by
  obtain ⟨session, active, here⟩ := Option.bind_eq_some_iff.mp found
  have active' : (d.currentThread system).2.session = some session := active
  have started : d.isStarted = true := by rw [isStarted, active]; rfl
  simp only [arrive, started, if_true]
  split
  · exact ⟨rfl, fun arrived is => by cases is⟩
  · simp only [active', track, here]
    split
    · exact ⟨rfl, fun arrived is => by cases is⟩
    · exact ⟨rfl, fun arrived is => (Option.some.inj is).symm⟩

theorem handleEvent_of_skipped (ε : Type) (regular : d.Regular)
    (found : d.contextOf? (d.currentThread system).1 = some id) (skipped : (d.context id).skipped) (event : Event) :
    ∃ (progress : Progress ε) (d' : Debugger), Unheard ε id d progress d' ∧
      ∀ {σ : Type} (front : FrontEnd σ ε) (state : σ),
        handleEvent front system event (d, state) = (progress, d', state) := by
  have known := (regular.numbered.wellTracked.1.known found).1
  obtain ⟨contexts, here⟩ := arrive_of_found found event
  rcases arrived : d.arrive system event with ⟨_ | ⟨thread, own⟩, d₁⟩
  all_goals rw [arrived] at contexts here
  · refine ⟨.finished (.ok ()), d₁, .finished ε (.inl ?_), fun front state => ?_⟩
    · rw [context, contexts, context]
    · rw [handleEvent_eq, arrived]
  · obtain ⟨rfl, rfl⟩ := Prod.mk.inj (here _ rfl)
    have same : d₁.context own = d.context own := by rw [context, contexts, context]
    obtain ⟨progress, d', ⟨succeeds, rests⟩, -, handled⟩ :=
      contend_of_skipped ε system (contexts ▸ known) (same ▸ skipped) _ event false
    refine ⟨progress, d', ⟨succeeds, same ▸ rests⟩, fun front state => ?_⟩
    rw [handleEvent_eq, arrived]
    exact handled front state

theorem continueEvent_of_skipped (ε : Type) (pending : PendingEvent) (known : pending.context < d.contexts.size)
    (skipped : (d.context pending.context).skipped) :
    ∃ (progress : Progress ε) (d' : Debugger), Unheard ε pending.context d progress d' ∧
      ∀ {σ : Type} (front : FrontEnd σ ε) (state : σ),
        continueEvent front pending (d, state) = (progress, d', state) := by
  by_cases awake : d.isAwake pending
  · obtain ⟨progress, d', unheard, -, handled⟩ := contend_of_skipped ε pending.system known skipped
      pending.thread pending.event (pending.waiting == .queued)
    refine ⟨progress, d', unheard, fun front state => ?_⟩
    rw [continueEvent_eq, if_pos awake]
    exact handled front state
  · refine ⟨.waiting pending, d, .waiting ε pending (.inl rfl), fun front state => ?_⟩
    rw [continueEvent_eq, if_neg awake]

theorem reinstates_arrive (d : Debugger) (system : Nat) (event : Event) :
    Reinstates system d (d.arrive system event).2 :=
  (d.edits_arrive system event).reinstates (.single (.arrive d system event)) (d.tends_arrive system event).ticket

theorem balances_contend (d : Debugger) (system : Nat) (thread : Thread) (id : ContextId) (granted : Bool) :
    Balances system d (d.contend thread id granted).2 :=
  (d.edits_contend system thread id granted).balances (.single (.contend d thread id granted))

theorem balances_release (d : Debugger) (system : Nat) : Balances system d d.release :=
  (d.edits_release system).balances (.single (.release d))

theorem reinstates_screened_event (ε : Type) (settled : d.Settled) (screened : d.Screened system) (event : Event) :
    ∃ (progress : Progress ε) (d' : Debugger), Reinstates system d d' ∧
      ∀ {σ : Type} (front : FrontEnd σ ε) (state : σ),
        handleEvent front system event (d, state) = (progress, d', state) := by
  have arriving := d.reinstates_arrive system event
  rcases arrived : d.arrive system event with ⟨_ | ⟨thread, id⟩, d₁⟩
  all_goals rw [arrived] at arriving
  · refine ⟨.finished (.ok ()), d₁, arriving, fun front state => ?_⟩
    rw [handleEvent_eq, arrived]
  · obtain ⟨-, bound, found, -⟩ := arrive_eq_some arrived
    have own : (d₁.currentThread system).1 = thread := congrArg (·.1) (Host.currentThread_of_bound bound)
    have contending := d₁.balances_contend system thread id false
    by_cases held : d.Occupied system
    · -- The thread holds the ticket, so that its event is dropped.
      obtain ⟨waiting, holder⟩ := arriving.occupied held
      have contended := d₁.contended thread id false
      rw [holder, own] at contended
      rcases asked : d₁.contend thread id false with ⟨turn, d'⟩
      rw [asked] at contended contending
      have dropped : turn = .dropped ∧ d'.ticket = d₁.ticket := by
        rw [holder, own]
        generalize d'.ticket = ticket at contended ⊢
        cases contended with
        | granted _ handed | handedOn _ handed => cases handed
        | reentrant => exact ⟨rfl, rfl⟩
        | queued _ other => exact absurd rfl other
      obtain ⟨rfl, ticket⟩ := dropped
      refine ⟨.finished (.ok ()), d', arriving.trans ⟨contending, fun held => held.of_attended contending.host ticket⟩,
        fun front state => ?_⟩
      rw [handleEvent_eq, arrived]
      simp only [contendAndHandle_eq, asked]
    · obtain ⟨present, mark⟩ := screened.resolve_left held
      have settled₁ := arriving.settled settled
      have skipped : (d₁.context id).skipped := by
        have found : d₁.contextOf? (d₁.currentThread system).1 = some id := own ▸ found
        rw [← marked_of_found found]
        exact (arriving.marked settled.regular present).trans mark
      obtain ⟨progress, d', -, is, handled⟩ := contend_of_skipped ε system
        (settled₁.regular.numbered.wellTracked.1.known found).1 skipped thread event false
      have ended : Balances system d₁ d' := by
        rcases is with rfl | rfl
        · exact contending
        · exact contending.trans (balances_release _ system)
      refine ⟨progress, d', ⟨arriving.toBalances.trans ended, fun was => absurd was held⟩, fun front state => ?_⟩
      rw [handleEvent_eq, arrived]
      exact handled front state

/-! ## Sections of a thread whose events do not reach the front-end -/

theorem Settled.start (settled : d.Settled) : d.start.2.Settled := d.operates_start.settled settled

theorem Screened.start (screened : d.Screened system) : d.start.2.Screened system := by
  have started := screened.started
  rw [start_of_started started]
  exact screened

theorem Screened.skip (screened : d.Screened system) (settled : d.Settled)
    (found : d.contextOf? (d.currentThread system).1 = some id) :
    (d.updateContext id ({ · with skipped := true })).Screened system := by
  refine screened.imp_right fun ⟨present, _⟩ => ⟨present, ?_⟩
  rw [marked_updateContext found (settled.regular.numbered.wellTracked.1.known found).1]

theorem Settled.skip (settled : d.Settled) (id : ContextId) (on : Bool) :
    (d.updateContext id ({ · with skipped := on })).Settled := Operates.settled (.skip d id on) settled

theorem found_of_currentContext (current : d.currentContext system = (.ok id, d₁)) :
    d₁.contextOf? (d₁.currentThread system).1 = some id := by
  have met := d.reinstates_currentContext system
  rw [current] at met
  rw [met.thread]
  exact (currentContext_eq_ok current).2

theorem present_of_currentContext (current : d.currentContext system = (.ok id, d₁)) : d.Present system := by
  simp only [currentContext] at current
  split at current
  · next found =>
      obtain ⟨session, active, tracked⟩ := except_bind_eq_ok found
      split at tracked
      · assumption
      · cases tracked
  · cases current

theorem Settled.beginPostMortem (settled : d.Settled) (system : Nat) (began : d.beginPostMortem = .ok d₁) :
    d₁.Settled ∧ (d.Screened system → d₁.Screened system) := by
  simp only [Debugger.beginPostMortem] at began
  split at began
  · cases began
  · obtain ⟨_, _, changed⟩ := except_bind_eq_ok began
    cases changed
    exact ⟨Operates.settled (.keep d true) settled, fun screened => screened⟩

theorem reinstates_prepareLoad (d : Debugger) (system : Nat) (stop : Bool) :
    Reinstates system d (d.prepareLoad system stop).2 :=
  (d.edits_prepareLoad system stop).reinstates (.single (.load d system stop)) (d.ticket_prepareLoad system stop)

theorem reinstates_request (request : Request) (system : Nat) (free : request.isRestricted = false) (d : Debugger) :
    Reinstates system d (request.serve system d) := by
  have activation : request.isActivation = false := by
    cases request with
    | context => rfl
    | debugger command => cases command <;> first | exact free | rfl
  exact (request.edits system d free).reinstates (.single (.request d request system))
    (request.tends_request system d activation).ticket

theorem reinstates_loadedBody (stop : Bool)
    (inner : ∀ d₁, d.prepareLoad system stop = (.ok (), d₁) → Reinstates system d₁ (body (d₁, state)).2.1) :
    Reinstates system d (loadedBody system stop body (d, state)).2.1 := by
  have prepared := d.reinstates_prepareLoad system stop
  rw [loadedBody_eq]
  rcases is : d.prepareLoad system stop with ⟨_ | _, d₁⟩
  all_goals rw [is] at prepared
  · exact prepared
  · exact prepared.trans (inner d₁ is)

end Debugger

def FrontEnd.Restoring (front : FrontEnd σ ε) (system : Nat) : Prop :=
  ∀ event : Event, event.isExit = false → ∀ d state, d.Settled →
    Reinstates system d (handleEvent front system event (d, state)).2.1

theorem Scoped.reinstates (program : Scoped system m) (settled : d.Settled)
    (free : front.Restoring system ∨ d.Screened system) (state : σ) : Reinstates system d (m front (d, state)).2.1 := by
  induction program generalizing d state with
  | pure | onFront => exact .refl system d
  | bind first next ih ih' =>
      have before := ih settled free state
      exact before.trans (ih' _ (before.settled settled) (free.imp_right (before.screened settled)) _)
  | request request unrestricted reply => exact Debugger.reinstates_request request system unrestricted d
  | execute f same =>
      have kept : Lasts system d { d with host := f d.host } :=
        Debugger.lasts_of_session (.single (.host (.execute (same d.host)))) ((same d.host).attended system) rfl rfl
      exact ⟨⟨kept, rfl, rfl, rfl⟩, fun held => held.of_attended kept.host rfl⟩
  | event event stays =>
      rcases free with restoring | screened
      · exact restoring event stays d state settled
      · obtain ⟨progress, d', reinstates, handled⟩ := Debugger.reinstates_screened_event ε settled screened event
        beta_reduce
        rw [handled]
        exact reinstates
  | started body ih =>
      exact Debugger.reinstates_runStarted settled (ih settled.start (free.imp_right (·.start)) state)
  | loaded stop body ih =>
      beta_reduce
      rw [runLoaded_eq]
      refine Debugger.reinstates_runStarted settled (Debugger.reinstates_loadedBody stop fun d₁ is => ?_)
      have prepared := Debugger.reinstates_prepareLoad d.start.2 system stop
      rw [is] at prepared
      exact ih (prepared.settled settled.start)
        (free.imp_right fun screened => prepared.screened settled.start screened.start) state
  | skipped body ih =>
      have met := d.reinstates_currentContext system
      refine Debugger.reinstates_runSkipped (fun error d₁ is => ?_) fun id d₁ is => ?_
      all_goals
        rw [is] at met
        have settled₁ := met.settled settled
      · exact ih settled₁ (free.imp_right (met.screened settled)) state
      · have found := Debugger.found_of_currentContext is
        exact ih (settled₁.skip id true)
          (free.imp_right fun screened => (met.screened settled screened).skip settled₁ found) state
  | withPostMortem body ih =>
      refine Debugger.reinstates_runWithPostMortem fun d₁ began => ?_
      obtain ⟨settled₁, screened₁⟩ := settled.beginPostMortem system began
      exact ih settled₁ (free.imp_right screened₁) state

theorem Scoped.run_eq_of_screened (program : Scoped system m) (settled : d.Settled) (screened : d.Screened system)
    (front front' : FrontEnd σ ε) : m front' (d, state) = m front (d, state) := by
  induction program generalizing d state with
  | pure | onFront | request | execute => rfl
  | bind first next ih ih' =>
      have before : Reinstates _ d _ := first.reinstates settled (.inr screened : front.Restoring _ ∨ _) state
      beta_reduce
      rw [run_bind_eq, run_bind_eq, ih settled screened]
      exact ih' _ (before.settled settled) (before.screened settled screened)
  | event event stays =>
      obtain ⟨progress, d', -, handled⟩ := Debugger.reinstates_screened_event ε settled screened event
      beta_reduce
      rw [handled, handled]
  | started body ih =>
      beta_reduce
      rw [runStarted_eq, runStarted_eq, ih settled.start screened.start]
  | loaded stop body ih =>
      have prepared := Debugger.reinstates_prepareLoad d.start.2 system stop
      beta_reduce
      rw [runLoaded_eq, runLoaded_eq, runStarted_eq, runStarted_eq, loadedBody_eq, loadedBody_eq]
      rcases is : d.start.2.prepareLoad system stop with ⟨_ | _, d₁⟩
      · rfl
      · rw [is] at prepared
        simp only [ih (prepared.settled settled.start) (prepared.screened settled.start screened.start)]
  | skipped body ih =>
      have met := d.reinstates_currentContext system
      beta_reduce
      rw [runSkipped_eq, runSkipped_eq]
      rcases is : d.currentContext system with ⟨_ | id, d₁⟩
      all_goals
        rw [is] at met
        have settled₁ := met.settled settled
        have screened₁ := met.screened settled screened
      · exact ih settled₁ screened₁
      · simp only [ih (settled₁.skip id true) (screened₁.skip settled₁ (Debugger.found_of_currentContext is))]
  | withPostMortem body ih =>
      beta_reduce
      rw [runWithPostMortem_eq, runWithPostMortem_eq]
      rcases began : d.beginPostMortem with error | d₁
      · rfl
      · obtain ⟨settled₁, screened₁⟩ := settled.beginPostMortem system began
        simp only [ih settled₁ (screened₁ screened)]

/-! ## Events that reach the front-end -/

theorem FrontEnd.Conforms.reinstates (conforms : front.Conforms system) (callback : Callback) (settled : d.Settled)
    (held : d.Occupied system) (state : σ) : Reinstates system d (front system callback (d, state)).2.1 := by
  obtain ⟨m, program, same⟩ := conforms callback
  rw [same]
  exact program.reinstates settled (.inr (.inl held)) state

theorem balances_drive (conforms : front.Conforms system) (n : Nat) (outcome : Outcome) (settled : d.Settled)
    (held : d.Occupied system) (known : id < d.contexts.size) (state : σ) :
    Balances system d (outcome.drive front system id n (d, state)).2.1 := by
  induction n generalizing outcome d state with
  | zero => cases outcome <;> exact (Reinstates.refl system d).toBalances
  | succ n ih =>
      cases outcome with
      | done => exact (Reinstates.refl system d).toBalances
      | call callback next =>
          have called := conforms.reinstates callback settled held state
          rw [drive_call]
          rcases is : front system callback (d, state) with ⟨_ | _, d₁, state₁⟩
          all_goals rw [is] at called
          · exact called.toBalances
          · have known₁ : id < d₁.contexts.size := Nat.lt_of_lt_of_le known called.history.size
            have answers : Debugger.Operates d₁ (next.run d₁ system id).2 := .answer known₁ system next
            have answered := (d₁.touches_run system id next).reinstates (.single answers)
            have whole := called.trans answered
            exact whole.toBalances.trans (ih _ (whole.settled settled) (whole.occupied held)
              (Nat.lt_of_lt_of_le known₁ answers.size) _)

theorem FrontEnd.Conforms.restoring (conforms : front.Conforms system) : front.Restoring system := by
  intro event stays d state settled
  by_cases held : d.Occupied system
  · obtain ⟨progress, d', reinstates, handled⟩ := Debugger.reinstates_screened_event ε settled (.inl held) event
    rw [handled]
    exact reinstates
  refine ⟨?_, fun was => absurd was held⟩
  have arriving := d.reinstates_arrive system event
  rw [handleEvent_eq]
  rcases arrived : d.arrive system event with ⟨_ | ⟨thread, id⟩, d₁⟩
  all_goals rw [arrived] at arriving
  · exact arriving.toBalances
  · obtain ⟨-, bound, found, -⟩ := Debugger.arrive_eq_some arrived
    have contending := d₁.balances_contend system thread id false
    have contended := d₁.contended thread id false
    simp only
    rw [contendAndHandle_eq]
    rcases asked : d₁.contend thread id false with ⟨turn, d₂⟩
    rw [asked] at contending contended
    have before := arriving.toBalances.trans contending
    cases turn with
    | dropped | wait => exact before
    | ticket =>
        have settled₁ := arriving.settled settled
        have settled₂ := before.settled settled
        have known : id < d₂.contexts.size :=
          Nat.lt_of_lt_of_le (settled₁.regular.numbered.wellTracked.1.known found).1 contending.history.size
        -- The thread holds the ticket until it gives it back.
        have occupied : d₂.Occupied system := by
          have own : (d₂.currentThread system).1 = thread :=
            contending.thread.trans (congrArg (·.1) (Host.currentThread_of_bound bound))
          rw [Debugger.Occupied, own]
          generalize d₁.ticket = ticket, d₂.ticket = ticket' at contended
          cases contended with
          | taken waiting | granted waiting => exact ⟨waiting, rfl⟩
        have dispatches : Debugger.Operates d₂ (d₂.dispatch system id event).2 := .dispatch known system event
        have dispatched := (d₂.touches_dispatch system id event stays).reinstates (.single dispatches)
        simp only [handleWithTicket_eq, Outcome.complete]
        have driven := balances_drive conforms (d₂.dispatch system id event).1.rank
          (d₂.dispatch system id event).1 (dispatched.settled settled₂) (dispatched.occupied occupied)
          (Nat.lt_of_lt_of_le known dispatches.size) state
        exact ((before.trans dispatched.toBalances).trans driven).trans (Debugger.balances_release _ system)

namespace Debugger

/-- In every state of a debugger, programs of nested sections restore the starts of the debugger, its switch for
post-mortems and the mark of the current context, whatever the front-end does and whatever fails. As long as the
context of a thread is marked, an event of the thread makes no call of any front-end and leaves the context alone, but
that a suspended context is to be woken up; so a section whose events are not handled runs alike with all front-ends. -/
theorem restored_of_scoped {settings : Settings} (reached : History (initial settings) d)
    (conforms : front.Conforms system) (program : Scoped system m) (state : σ) :
    ((m front (d, state)).2.1.startCount = d.startCount ∧ (m front (d, state)).2.1.isStarted = d.isStarted ∧
        (m front (d, state)).2.1.settings.postMortem = d.settings.postMortem ∧
        (m front (d, state)).2.1.skips system = d.skips system) ∧
      (∀ id, d.contextOf? (d.currentThread system).1 = some id → (d.context id).skipped →
        (∀ event, ∃ progress d', Unheard ε id d progress d' ∧
          ∀ (other : FrontEnd σ ε) state, handleEvent other system event (d, state) = (progress, d', state)) ∧
        ∀ pending : PendingEvent, pending.context = id → ∃ progress d', Unheard ε id d progress d' ∧
          ∀ (other : FrontEnd σ ε) state, continueEvent other pending (d, state) = (progress, d', state)) ∧
      ((∃ id, (d.currentContext system).1 = .ok id) → ∀ other : FrontEnd σ ε,
        runSkipped system (m other) (d, state) = runSkipped system (m front) (d, state)) := by
  have settled := reached.settled (settled_initial settings)
  have reinstates := program.reinstates settled (.inl conforms.restoring) state
  refine ⟨⟨reinstates.startCount, reinstates.started, reinstates.postMortem, reinstates.skips settled.regular⟩,
    fun id found skipped => ⟨fun event => ?_, ?_⟩, ?_⟩
  · obtain ⟨progress, d', unheard, handled⟩ := handleEvent_of_skipped ε settled.regular found skipped event
    exact ⟨progress, d', unheard, handled⟩
  · rintro pending rfl
    have known := (settled.regular.numbered.wellTracked.1.known found).1
    obtain ⟨progress, d', unheard, handled⟩ := continueEvent_of_skipped ε pending known skipped
    exact ⟨progress, d', unheard, handled⟩
  · rintro ⟨id, current⟩ other
    rcases is : d.currentContext system with ⟨found, d₁⟩
    rw [is] at current
    obtain rfl : found = .ok id := current
    have met := d.reinstates_currentContext system
    rw [is] at met
    have settled₁ := met.settled settled
    have found := found_of_currentContext is
    have present := (present_of_currentContext is).of_attended met.host
    have marked : (d₁.updateContext id ({ · with skipped := true })).marked system := by
      rw [marked_updateContext found (settled₁.regular.numbered.wellTracked.1.known found).1]
    rw [runSkipped_eq, runSkipped_eq, is]
    simp only [program.run_eq_of_screened (settled₁.skip id true) (.inr ⟨present, marked⟩) front other]

def expectant : Debugger := ((initial .standard).start.2.interrupt 0).2

theorem history_expectant : History (initial .standard) expectant :=
  (Relation.ReflTransGen.single (operates_start _)).tail (.request _ (.debugger .interrupt) 0)

def refusing : FrontEnd Unit Unit := fun _ _ => return .error ()

theorem conforms_refusing : refusing.Conforms 0 := fun _ => ⟨fun _ => return .error (), .pure _, rfl⟩

def failed : Except Error (Progress Unit) → Bool
  | .ok (.finished (.error (.frontEnd _))) => true
  | _ => false

theorem restored_after_failure : History (initial .standard) expectant ∧ refusing.Conforms 0 ∧
    failed (runStarted (runWithPostMortem (handleEvent refusing 0 bareLine)) (expectant, ())).1 ∧
    (runStarted (runWithPostMortem (handleEvent refusing 0 bareLine)) (expectant, ())).2.1.startCount = 1 := by
  have program : Scoped 0 fun front : FrontEnd Unit Unit =>
      runStarted (runWithPostMortem (handleEvent front 0 bareLine)) :=
    .started (.withPostMortem (.event bareLine rfl))
  refine ⟨history_expectant, conforms_refusing, by decide +kernel, ?_⟩
  exact (restored_of_scoped history_expectant conforms_refusing program ()).1.1

def dozing : Debugger :=
  let d := (expectant.currentContext 0).2
  let d := { d with host := d.host.setStatus ⟨1, "main"⟩ .sleeping }
  (Request.context 0 .suspend).serve 0 (d.updateContext 0 ({ · with skipped := true }))

theorem history_dozing : History (initial .standard) dozing := by
  have asleep : History (initial .standard) _ :=
    (history_expectant.tail (.current _ 0)).tail (.host (.execute (Host.sameThreads_updateThread _ ⟨1, "main"⟩
      (fun record => { record with status := .sleeping }) fun _ => ⟨rfl, rfl, rfl⟩)))
  exact (asleep.tail (.skip _ 0 true)).tail (.request _ (.context 0 .suspend) 0)

/-- An event whose thread parks notes this in the context, though events of it are not handled. -/
theorem parks_though_skipped : History (initial .standard) dozing ∧ (dozing.context 0).skipped ∧
    (dozing.context 0).wasRunning = false ∧
    (((handleEvent refusing 0 bareLine (dozing, ())).2.1.context 0).wasRunning = true) :=
  ⟨history_dozing, rfl, rfl, rfl⟩

end Debugger

end EventDebugger
