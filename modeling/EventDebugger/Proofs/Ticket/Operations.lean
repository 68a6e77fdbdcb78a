import EventDebugger.Proofs.Ticket.Untouched

/-!
# What becomes of the ticket

How the ticket and its queue change with each operation of the debugger.

* `Debugger.contended`: asking for the ticket, in all its outcomes.
* `Debugger.ticket_release`: giving it back hands it to the first thread of the queue.
* `Debugger.ticket_dispatch`, `Debugger.shifts_request`: other operations end or begin a session at
  most.
-/

namespace EventDebugger

/-! ## Asking and giving back -/

inductive Contended (thread : Thread) (granted : Bool) :
    Option (Option Thread × List Thread) → Turn → Option (Option Thread × List Thread) → Prop where
  | inactive : Contended thread granted none .dropped none
  | taken (waiting : List Thread) :
      Contended thread granted (some (none, waiting)) .ticket (some (some thread, waiting))
  | granted (waiting : List Thread) (handed : granted = true) :
      Contended thread granted (some (some thread, waiting)) .ticket (some (some thread, waiting))
  | reentrant (waiting : List Thread) (asked : granted = false) :
      Contended thread granted (some (some thread, waiting)) .dropped (some (some thread, waiting))
  | queued {holder : Thread} (waiting : List Thread) (other : holder ≠ thread) :
      Contended thread granted (some (some holder, waiting)) (.wait .queued)
        (some (some holder, if waiting.contains thread then waiting else waiting ++ [thread]))
  | parked (waiting : List Thread) :
      Contended thread granted (some (none, waiting)) (.wait .parked)
        (some (waiting.head?, waiting.tail))
  | handedOn (waiting : List Thread) (handed : granted = true) :
      Contended thread granted (some (some thread, waiting)) (.wait .parked)
        (some (waiting.head?, waiting.tail))

namespace Debugger

theorem letIn_cases (d : Debugger) (session : Session) (id : ContextId) :
    ((d.letIn session id).1 = .ticket ∧
        (d.letIn session id).2.ticket = some (session.holder, session.waiting)) ∨
      ((d.letIn session id).1 = .wait .parked ∧
        (d.letIn session id).2.ticket = some (session.waiting.head?, session.waiting.tail)) := by
  simp only [letIn]
  split
  · exact .inr ⟨rfl, rfl⟩
  · exact .inl ⟨rfl, rfl⟩

theorem host_letIn (d : Debugger) (session : Session) (id : ContextId) :
    (d.letIn session id).2.host = d.host := by
  simp only [letIn]
  split <;> rfl

theorem letIn_of_contend {d d' : Debugger} {thread : Thread} {id : ContextId} {granted : Bool} {turn : Turn}
    (contends : d.contend thread id granted = (turn, d')) (dropped : turn ≠ .dropped)
    (queued : turn ≠ .wait .queued) : ∃ session, d.letIn session id = (turn, d') := by
  simp only [contend] at contends
  split at contends
  · cases contends
    exact absurd rfl dropped
  · split at contends
    · exact ⟨_, contends⟩
    · split at contends
      · split at contends
        · exact ⟨_, contends⟩
        · cases contends
          exact absurd rfl dropped
      · cases contends
        exact absurd rfl queued

theorem contended (d : Debugger) (thread : Thread) (id : ContextId) (granted : Bool) :
    Contended thread granted d.ticket (d.contend thread id granted).1
      (d.contend thread id granted).2.ticket := by
  cases active : d.session with
  | none =>
      simp only [contend, active, ticket, Option.map_none]
      exact .inactive
  | some session =>
      obtain ⟨table, registry, holder, waiting⟩ := session
      have before : d.ticket = some (holder, waiting) := by simp only [ticket, active, Option.map_some]
      rw [before]
      simp only [contend, active]
      cases holder with
      | none =>
          rcases d.letIn_cases ⟨table, registry, some thread, waiting⟩ id with ⟨turn, after⟩ | ⟨turn, after⟩
          · rw [turn, after]
            exact .taken waiting
          · rw [turn, after]
            exact .parked waiting
      | some holder =>
          by_cases same : holder = thread
          · subst same
            simp only [if_true]
            cases granted with
            | false =>
                rw [if_neg Bool.false_ne_true, before]
                exact .reentrant waiting rfl
            | true =>
                rw [if_pos rfl]
                rcases d.letIn_cases ⟨table, registry, some holder, waiting⟩ id with
                  ⟨turn, after⟩ | ⟨turn, after⟩
                · rw [turn, after]
                  exact .granted waiting rfl
                · rw [turn, after]
                  exact .handedOn waiting rfl
          · simp only [if_neg same]
            have queue : (⟨table, registry, some holder, waiting⟩ : Session).enqueue thread =
                ⟨table, registry, some holder,
                  if waiting.contains thread then waiting else waiting ++ [thread]⟩ := by
              simp only [Session.enqueue]
              split <;> rfl
            rw [queue]
            exact .queued waiting same

theorem host_contend (d : Debugger) (thread : Thread) (id : ContextId) (granted : Bool) :
    (d.contend thread id granted).2.host = d.host := by
  simp only [contend]
  split
  · rfl
  · split
    · exact host_letIn _ _ _
    · split
      · split
        · exact host_letIn _ _ _
        · rfl
      · rfl

theorem ticket_release (d : Debugger) :
    d.release.ticket = d.ticket.map fun ticket => (ticket.2.head?, ticket.2.tail) := by
  simp only [release, ticket]
  split
  · next inactive => simp only [wakeUp, inactive, Option.map_none]
  · next session active =>
      simp only [pruneWhenDue, active]
      split <;> rfl

theorem host_release (d : Debugger) : d.release.host = d.host := by
  simp only [release]
  split
  · rfl
  · simp only [pruneWhenDue]
    split <;> rfl

theorem isStarted_eq (d : Debugger) : d.isStarted = d.ticket.isSome := by
  rw [isStarted, ticket, Option.isSome_map]

theorem isStarted_contend (d : Debugger) (thread : Thread) (id : ContextId) (granted : Bool) :
    (d.contend thread id granted).2.isStarted = d.isStarted := by
  have contended := d.contended thread id granted
  rw [isStarted_eq, isStarted_eq]
  generalize d.ticket = ticket at contended ⊢
  generalize (d.contend thread id granted).2.ticket = ticket' at contended ⊢
  generalize (d.contend thread id granted).1 = turn at contended
  cases contended <;> rfl

theorem isStarted_release (d : Debugger) : d.release.isStarted = d.isStarted := by
  rw [isStarted_eq, isStarted_eq, ticket_release, Option.isSome_map]

/-! ## Other operations -/

structure Shifts (d d' : Debugger) : Prop where
  ticket : d'.ticket = d.ticket ∨ d'.ticket = none ∨ (d.ticket = none ∧ d'.ticket = some (none, []))
  host : d.host.Grows d'.host

theorem Keeps.shifts {d d' : Debugger} (h : Keeps d d') : Shifts d d' := ⟨.inl h.ticket, h.host⟩

theorem ticket_forceStop (d : Debugger) : d.forceStop.ticket = d.ticket ∨ d.forceStop.ticket = none := by
  simp only [forceStop]
  split
  · exact .inr rfl
  · exact .inl rfl

theorem host_forceStop (d : Debugger) : d.forceStop.host = d.host := by
  simp only [forceStop]
  split <;> rfl

theorem shifts_forceStop (d : Debugger) : Shifts d d.forceStop := by
  refine ⟨d.ticket_forceStop.imp_right .inl, ?_⟩
  rw [host_forceStop]
  exact .refl _

theorem dispatch_cases (d : Debugger) (system : Nat) (id : ContextId) (event : Event) :
    Touches system id d (d.dispatch system id event).2 ∨
      ((d.dispatch system id event).1 = .done ∧ (d.dispatch system id event).2.session = none ∧
        (d.dispatch system id event).2.settings = d.settings ∧
        d.host.Met system (d.dispatch system id event).2.host) := by
  cases exits : event.isExit with
  | false => exact .inl (d.touches_dispatch system id event exits)
  | true =>
      obtain ⟨d', touched, same | ended⟩ := d.dispatch_exit system id event exits
      · rw [same]
        exact .inl touched
      · rw [ended]
        refine .inr ⟨rfl, ?_, ?_, ?_⟩
        · simp only [forceStop]
          split
          · rfl
          · next stopped => exact Option.not_isSome_iff_eq_none.mp stopped
        · rw [← touched.settings]
          simp only [forceStop]
          split <;> rfl
        · rw [host_forceStop]
          exact touched.host

theorem ticket_dispatch (d : Debugger) (system : Nat) (id : ContextId) (event : Event) :
    (d.dispatch system id event).2.ticket = d.ticket ∨ (d.dispatch system id event).2.ticket = none := by
  rcases d.dispatch_cases system id event with touched | ⟨_, ended, _⟩
  · exact .inl touched.keeps.ticket
  · exact .inr (by rw [ticket, ended, Option.map_none])

theorem grows_dispatch (d : Debugger) (system : Nat) (id : ContextId) (event : Event) :
    d.host.Grows (d.dispatch system id event).2.host := by
  rcases d.dispatch_cases system id event with touched | ⟨_, _, _, met⟩
  · exact touched.grows
  · exact met.grows

theorem shifts_start (d : Debugger) : Shifts d d.start.2 := by
  simp only [start]
  split
  · exact Keeps.shifts (.of_same rfl rfl)
  · next inactive =>
      exact ⟨.inr (.inr ⟨by simp only [ticket, inactive, Option.map_none], rfl⟩), .refl _⟩

theorem shifts_stop {d d' : Debugger} {ended : Bool} (h : d.stop = .ok (ended, d')) : Shifts d d' := by
  obtain ⟨_, _, stopped⟩ := except_bind_eq_ok h
  simp only at stopped
  split at stopped
  · cases stopped
    exact Keeps.shifts (.of_same rfl rfl)
  · cases stopped
    exact ⟨.inr (.inl rfl), .refl _⟩

theorem shifts_request (d : Debugger) (request : Request) (system : Nat) :
    Shifts d (request.serve system d) := by
  by_cases activation : request.isActivation
  · cases request with
    | context => cases activation
    | debugger command =>
        simp only [Request.isActivation, decide_eq_true_eq] at activation
        rcases activation with rfl | rfl | rfl
        · exact d.shifts_start
        · rw [Request.serve]
          change Shifts d ((do return .flag (← Script.Attempt.change stop) : Script.Attempt Script.Reply)
            (d, .initial [])).2.1
          rw [Script.Attempt.debugger_map, Script.Attempt.debugger_change]
          split
          · next stopped => exact shifts_stop stopped
          · exact (Keeps.refl d).shifts
        · exact d.shifts_forceStop
  · exact (Request.tends_request request system d (eq_false_of_ne_true activation)).keeps.shifts

theorem tends_arrive (d : Debugger) (system : Nat) (event : Event) :
    Tends system d (d.arrive system event).2 := by
  simp only [arrive]
  split
  · have counted : Tends system d { (d.currentThread system).2 with eventCount := d.eventCount + 1 } :=
      (d.tends_currentThread system).trans (.of_same rfl rfl rfl rfl)
    have tracked (session : Session) (active : d.session = some session) := counted.trans
      (tends_track (d := { (d.currentThread system).2 with eventCount := d.eventCount + 1 }) active
        (d.currentThread system).1)
    split
    · exact counted
    · split
      · exact counted
      · next session active => split <;> exact tracked session active
  · exact .refl _ d

theorem contextOf?_track (d : Debugger) (session : Session) (thread : Thread) :
    (d.track session thread).2.contextOf? thread = some (d.track session thread).1 := by
  simp only [track]
  split <;> simp only [contextOf?, Option.bind_some, ThreadTable.find?, ThreadTable.remember,
    ThreadTable.insert, if_true]

theorem arrive_eq_some {d d' : Debugger} {system : Nat} {event : Event} {thread : Thread}
    {id : ContextId} (h : d.arrive system event = (some (thread, id), d')) :
    d.session.isSome ∧ d'.host.boundTo? system = some thread ∧ d'.contextOf? thread = some id ∧
      (d'.context id).ignored = false := by
  simp only [arrive] at h
  split at h
  · next started =>
      refine ⟨started, ?_⟩
      split at h
      · cases h
      · split at h
        · cases h
        · next session active =>
            split at h
            · cases h
            · next heeded =>
                cases h
                refine ⟨?_, contextOf?_track _ _ _, eq_false_of_ne_true heeded⟩
                rw [host_track]
                exact Host.boundTo?_currentThread _ _
  · cases h

theorem tends_enterPostMortem (d : Debugger) (system : Nat) :
    Tends system d (d.enterPostMortem system).2 := by
  have current := d.tends_currentContext system
  simp only [enterPostMortem]
  split
  · next found => simpa only [found] using current
  · next found =>
      rw [found] at current
      split
      · exact current
      · next d₁ suspended =>
          have all := current.trans (tends_suspendAll suspended)
          have turnedOff : Tends system d₁ { d₁ with settings := { d₁.settings with tracing := false } } :=
            .of_same rfl rfl rfl rfl
          exact (all.trans turnedOff).trans
            (tends_updateContext _ _ _ (fun context => { context with tracing := false }) fun _ => rfl)

theorem tends_leavePostMortem (d : Debugger) (system : Nat) (before : ContextId × Bool × Bool) :
    Tends system d (d.leavePostMortem system before).2 := by
  have restored : Tends system d { d with settings := { d.settings with tracing := before.2.1 } } :=
    .of_same rfl rfl rfl rfl
  simp only [leavePostMortem]
  split
  · exact restored
  · next commanded =>
      have commanded := restored.trans (tends_command
        (core_ok (fun context => { context with tracing := before.2.2 }) fun _ => rfl) commanded)
      split
      · exact commanded
      · next resumed => exact commanded.trans (tends_resumeAll resumed)

theorem boundTo?_enterPostMortem (d : Debugger) (system : Nat) :
    (d.enterPostMortem system).2.host.boundTo? system = some (d.currentThread system).1 := by
  have bound := Host.boundTo?_currentThread d.host system
  have current : (d.currentContext system).2.host.boundTo? system = some (d.currentThread system).1 := by
    simp only [currentContext]
    split
    · next found =>
        have tends : Tends system _ _ := tends_threadContext found
        exact tends.keeps.host.bound bound
    · exact bound
  simp only [enterPostMortem]
  split
  · next found => simpa only [found] using current
  · next found =>
      rw [found] at current
      split
      · exact current
      · next suspended =>
          have tends : Tends system _ _ := tends_suspendAll suspended
          exact tends.keeps.host.bound current

end Debugger

end EventDebugger
