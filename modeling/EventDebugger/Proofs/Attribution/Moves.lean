import EventDebugger.Proofs.Attribution.Events
import EventDebugger.Proofs.Attribution.Plain
import EventDebugger.Proofs.Observation.Replay
import EventDebugger.Proofs.Schedule.System
import EventDebugger.Proofs.Ticket.Heard

/-!
# What a move records

Between two events of a single thread the ticket is free and nothing is announced, so every event gets the ticket and
finds the debugger as the configuration says. A move then records halts that are due to its event, or ends the thread
and records the post-mortem of the exception that nothing caught.

* `Calm.handleEvent`: the halts of an event.
* `ReplayThread.attributed_step`: the halts of a move.
-/

namespace EventDebugger

namespace Debugger

variable {config : Config} {program : Program} {d d' : Debugger} {system : Nat} {id : ContextId} {thread : Thread}
  {event : Event} {r : Recorder}

theorem Obeys.of_rules (h : d.Obeys config program) (rules : d'.rules = d.rules) : d'.Obeys config program := by
  simp only [Debugger.rules, Prod.mk.injEq] at rules
  obtain ⟨-, registry, catchpoint, parents⟩ := rules
  refine ⟨fun {session} active => ?_, catchpoint.trans h.caught, parents.trans h.parents⟩
  rw [active, Option.map_some] at registry
  obtain ⟨session', active', same⟩ := Option.map_eq_some_iff.mp registry.symm
  exact same ▸ h.listed active'

theorem Notifies.of_host (h : d.Notifies system thread event) (host : d'.host = d.host) :
    d'.Notifies system thread event :=
  ⟨host ▸ h.bound, h.received, host ▸ h.inside⟩

structure Equipped (config : Config) (program : Program) (d : Debugger) : Prop where
  obeys : d.Obeys config program
  tracked : d.WellTracked
  live : ∀ {thread id}, d.contextOf? thread = some id → (d.context id).dead = false
  plain : d.Plain

namespace Equipped

theorem of_origin (h : d.Equipped config program) (rules : d'.rules = d.rules) (tracked : d'.WellTracked)
    (origin : ∀ {thread id}, d'.contextOf? thread = some id →
      d.contextOf? thread = some id ∨ d.contexts.size ≤ id)
    (live : ∀ id, Preserves (·.dead = false) id d d') (plain : d'.Plain) : d'.Equipped config program := by
  refine ⟨h.obeys.of_rules rules, tracked, fun {_ id} found => live id ?_, plain⟩
  rcases origin found with old | unknown
  · exact h.live old
  · rw [context_unknown unknown]
    rfl

theorem of_tracks (h : d.Equipped config program) (tracks : Tracks d d') (rules : d'.rules = d.rules)
    (live : ∀ id, Preserves (·.dead = false) id d d') (plain : d'.Plain) : d'.Equipped config program :=
  h.of_origin rules (tracks.tracked h.tracked) (tracks.origin h.tracked) live plain

theorem of_doneFor (h : d.Equipped config program) (done : DoneFor thread d d')
    (live : ∀ id, Preserves (·.dead = false) id d d') (plain : d'.Plain) : d'.Equipped config program :=
  h.of_origin done.rules (done.tracked h.tracked) (done.origin h.tracked) live plain

theorem of_touches (h : d.Equipped config program) (touches : Touches system id d d')
    (bound : d.host.boundTo? system = some thread) (plain : d'.Plain) : d'.Equipped config program := by
  have rules : d'.rules = d.rules := by
    unfold Debugger.rules
    rw [touches.rest, touches.host.eq_of_bound bound]
  have session (thread : Thread) : d'.contextOf? thread = d.contextOf? thread := by
    rw [contextOf?, touches.session, contextOf?]
  refine ⟨h.obeys.of_rules rules, ⟨fun active => ?_, fun active stored => ?_⟩, fun {thread id} found => ?_, plain⟩
  · exact h.tracked.coherent (touches.session ▸ active)
  · obtain ⟨known, home⟩ := h.tracked.home (touches.session ▸ active) stored
    exact ⟨Nat.lt_of_lt_of_le known touches.size, (congrArg (·.1) (touches.traits _ known)).trans home⟩
  · rw [session] at found
    exact (congrArg (·.2.2.2.2.2.2.1) (touches.traits _ (h.tracked.known found).1)).trans (h.live found)

theorem of_ended (h : d.Equipped config program) (ended : d'.session = none)
    (catchpoint : d'.catchpoint = d.catchpoint) (host : d'.host = d.host) (plain : d'.Plain) :
    d'.Equipped config program := by
  refine ⟨⟨fun active => ?_, catchpoint.trans h.obeys.caught, host ▸ h.obeys.parents⟩, .of_ended ended,
    fun found => ?_, plain⟩
  · cases ended.symm.trans active
  · rw [contextOf?, ended] at found
    cases found

theorem withHost (h : d.Equipped config program) {host : Host} (parents : host.parents = d.host.parents) :
    ({ d with host } : Debugger).Equipped config program :=
  ⟨⟨h.obeys.listed, h.obeys.caught, parents.trans h.obeys.parents⟩, ⟨h.tracked.coherent, h.tracked.home⟩, h.live,
    h.plain.of_same rfl rfl⟩

theorem hold (h : d.Equipped config program) (thread : Thread) : (d.hold thread).Equipped config program :=
  h.of_doneFor (d.doneFor_hold thread) (fun _ => .of_contexts rfl) (h.plain.of_same rfl rfl)

theorem track (h : d.Equipped config program) {session : Session} (active : d.session = some session)
    (thread : Thread) : (d.track session thread).2.Equipped config program :=
  h.of_doneFor (doneFor_track active thread) (fun _ => preserves_track inert_live.tolerant d session thread)
    (h.plain.track session thread)

theorem step (h : d.Equipped config program) {n : Int}
    (stepped : d.command id (fun context => context.step n false) = .ok d') : d'.Equipped config program := by
  have keeps {context context' : Context} (is : context.step n false = .ok context') :
      context'.dead = context.dead ∧ (context.Plain → context'.Plain) := by
    obtain ⟨_, _, changed⟩ := except_bind_eq_ok is
    cases changed
    exact ⟨rfl, fun plain => plain⟩
  have tends : Tends 0 d d' := tends_command (core_step n false) stepped
  have rules : d'.rules = d.rules := by
    obtain ⟨_, _, changed⟩ := except_bind_eq_ok stepped
    cases changed
    rfl
  exact h.of_tracks tends.tracks rules
    (fun _ => preserves_command (fun is live => (keeps is).1.trans live) stepped) (h.plain.command keeps stepped)

theorem release (h : d.Equipped config program) : d.release.Equipped config program :=
  h.of_doneFor (d.doneFor_release default) (fun _ => preserves_release d) h.plain.release

theorem dispatch (h : d.Equipped config program) (bound : d.host.boundTo? system = some thread) (id : ContextId)
    (event : Event) : (d.dispatch system id event).2.Equipped config program := by
  have plain := h.plain.dispatch system id event
  cases exits : event.isExit with
  | false => exact h.of_touches (d.touches_dispatch system id event exits) bound plain
  | true =>
      obtain ⟨d', touches, same | ended⟩ := d.dispatch_exit system id event exits
      · exact h.of_touches (same ▸ touches) bound plain
      · rw [ended] at plain ⊢
        have inactive : d'.forceStop.session = none :=
          Option.isNone_iff_eq_none.mp (Option.isSome_eq_false_iff.mp d'.isStarted_forceStop)
        have kept : d'.forceStop.catchpoint = d'.catchpoint := by
          simp only [forceStop]
          split <;> rfl
        refine h.of_ended inactive (kept.trans (congrArg (·.catchpoint) touches.rest)) ?_ plain
        exact d'.host_forceStop.trans (touches.host.eq_of_bound bound)

end Equipped

def Free (d : Debugger) : Prop := ∀ ticket ∈ d.ticket, ticket = (none, [])

theorem contend_of_free {session : Session} (active : d.session = some session) (free : d.Free) (plain : d.Plain)
    (thread : Thread) (id : ContextId) : d.contend thread id false = (.ticket, d.hold thread) := by
  have ticket := free (session.holder, session.waiting) (by simp only [Debugger.ticket, active, Option.map_some]; rfl)
  have untaken : session.holder = none := congrArg (·.1) ticket
  simp only [contend, active, untaken, letIn, (plain.contexts id).1, Debugger.hold, Option.map_some,
    Bool.false_eq_true, if_false]

theorem ticket_hold (d : Debugger) (thread : Thread) :
    (d.hold thread).ticket = d.ticket.map fun ticket => (some thread, ticket.2) := by
  simp only [Debugger.ticket, Debugger.hold, Option.map_map]
  rfl

theorem free_release (alone : ∀ ticket ∈ d.ticket, ticket.2 = []) : d.release.Free := by
  intro ticket is
  rw [ticket_release] at is
  obtain ⟨before, was, rfl⟩ := Option.map_eq_some_iff.mp is
  rw [alone before was]
  rfl

end Debugger

/-! ## Events -/

structure Calm (config : Config) (program : Program) (s : Debugger × Recorder) : Prop where
  equipped : s.1.Equipped config program
  free : s.1.Free
  settled : s.2.announced = none

namespace Calm

variable {config : Config} {program : Program} {d : Debugger} {system : Nat} {id : ContextId} {thread : Thread}
  {event : Event} {r : Recorder}

theorem withHost (h : Calm config program (d, r)) {host : Host} (parents : host.parents = d.host.parents) :
    Calm config program ({ d with host }, r) :=
  ⟨h.equipped.withHost parents, h.free, h.settled⟩

theorem handleWithTicket (equipped : d.Equipped config program) (held : ∀ ticket ∈ d.ticket, ticket.2 = [])
    (settled : r.announced = none) (found : d.contextOf? thread = some id)
    (notifies : d.Notifies system thread event) :
    let handled := EventDebugger.handleWithTicket Recorder.frontEnd system id event (d, r)
    Calm config program handled.2 ∧ r.Gains (·.DueTo config program d.host.scopes event) handled.2.2 := by
  have known := (equipped.tracked.known found).1
  have founded := Debugger.founded_dispatch known (equipped.plain.contexts id).2 notifies.bound event
  have dispatched := equipped.dispatch notifies.bound id event
  have released {d' : Debugger} {r' : Recorder} (equipped : d'.Equipped config program)
      (held : ∀ ticket ∈ d'.ticket, ticket.2 = []) (settled : r'.announced = none) :
      Calm config program (d'.release, r') := ⟨equipped.release, Debugger.free_release held, settled⟩
  rw [handleWithTicket_eq]
  dsimp only
  rcases d.dispatch_cases system id event with touches | ⟨done, ended, -, -⟩
  · have gains := founded.gains equipped.obeys notifies touches known (equipped.live found)
      (dispatched.plain.contexts id).2 settled
    have about := d.about_dispatch system id event
    have known' := Nat.lt_of_lt_of_le known touches.size
    have bound' : (d.dispatch system id event).2.host.boundTo? system = some thread := by
      rw [touches.host.eq_of_bound notifies.bound]
      exact notifies.bound
    have ticket := touches.keeps.ticket
    generalize d.dispatch system id event = piece at gains about known' bound' ticket dispatched ⊢
    have plain := dispatched.plain.drive system id r piece.1.rank piece.1
    obtain ⟨records, used⟩ := Recorder.records_drive piece.2 r id system _ about (Nat.le_refl _) known' settled
    have driven := dispatched.of_touches records.touches bound' plain
    have held' := records.touches.keeps.ticket.trans ticket
    exact ⟨released driven (fun ticket is => held ticket (held' ▸ is)) used, gains⟩
  · rw [done]
    unfold Outcome.complete
    rw [drive_done]
    refine ⟨released dispatched (fun ticket is => ?_) settled, .of_same rfl⟩
    rw [Debugger.ticket, ended] at is
    cases is

theorem handleEvent_of_heeded (h : Calm config program (d, r)) {session : Session} (active : d.session = some session)
    (bound : d.host.boundTo? system = some thread) (heard : Host.isAllocator event.method = false) :
    let arrived := d.counted.track session thread
    (arrived.2.context arrived.1).ignored = false →
      EventDebugger.handleEvent Recorder.frontEnd system event (d, r) =
        let handled := EventDebugger.handleWithTicket Recorder.frontEnd system arrived.1 event
          (arrived.2.hold thread, r)
        (.finished handled.1, handled.2) := by
  intro arrived heeded
  have counted : d.counted.Plain := h.equipped.plain.of_same rfl rfl
  have ticket : arrived.2.ticket = d.ticket := Debugger.ticket_track (d := d.counted) active thread
  have free : arrived.2.Free := fun other is => h.free other (ticket ▸ is)
  obtain ⟨session', active', -⟩ := Option.bind_eq_some_iff.mp (Debugger.contextOf?_track d.counted session thread)
  rw [handleEvent_eq, Debugger.arrive_of_bound active bound, if_neg (Bool.eq_false_iff.mp heard)]
  dsimp only
  rw [if_neg (Bool.eq_false_iff.mp heeded)]
  dsimp only
  rw [contendAndHandle_eq, Debugger.contend_of_free active' free (counted.track session thread)]

theorem handleEvent (h : Calm config program (d, r)) (notifies : d.Notifies system thread event) :
    ∃ result after, handleEvent Recorder.frontEnd system event (d, r) = (.finished result, after) ∧
      Calm config program after ∧ r.Gains (·.DueTo config program d.host.scopes event) after.2 := by
  cases active : d.session with
  | none =>
      rw [handleEvent_eq, Debugger.arrive_inactive active]
      exact ⟨_, _, rfl, h, .of_same rfl⟩
  | some session =>
      have counted : d.counted.Equipped config program :=
        h.equipped.of_tracks (.of_same rfl (.refl _) rfl rfl fun _ => rfl) rfl (fun _ => .of_contexts rfl)
          (h.equipped.plain.of_same rfl rfl)
      have tracked : (d.counted.track session thread).2.Equipped config program := counted.track active thread
      have ticket := Debugger.ticket_track (d := d.counted) active thread
      have found := Debugger.contextOf?_track d.counted session thread
      have host := d.counted.host_track session thread
      cases allocates : Host.isAllocator event.method with
      | true =>
          rw [handleEvent_eq, Debugger.arrive_of_bound active notifies.bound, if_pos allocates]
          exact ⟨_, _, rfl, ⟨counted, h.free, h.settled⟩, .of_same rfl⟩
      | false =>
          have free : (d.counted.track session thread).2.Free := fun other is => h.free other (ticket ▸ is)
          cases ignored : ((d.counted.track session thread).2.context (d.counted.track session thread).1).ignored with
          | true =>
              rw [handleEvent_eq, Debugger.arrive_of_bound active notifies.bound,
                if_neg (Bool.eq_false_iff.mp allocates)]
              dsimp only
              rw [if_pos ignored]
              exact ⟨_, _, rfl, ⟨tracked, free, h.settled⟩, .of_same rfl⟩
          | false =>
              refine ⟨_, _, h.handleEvent_of_heeded active notifies.bound allocates ignored, ?_⟩
              generalize d.counted.track session thread = arrived at tracked ticket found host free ⊢
              obtain ⟨session', active', -⟩ := Option.bind_eq_some_iff.mp found
              have held : ∀ ticket ∈ (arrived.2.hold thread).ticket, ticket.2 = [] := by
                intro ticket is
                rw [Debugger.ticket_hold] at is
                obtain ⟨before, was, rfl⟩ := Option.map_eq_some_iff.mp is
                exact congrArg (·.2) (free before was)
              have found' : (arrived.2.hold thread).contextOf? thread = some arrived.1 := by
                rw [← found]
                simp only [Debugger.contextOf?, Debugger.hold, active', Option.map_some, Option.bind_some]
              obtain ⟨calm, gains⟩ := handleWithTicket (tracked.hold thread) held h.settled found'
                (notifies.of_host host)
              have same : (arrived.2.hold thread).host = d.host := host
              exact ⟨calm, same ▸ gains⟩

end Calm

/-! ## Post-mortems -/

structure HaltRecord.OfPostMortem (halt : HaltRecord) : Prop where
  reason : halt.reason = .postMortem
  breakpoint : halt.breakpoint = none
  exception : halt.exception = none

namespace Debugger

theorem kept_of_postMortem? {d : Debugger} {exception : Value} {kept : PostMortem} (plain : d.Plain)
    (found : d.postMortem? exception = some kept) : (d.context kept.context).dead := by
  cases exception with
  | exception className number =>
      obtain ⟨before, after, split, -⟩ := List.lookup_eq_some_iff.mp found
      exact plain.kept (number, kept) (split ▸ List.mem_append_right before List.mem_cons_self)
  | _ => cases found

end Debugger

theorem ReplayThread.uncaught_eq {σ ε : Type} (frontEnd : FrontEnd σ ε) (system : Nat) (exception : Value)
    (d : Debugger) (s : σ) :
    uncaught frontEnd system exception (d, s) =
      if d.isStarted then
        match d.postMortem? exception with
        | some kept => handlePostMortem frontEnd system kept (d, s)
        | none => (.ok (), d, s)
      else (.ok (), d, s) := by
  have current : (Run.debugger : Run σ Debugger) (d, s) = (d, d, s) := rfl
  rw [uncaught, run_bind_eq, current]
  dsimp only
  split
  · cases d.postMortem? exception <;> rfl
  · rfl

theorem records_of_uncaught {d : Debugger} {r : Recorder} (plain : d.Plain) (settled : r.announced = none)
    (system : Nat) (exception : Value) :
    let after := (ReplayThread.uncaught Recorder.frontEnd system exception (d, r)).2
    after.2.records = r.records ∨
      ∃ halt : HaltRecord, halt.OfPostMortem ∧ after.2.records = r.records.push (.halt halt) := by
  rw [ReplayThread.uncaught_eq]
  split
  · split
    · next kept found =>
        have dead := Debugger.kept_of_postMortem? plain found
        have tolerant : Tolerant (·.dead = true) := ⟨fun dead _ _ _ => dead, nofun⟩
        have dead' := Debugger.preserves_enterPostMortem tolerant d system dead
        rw [handlePostMortem_eq]
        split
        · exact .inl rfl
        · generalize d.enterPostMortem system = entered at dead' ⊢
          obtain ⟨_ | before, d'⟩ := entered
          · exact .inl rfl
          · have halts := Recorder.records_of_onHalt d' r kept.context kept.position
            have same : (Recorder.frontEnd system (.line kept.context kept.position) (d', r)) =
              Recorder.onHalt kept.context kept.position (d', r) := rfl
            dsimp only
            rw [same]
            generalize Recorder.onHalt kept.context kept.position (d', r) = visited at halts ⊢
            have records : ∀ {result : HookResult Error × Debugger × Recorder}, result.2.2 = visited.2.2 →
                result.2.2.records = r.records ∨
                  ∃ halt : HaltRecord, halt.OfPostMortem ∧ result.2.2.records = r.records.push (.halt halt) := by
              intro result same
              rw [same]
              refine halts.imp_right fun ⟨halt, shows, pushed⟩ => ⟨halt, ⟨?_, ?_, ?_⟩, pushed⟩
              · rw [shows.reason, Context.stopReason, if_pos dead']
              · rw [shows.breakpoint, settled]
                rfl
              · rw [shows.exception, settled]
                rfl
            rcases visited.2.1.leavePostMortem system before with ⟨_ | _, d''⟩
            · exact records rfl
            · exact records rfl
    · exact .inl rfl
  · exact .inl rfl

/-! ## Moves -/

namespace Host

variable {host : Host} {system : Nat} {thread : Thread}

theorem enterScope_eq (bound : host.boundTo? system = some thread) (scope : Scope) :
    host.enterScope system scope = host.updateThread thread ({ · with scope }) := by
  simp only [enterScope, currentThread_of_bound bound]

theorem enterScope_keeps (bound : host.boundTo? system = some thread) (scope : Scope) :
    (host.enterScope system scope).scopes = host.scopes ∧ (host.enterScope system scope).parents = host.parents := by
  rw [enterScope_eq bound]
  exact ⟨rfl, rfl⟩

theorem record?_enterScope (bound : host.boundTo? system = some thread) (alive : host.isAlive thread)
    (scope : Scope) :
    ∃ record, (host.enterScope system scope).record? thread = some record ∧ record.scope = scope := by
  unfold isAlive at alive
  split at alive
  · next record found =>
      refine ⟨{ record with scope }, ?_, rfl⟩
      have updated := record?_updateThread_self host thread ({ · with scope }) fun _ => rfl
      rw [enterScope_eq bound, updated, found, Option.map_some]
  · cases alive

theorem parents_exitThread (host : Host) (thread : Thread) : (host.exitThread thread).parents = host.parents := by
  unfold exitThread
  split
  · rfl
  · dsimp only
    split <;> rfl

end Host

theorem Action.explicit {action : Action} {thread : Thread} {activations : Activations} {host : Host} {event : Event}
    (notified : (action.perform thread activations host).event = some event) :
    event.receiver.isSome ∧
      ∀ {exception}, event.kind = .raise exception → ∃ className number, exception = .exception className number := by
  cases action with
  | raise className =>
      cases notified
      exact ⟨rfl, fun is => ⟨className, _, (EventKind.raise.inj is).symm⟩⟩
  | line | call | callReturn | nativeCall | nativeReturn | openClass | closeClass | bareReturn =>
      cases notified
      exact ⟨rfl, nofun⟩
  | enterBlock | leaveBlock | assign | fallAsleep | wakeUp | rescue => cases notified

namespace ReplayThread

variable {config : Config} {program : Program} {t t' : ReplayThread Error} {d : Debugger} {r : Recorder}
  {s : Debugger × Recorder}

/-- The event that the next move of a thread notifies, and the variables at that time. -/
inductive Notifies (t : ReplayThread Error) (d : Debugger) : Event → Scopes → Prop where
  | intro {activations : Activations} {action : Action} {actions : List Action} {event : Event}
      (phase : t.phase = .running activations (action :: actions))
      (notified : (action.perform t.thread activations d.host).event = some event) :
      Notifies t d event (action.perform t.thread activations d.host).host.scopes

def Waits (t : ReplayThread Error) : Prop :=
  match t.phase with
  | .waiting _ _ _ => True
  | _ => False

inductive Attributed (config : Config) (program : Program) (t : ReplayThread Error) (d : Debugger) (r : Recorder) :
    ReplayThread Error × Debugger × Recorder → Prop where
  | calm {t' : ReplayThread Error} {s : Debugger × Recorder} (steady : ¬ t'.Waits) (calm : Calm config program s)
      (gains : r.Gains (fun halt => ∃ event scopes, t.Notifies d event scopes ∧
        halt.DueTo config program scopes event) s.2) : Attributed config program t d r (t', s)
  | ended {t' : ReplayThread Error} {s : Debugger × Recorder} (exited : ∃ result, t'.phase = .exited result)
      (records : s.2.records = r.records ∨
        ∃ halt : HaltRecord, halt.OfPostMortem ∧ s.2.records = r.records.push (.halt halt)) :
      Attributed config program t d r (t', s)

theorem notifies_entered {thread : Thread} {system : Nat} {activations : Activations} {action : Action}
    {event : Event} {scope : Scope} (alone : d.Alone system thread)
    (notified : (action.perform thread activations d.host).event = some event) (placed : event.scope = some scope) :
    ({ d with host := (action.perform thread activations d.host).host.enterScope system scope } : Debugger).Notifies
      system thread event := by
  have performs := action.performs thread system activations d.host
  have bound := (performs.same.boundTo?_eq system).trans alone.bound
  have alive := (performs.same.isAlive_eq thread).trans alone.alive
  refine ⟨?_, (Action.explicit notified).1, ?_⟩
  · exact ((Host.sameThreads_enterScope bound scope).boundTo?_eq system).trans bound
  · obtain ⟨record, found, here⟩ := Host.record?_enterScope bound alive scope
    exact ⟨record, found, here ▸ placed⟩

theorem attributed_step (calm : Calm config program (d, r)) (alone : t.Alone d) (steady : ¬ t.Waits) :
    Attributed config program t d r (t.step Recorder.frontEnd (d, r)) := by
  obtain ⟨thread, system, steps, phase⟩ := t
  cases phase with
  | starting =>
      rw [step_starting]
      exact .calm id (calm.withHost rfl) (.of_same rfl)
  | waiting activations actions pending => exact absurd trivial steady
  | exited result =>
      change Attributed config program _ d r (⟨thread, system, steps, .exited result⟩, d, r)
      exact .calm id calm (.of_same rfl)
  | running activations actions =>
      have alone : d.Alone system thread := alone
      cases actions with
      | nil =>
          obtain ⟨root, inner, raised⟩ := activations
          cases raised with
          | none => exact .ended ⟨_, rfl⟩ (.inl rfl)
          | some exception =>
              have records := records_of_uncaught calm.equipped.plain calm.settled system exception
              exact .ended ⟨_, rfl⟩ records
      | cons action actions =>
          have performs := action.performs thread system activations d.host
          cases notified : (action.perform thread activations d.host).event with
          | none =>
              rw [step_silent _ _ _ _ _ _ _ notified]
              exact .calm id (calm.withHost performs.acted.parents) (.of_same rfl)
          | some event =>
              obtain ⟨scope, placed⟩ := performs.placed notified
              have bound := (performs.same.boundTo?_eq system).trans alone.bound
              obtain ⟨scopes, parents⟩ := Host.enterScope_keeps bound scope
              have notifies := notifies_entered alone notified placed
              obtain ⟨result, after, handles, later, gains⟩ :=
                (calm.withHost (parents.trans performs.acted.parents)).handleEvent notifies
              have next : Notifies ⟨thread, system, steps, .running activations (action :: actions)⟩ d event _ :=
                .intro rfl notified
              rw [scopes] at gains
              rw [step_event _ _ _ _ _ _ _ notified placed handles]
              cases result with
              | error error =>
                  have calm := later.withHost (Host.parents_exitThread after.1.host thread)
                  exact .calm id calm (gains.mono fun due => ⟨event, _, next, due⟩)
              | ok => exact .calm id later (gains.mono fun due => ⟨event, _, next, due⟩)

end ReplayThread

end EventDebugger
