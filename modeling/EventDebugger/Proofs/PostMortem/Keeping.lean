import EventDebugger.Proofs.Attribution.Moves
import EventDebugger.Proofs.Dispatch.Capture
import EventDebugger.Proofs.Replay.Exhibits
import EventDebugger.Proofs.Ticket.Restoration

/-!
# What is kept while the stack unwinds

An exception that is raised keeps a picture of its place, in a context that belongs to no thread. The events that
are notified afterwards keep nothing else and leave such contexts alone, so the picture lasts.

* `Debugger.pictures_dispatch`: the picture that a raise takes.
* `Debugger.Pictures.later`: the picture afterwards.
* `Calm.guards_of_quiet`, `Calm.pictures_of_raise`: the events of a thread.
* `ReplayThread.records_of_uncaught`: the record of an exception that nothing caught.
-/

namespace EventDebugger

/-- Where an exception was raised, and the depth of the stack and the user's variables at that time. -/
structure CrashSite where
  position : Position
  depth : Nat
  locals : Vars

structure Context.Depicts (context : Context) (site : CrashSite) : Prop where
  depth : context.depth = site.depth
  locals : ∀ frame ∈ context.stack.head?, ∀ scopes, frame.visibleLocals scopes = site.locals

namespace Debugger

/-! ## Only a raise keeps something -/

section

variable (d : Debugger) (system : Nat) (id : ContextId) (position : Position)

theorem postMortems_haltAt (onLine : Bool) : (d.haltAt id position onLine).2.postMortems = d.postMortems := by
  cases onLine <;> rfl

theorem postMortems_haltOnBreakpoint (found : Found) (onLine : Bool) :
    (d.haltOnBreakpoint id found position onLine).2.postMortems = d.postMortems := by
  simp only [haltOnBreakpoint]
  split
  · exact postMortems_haltAt _ id position onLine
  · rfl

theorem postMortems_checkLine (receiver : Option Value) (moved : Bool) :
    (d.checkLine system id position receiver moved).2.postMortems = d.postMortems := by
  simp only [checkLine]
  split
  · rfl
  · split
    · rfl
    · split
      · exact postMortems_haltOnBreakpoint _ id position _ true
      · rfl

variable (event : Event)

theorem postMortems_onLine (conditional moved : Bool) :
    (d.onLine system id event position conditional moved).2.postMortems = d.postMortems := by
  have placed : (if (d.context id).stack.isEmpty then d.openFrame system id event position
      else d.updateContext id (·.moveTop event position false)).postMortems = d.postMortems := by
    split <;> rfl
  simp only [onLine]
  generalize (if (d.context id).stack.isEmpty then d.openFrame system id event position
    else d.updateContext id (·.moveTop event position false)) = d' at placed ⊢
  split
  · exact placed
  · split
    · exact placed
    · exact (d'.postMortems_checkLine system id position event.receiver moved).trans placed

theorem postMortems_onCall : (d.onCall system id event position).2.postMortems = d.postMortems := by
  have captured : ((d.openFrame system id event position).callBinding system id event.receiver).2.postMortems =
      d.postMortems := by
    unfold callBinding
    split <;> rfl
  rw [onCall_eq]
  dsimp only
  split
  · rfl
  · split
    · exact (postMortems_haltOnBreakpoint _ id position _ false).trans captured
    · exact captured

theorem postMortems_dispatch {event : Event} (other : ∀ exception, event.kind ≠ .raise exception) :
    (d.dispatch system id event).2.postMortems = d.postMortems := by
  simp only [dispatch]
  split
  · rfl
  · split
    · simp only [dispatchAt]
      split
      · exact postMortems_onLine _ system id _ event _ _
      · exact postMortems_onCall _ system id _ event
      · rfl
      · rfl
      · rfl
      · split <;> rfl
      · split <;> rfl
      · next exception raises => exact absurd raises (other exception)
    · split <;> rfl

theorem postMortems_run (next : Continuation) : (next.run d system id).2.postMortems = d.postMortems := by
  cases next with
  | lineTraced position receiver moved => exact d.postMortems_checkLine system id position receiver moved
  | breakpointReported position onLine => exact d.postMortems_haltAt id position onLine
  | exceptionReported position receiver binding => cases binding <;> rfl
  | resumed => rfl

end

theorem postMortems_onHalt (d : Debugger) (r : Recorder) (id : ContextId) (position : Position) :
    (Recorder.onHalt id position (d, r)).2.1.postMortems = d.postMortems := by
  rw [Recorder.onHalt_eq]
  split
  · rfl
  · dsimp only
    split
    · rfl
    · next commanded =>
        obtain ⟨_, _, changed⟩ := except_bind_eq_ok commanded
        cases changed
        rfl

theorem postMortems_frontEnd (d : Debugger) (r : Recorder) (system : Nat) (callback : Callback) :
    (Recorder.frontEnd system callback (d, r)).2.1.postMortems = d.postMortems := by
  cases callback with
  | line id position => exact d.postMortems_onHalt r id position
  | tracing id position =>
      change (Recorder.onTrace id position (d, r)).2.1.postMortems = _
      rw [Recorder.onTrace_eq]
      split <;> rfl
  | breakpoint id bp => rfl
  | catchpoint id exception => rfl

theorem postMortems_drive (d : Debugger) (r : Recorder) (system : Nat) (id : ContextId) (n : Nat) (o : Outcome) :
    (o.drive Recorder.frontEnd system id n (d, r)).2.1.postMortems = d.postMortems := by
  induction n generalizing o d r with
  | zero => cases o <;> rfl
  | succ n ih =>
      cases o with
      | done => rfl
      | call callback next =>
          have called := d.postMortems_frontEnd r system callback
          rw [drive_call]
          generalize Recorder.frontEnd system callback (d, r) = x at called ⊢
          obtain ⟨_ | _, d', r'⟩ := x
          · exact called
          · exact (ih _ r' _).trans ((d'.postMortems_run system id next).trans called)

theorem postMortems_release (d : Debugger) : d.release.postMortems = d.postMortems := by
  simp only [release]
  split
  · rfl
  · simp only [pruneWhenDue]
    split <;> rfl

/-! ## Contexts that belong to no thread -/

structure Guards (d d' : Debugger) : Prop where
  kept : d'.postMortems = d.postMortems
  lodges : Lodges d d'
  aloof : ∀ id < d.contexts.size, (∀ thread, d.contextOf? thread ≠ some id) → d'.context id = d.context id

variable {d d' d'' : Debugger} {system : Nat} {id : ContextId} {thread : Thread}

theorem Guards.untracked (h : Guards d d') (well : d.WellTracked) (known : id < d.contexts.size)
    (untracked : ∀ thread, d.contextOf? thread ≠ some id) (thread : Thread) : d'.contextOf? thread ≠ some id := by
  intro found
  rcases h.lodges.origin well found with old | new
  · exact untracked thread old
  · exact absurd known (Nat.not_lt_of_le new)

theorem Guards.trans (first : Guards d d') (second : Guards d' d'') (well : d.WellTracked) : Guards d d'' where
  kept := second.kept.trans first.kept
  lodges := first.lodges.trans second.lodges
  aloof id known untracked := by
    have known' := Nat.lt_of_lt_of_le known first.lodges.size
    rw [second.aloof id known' (first.untracked well known untracked), first.aloof id known untracked]

theorem guards_of_session (session : d'.session = d.session) (contexts : d'.contexts = d.contexts)
    (kept : d'.postMortems = d.postMortems) : Guards d d' := by
  have same (id : ContextId) : d'.context id = d.context id := by rw [context, contexts, context]
  exact ⟨kept, lodges_of_session session (Nat.le_of_eq (congrArg _ contexts.symm)) fun id _ => by rw [same],
    fun id _ _ => same id⟩

theorem guards_withHost (d : Debugger) (host : Host) : Guards d { d with host } := guards_of_session rfl rfl rfl

theorem guards_of_touches (touches : Touches system id d d') (found : d.contextOf? thread = some id)
    (kept : d'.postMortems = d.postMortems) : Guards d d' := by
  refine ⟨kept, touches.lodges, fun other known untracked => touches.others other known ?_⟩
  rintro rfl
  exact untracked thread found

theorem guards_of_doneFor (done : DoneFor thread d d') (kept : d'.postMortems = d.postMortems)
    (contexts : ∀ id < d.contexts.size, d'.context id = d.context id) : Guards d d' :=
  ⟨kept, ⟨done.size, fun id known => by rw [contexts id known], done.tracked, done.origin⟩,
    fun id known _ => contexts id known⟩

theorem context_track_known (d : Debugger) (session : Session) (thread : Thread) (known : id < d.contexts.size) :
    (d.track session thread).2.context id = d.context id := by
  simp only [track]
  split
  · rfl
  · exact (d.opens_newContext thread).old id known

theorem guards_track {session : Session} (active : d.session = some session) (thread : Thread) :
    Guards d (d.track session thread).2 := by
  refine guards_of_doneFor (doneFor_track active thread) ?_ fun id known => d.context_track_known session thread known
  simp only [track]
  split <;> rfl

theorem guards_hold (d : Debugger) (thread : Thread) : Guards d (d.hold thread) :=
  guards_of_doneFor (d.doneFor_hold thread) rfl fun _ _ => rfl

theorem guards_release (d : Debugger) : Guards d d.release :=
  guards_of_doneFor (d.doneFor_release default) d.postMortems_release fun id _ => d.context_release id

/-! ## Pictures -/

structure Pictures (d : Debugger) (exception : Value) (site : CrashSite) (kept : PostMortem) : Prop where
  keeps : d.postMortem? exception = some kept
  position : kept.position = site.position
  known : kept.context < d.contexts.size
  untracked : ∀ thread, d.contextOf? thread ≠ some kept.context
  depicts : (d.context kept.context).Depicts site

variable {exception : Value} {site : CrashSite} {kept : PostMortem}

theorem Pictures.later (h : d.Pictures exception site kept) (guards : Guards d d') (well : d.WellTracked) :
    d'.Pictures exception site kept := by
  refine ⟨?_, h.position, Nat.lt_of_lt_of_le h.known guards.lodges.size, guards.untracked well h.known h.untracked, ?_⟩
  · simp only [postMortem?, guards.kept]
    exact h.keeps
  · rw [guards.aloof _ h.known h.untracked]
    exact h.depicts

theorem depicts_of_copied {dead : Context} {stack : CallStack} {event : Event} {position : Position} {scope : Scope}
    {scopes : Scopes} (inside : event.scope = some scope) {context : Context} (live : context.stack = stack)
    (copied : dead.stack = (context.moveTop event position false).stack.freeze scopes) :
    dead.Depicts ⟨position, stack.length, scopes.copyVisible scope⟩ := by
  rw [Context.moveTop, live] at copied
  refine ⟨?_, fun frame top later => ?_⟩
  · rw [Context.depth, copied, CallStack.length_freeze, CallStack.length_modifyTop]
  · rw [copied] at top
    cases stack with
    | nil => cases top
    | cons frame' rest =>
        cases top
        simp only [inside, Frame.freeze, Frame.visibleLocals, Option.isSome_some, Bool.not_false, Bool.and_true,
          if_true]

theorem pictures_dispatch (well : d.WellTracked) (bound : d.host.boundTo? system = some thread)
    (found : d.contextOf? thread = some id) {event : Event} {position : Position}
    (captures : d.Captures id event position exception) {scope : Scope} (inside : event.scope = some scope)
    (stays : event.isExit = false) :
    ∃ kept, (d.dispatch system id event).2.Pictures exception
      ⟨position, (d.context id).stack.length, d.host.scopes.copyVisible scope⟩ kept := by
  have known := (well.known found).1
  have touches := d.touches_dispatch system id event stays
  obtain ⟨kept, at', attached⟩ := attaches_dispatch known system captures
  refine ⟨kept, attached.keeps, at', attached.known, fun other is => ?_, ?_⟩
  · rw [contextOf?, touches.session] at is
    exact absurd attached.new (Nat.ne_of_lt (well.known is).1)
  · have copied := attached.copied
    rw [touches.host.eq_of_bound bound] at copied
    exact depicts_of_copied inside rfl copied

/-! ## Threads whose exceptions are kept -/

structure Watches (d : Debugger) (thread : Thread) : Prop where
  keeps : d.settings.postMortem = true
  user : d.host.isDebuggerThread thread = false
  context : ∀ {id}, d.contextOf? thread = some id → (d.context id).ignored = false ∧ (d.context id).skipped = false

namespace Watches

theorem of_touches (h : d.Watches thread) (well : d.WellTracked) (bound : d.host.boundTo? system = some thread)
    (touches : Touches system id d d') : d'.Watches thread := by
  refine ⟨touches.settings ▸ h.keeps, (touches.host.eq_of_bound bound).symm ▸ h.user, fun {own} found => ?_⟩
  rw [contextOf?, touches.session] at found
  have same := touches.traits own (well.known found).1
  simp only [Context.traits, Prod.mk.injEq] at same
  obtain ⟨-, -, -, -, skipped, ignored, -, -⟩ := same
  rw [skipped, ignored]
  exact h.context found

theorem of_doneFor (h : d.Watches thread) (well : d.WellTracked) {other : Thread} (done : DoneFor other d d')
    (contexts : ∀ id, d'.context id = d.context id) : d'.Watches thread := by
  have settings : d'.settings = d.settings := congrArg (·.1) done.rules
  refine ⟨settings ▸ h.keeps, done.host.symm ▸ h.user, fun {id} found => ?_⟩
  rw [contexts]
  rcases done.origin well found with old | unknown
  · exact h.context old
  · rw [context_unknown unknown]
    exact ⟨rfl, rfl⟩

theorem track (h : d.Watches thread) {session : Session} (active : d.session = some session) :
    (d.track session thread).2.Watches thread := by
  have settings : (d.track session thread).2.settings = d.settings := congrArg (·.1) (doneFor_track active thread).rules
  refine ⟨settings ▸ h.keeps, (d.host_track session thread).symm ▸ h.user, fun {id} found => ?_⟩
  cases (d.contextOf?_track session thread).symm.trans found
  rw [context_track active]
  cases known : d.contextOf? thread with
  | none =>
      rw [contextFor?, known, h.user]
      exact ⟨rfl, rfl⟩
  | some id =>
      rw [contextFor?, known]
      exact h.context known

theorem hold (h : d.Watches thread) (well : d.WellTracked) : (d.hold thread).Watches thread :=
  h.of_doneFor well (d.doneFor_hold thread) fun _ => rfl

theorem release (h : d.Watches thread) (well : d.WellTracked) : d.release.Watches thread :=
  h.of_doneFor well (d.doneFor_release thread) d.context_release

end Watches

/-! ## Events -/

structure Admitted (thread : Thread) (d : Debugger) (id : ContextId) (d' : Debugger) : Prop where
  guards : Guards d d'
  watches : d'.Watches thread
  started : d'.isStarted
  found : d'.contextOf? thread = some id
  stack : (d'.context id).stack = d.stackOf thread
  host : d'.host = d.host

theorem admitted_track (well : d.WellTracked) (watches : d.Watches thread) {session : Session}
    (active : d.session = some session) :
    let tracked := d.counted.track session thread
    Admitted thread d tracked.1 (tracked.2.hold thread) := by
  intro tracked
  have counted : Guards d d.counted := guards_of_session rfl rfl rfl
  have tracks : Guards d.counted tracked.2 := guards_track (d := d.counted) active thread
  have guards := (counted.trans tracks well).trans (tracked.2.guards_hold thread) well
  have watches' : tracked.2.Watches thread :=
    Watches.track (d := d.counted) ⟨watches.keeps, watches.user, watches.context⟩ active
  have found : tracked.2.contextOf? thread = some tracked.1 := d.counted.contextOf?_track session thread
  have known : d.counted.contextFor? thread = d.contextFor? thread := rfl
  have stack : (tracked.2.context tracked.1).stack = d.stackOf thread := by
    rw [context_track (d := d.counted) active, known, contextFor?, stackOf]
    cases d.contextOf? thread <;> rfl
  have done := doneFor_track (d := d.counted) active thread
  have held := tracked.2.doneFor_hold thread
  refine ⟨guards, watches'.hold (done.tracked (counted.lodges.tracked well)), ?_, ?_, stack,
    held.host.trans done.host⟩
  all_goals
    obtain ⟨session', active', is⟩ := Option.bind_eq_some_iff.mp found
    simp only [isStarted, contextOf?, hold, active', Option.map_some, Option.isSome_some, Option.bind_some]
  exact is

theorem guards_complete (well : d.WellTracked) (bound : d.host.boundTo? system = some thread)
    (watches : d.Watches thread) (found : d.contextOf? thread = some id) {o : Outcome} (about : o.About id)
    {r : Recorder} (settled : r.announced = none) :
    let after := (o.complete Recorder.frontEnd system id (d, r)).2.1.release
    Guards d after ∧ after.Watches thread ∧ after.isStarted = d.isStarted := by
  intro after
  obtain ⟨records, -⟩ := Recorder.records_drive d r id system _ about (Nat.le_refl _) (well.known found).1 settled
  have driven : Guards d (o.complete Recorder.frontEnd system id (d, r)).2.1 :=
    guards_of_touches records.touches found (d.postMortems_drive r system id o.rank o)
  have well' := driven.lodges.tracked well
  refine ⟨driven.trans (guards_release _) well, (watches.of_touches well bound records.touches).release well', ?_⟩
  have session : (o.complete Recorder.frontEnd system id (d, r)).2.1.session = d.session := records.touches.session
  exact (isStarted_release _).trans (by rw [isStarted, session, isStarted])

variable {event : Event} {r : Recorder}

theorem guards_dispatched (well : d.WellTracked) (bound : d.host.boundTo? system = some thread)
    (watches : d.Watches thread) (found : d.contextOf? thread = some id) (stays : event.isExit = false)
    (settled : r.announced = none) :
    let after := (handleWithTicket Recorder.frontEnd system id event (d, r)).2.1
    Guards (d.dispatch system id event).2 after ∧ after.Watches thread ∧ after.isStarted = d.isStarted := by
  have touches := d.touches_dispatch system id event stays
  have found' : (d.dispatch system id event).2.contextOf? thread = some id := by
    rw [contextOf?, touches.session]
    exact found
  have bound' := (congrArg (Host.boundTo? · system) (touches.host.eq_of_bound bound)).trans bound
  obtain ⟨completed, watches', started⟩ := guards_complete (touches.lodges.tracked well) bound'
    (watches.of_touches well bound touches) found' (d.about_dispatch system id event) settled
  refine ⟨completed, watches', started.trans ?_⟩
  rw [isStarted, touches.session, isStarted]

theorem dispatch_exit_eq (watched : (d.context id).skipped = false) {position : Position}
    (placed : event.position = some position) {exception : Value} (kind : event.kind = .raise exception)
    (exits : Host.isExit exception) :
    ∃ d', Touches system id d d' ∧ d.dispatch system id event = (.done, d'.forceStop) := by
  obtain ⟨d', touches, ended⟩ := onRaise_exit (d.updateContext id (·.noteEvent (some position) false)) system id event
    position exception exits
  refine ⟨d', (d.touches_updateContext system id (·.noteEvent (some position) false) fun _ => rfl).trans touches, ?_⟩
  simp only [dispatch, watched, placed, kind, dispatchAt, Bool.false_eq_true, if_false]
  exact ended

theorem ended_handled (well : d.WellTracked) (bound : d.host.boundTo? system = some thread)
    (watches : d.Watches thread) (found : d.contextOf? thread = some id) {position : Position}
    (placed : event.position = some position) {exception : Value} (kind : event.kind = .raise exception)
    (exits : Host.isExit exception) :
    let after := (handleWithTicket Recorder.frontEnd system id event (d, r)).2.1
    after.Watches thread ∧ after.isStarted = false := by
  obtain ⟨d', touches, (ended : d.dispatch system id event = _)⟩ :=
    dispatch_exit_eq (watches.context found).2 placed kind exits
  have inactive := d'.isStarted_forceStop
  have watches' := watches.of_touches well bound touches
  have settings : d'.forceStop.settings = d'.settings := by
    simp only [forceStop]
    split <;> rfl
  have stopped : d'.forceStop.session = none :=
    Option.isNone_iff_eq_none.mp (Option.isSome_eq_false_iff.mp inactive)
  have stops : d'.forceStop.Watches thread := by
    refine ⟨settings ▸ watches'.keeps, d'.host_forceStop.symm ▸ watches'.user, fun found => ?_⟩
    rw [contextOf?, stopped] at found
    cases found
  rw [handleWithTicket_eq, ended]
  unfold Outcome.complete
  dsimp only
  rw [drive_done]
  exact ⟨stops.release (.of_ended stopped), (isStarted_release _).trans inactive⟩

end Debugger

/-! ## Whole events -/

namespace Calm

open Debugger

variable {config : Config} {program : Program} {d : Debugger} {r : Recorder} {system : Nat} {thread : Thread}
  {event : Event}

theorem admitted (h : Calm config program (d, r)) (bound : d.host.boundTo? system = some thread)
    (watches : d.Watches thread) (started : d.isStarted) (heard : Host.isAllocator event.method = false) :
    ∃ id d', Admitted thread d id d' ∧ EventDebugger.handleEvent Recorder.frontEnd system event (d, r) =
      let handled := EventDebugger.handleWithTicket Recorder.frontEnd system id event (d', r)
      (.finished handled.1, handled.2) := by
  obtain ⟨session, active⟩ := Option.isSome_iff_exists.mp started
  have admitted := admitted_track h.equipped.tracked watches active
  have watches' : (d.counted.track session thread).2.Watches thread :=
    Watches.track (d := d.counted) ⟨watches.keeps, watches.user, watches.context⟩ active
  have heeded := (watches'.context (d.counted.contextOf?_track session thread)).1
  exact ⟨_, _, admitted, h.handleEvent_of_heeded active bound heard heeded⟩

theorem guards_of_quiet (h : Calm config program (d, r)) (bound : d.host.boundTo? system = some thread)
    (watches : d.Watches thread) (other : ∀ exception, event.kind ≠ .raise exception) :
    let after := (EventDebugger.handleEvent Recorder.frontEnd system event (d, r)).2.1
    Guards d after ∧ after.Watches thread ∧ after.isStarted = d.isStarted := by
  cases started : d.isStarted with
  | false =>
      have inactive : d.session = none := Option.isNone_iff_eq_none.mp (Option.isSome_eq_false_iff.mp started)
      rw [handleEvent_eq, arrive_inactive inactive]
      exact ⟨guards_of_session rfl rfl rfl, watches, started⟩
  | true =>
      cases allocates : Host.isAllocator event.method with
      | true =>
          obtain ⟨session, active⟩ := Option.isSome_iff_exists.mp started
          rw [handleEvent_eq, arrive_of_bound active bound, if_pos allocates]
          exact ⟨guards_of_session rfl rfl rfl, ⟨watches.keeps, watches.user, watches.context⟩, started⟩
      | false =>
          have well := h.equipped.tracked
          obtain ⟨id, d', admitted, handles⟩ := h.admitted bound watches started allocates
          have well' := admitted.guards.lodges.tracked well
          have stays : event.isExit = false := by
            unfold Event.isExit
            split
            · next raises => exact absurd raises (other _)
            · rfl
          have touches := d'.touches_dispatch system id event stays
          have dispatched := guards_of_touches touches admitted.found (d'.postMortems_dispatch system id other)
          obtain ⟨handled, watches', started'⟩ := guards_dispatched well' (admitted.host ▸ bound) admitted.watches
            admitted.found stays h.settled
          rw [handles]
          exact ⟨admitted.guards.trans (dispatched.trans handled well') well, watches',
            started'.trans admitted.started⟩

theorem pictures_of_raise (h : Calm config program (d, r)) (bound : d.host.boundTo? system = some thread)
    (watches : d.Watches thread) (heard : Host.isAllocator event.method = false) {className : String} {number : Nat}
    (kind : event.kind = .raise (.exception className number)) {position : Position}
    (placed : event.position = some position) (received : event.receiver.isSome) {scope : Scope}
    (inside : event.scope = some scope) :
    let after := (EventDebugger.handleEvent Recorder.frontEnd system event (d, r)).2.1
    after.Watches thread ∧ (after.isStarted ↔ d.isStarted ∧ className ≠ "SystemExit") ∧
      (after.isStarted → ∃ kept, after.Pictures (.exception className number)
        ⟨position, (d.stackOf thread).length, d.host.scopes.copyVisible scope⟩ kept) := by
  cases started : d.isStarted with
  | false =>
      have inactive : d.session = none := Option.isNone_iff_eq_none.mp (Option.isSome_eq_false_iff.mp started)
      rw [handleEvent_eq, arrive_inactive inactive]
      simp only [started, Bool.false_eq_true, false_and, false_implies, and_true]
      exact watches
  | true =>
      obtain ⟨id, d', admitted, handles⟩ := h.admitted bound watches started heard
      have well' := admitted.guards.lodges.tracked h.equipped.tracked
      have bound' : d'.host.boundTo? system = some thread := admitted.host ▸ bound
      rw [handles]
      by_cases exits : className = "SystemExit"
      · have ended := ended_handled (r := r) well' bound' admitted.watches admitted.found placed kind
          (beq_iff_eq.mpr exits)
        simp only [ended.2, exits, ne_eq, not_true_eq_false, and_false, Bool.false_eq_true, false_implies, and_true]
        exact ended.1
      · have stays : event.isExit = false := by
          simp only [Event.isExit, kind, Host.isExit, beq_eq_false_iff_ne]
          exact exits
        obtain ⟨handled, watches', started'⟩ :=
          guards_dispatched well' bound' admitted.watches admitted.found stays h.settled
        have captures : d'.Captures id event position (.exception className number) :=
          ⟨kind, ⟨_, _, rfl⟩, placed, received, (admitted.watches.context admitted.found).2, admitted.watches.keeps⟩
        obtain ⟨kept, pictures⟩ := pictures_dispatch well' bound' admitted.found captures inside stays
        have later := pictures.later handled ((d'.touches_dispatch system id event stays).lodges.tracked well')
        rw [admitted.stack, admitted.host] at later
        refine ⟨watches', ?_, fun _ => ⟨kept, later⟩⟩
        simp only [started', admitted.started, exits, ne_eq, not_false_eq_true, and_self]

end Calm

/-! ## The post-mortem of a thread that ends -/

structure HaltRecord.ShowsSite (halt : HaltRecord) (site : CrashSite) : Prop where
  reason : halt.reason = .postMortem
  position : halt.position = site.position
  depth : halt.depth = site.depth
  locals : halt.locals = site.locals.map fun slot => (slot.1, slot.2.text)

namespace Debugger

variable {d : Debugger} {system : Nat} {thread : Thread} {exception : Value} {site : CrashSite} {kept : PostMortem}

theorem currentContext_of_bound {session : Session} (active : d.session = some session)
    (bound : d.host.boundTo? system = some thread) (alive : d.host.isAlive thread) :
    (d.currentContext system).1 = .ok (d.track session thread).1 := by
  have current : d.currentThread system = (thread, d) := by
    rw [currentThread, Host.currentThread_of_bound bound]
  have tracked : d.threadContext thread = .ok (d.track session thread) := by
    simp only [threadContext, activeSession, active]
    exact if_pos alive
  simp only [currentContext, current, tracked]

theorem onHalt_of_depicts {r : Recorder} {id : ContextId} (started : d.isStarted) (dead : (d.context id).dead)
    (depicts : (d.context id).Depicts site) (framed : 0 < site.depth) :
    ∃ halt : HaltRecord, halt.ShowsSite site ∧
      (Recorder.onHalt id site.position (d, r)).2.2.records = r.records.push (.halt halt) := by
  obtain ⟨frame, rest, stack⟩ : ∃ frame rest, (d.context id).stack = frame :: rest := by
    have depth : (d.context id).stack.length = site.depth := depicts.depth
    exact List.exists_cons_of_length_pos (depth ▸ framed)
  have inner : (d.context id).frame 0 = .ok frame := by
    have depth : (d.context id).depth = rest.length + 1 := by rw [Context.depth, stack, List.length_cons]
    have checked : Context.checkFrame 0 (d.context id).depth = .ok 0 := by
      rw [Context.checkFrame, if_neg (by omega), if_neg (by omega)]
      rfl
    simp only [Context.frame, checked, stack]
    rfl
  have locals := depicts.locals frame (by rw [stack]; rfl) d.host.scopes
  let shown : HaltRecord :=
    { thread := (d.context id).thread.name
      number := (d.context id).number
      position := site.position
      reason := (d.context id).stopReason
      depth := (d.context id).depth
      method := frame.method
      breakpoint := r.announced.bind Announcement.breakpoint?
      exception := r.announced.bind Announcement.exception?
      locals := (frame.visibleLocals d.host.scopes).map fun slot => (slot.1, slot.2.text) }
  have recorded : d.inspect id (Recorder.haltRecord d.host.scopes site.position r.announced) = .ok shown := by
    rw [inspect, if_pos started, Recorder.haltRecord, inner]
    rfl
  refine ⟨shown, ⟨if_pos dead, rfl, depicts.depth, ?_⟩, ?_⟩
  · exact congrArg (List.map _) locals
  · rw [Recorder.onHalt_eq, recorded]
    dsimp only
    split <;> rfl

end Debugger

open Debugger in
theorem ReplayThread.records_of_uncaught {d : Debugger} {system : Nat} {thread : Thread} {exception : Value}
    {site : CrashSite} {kept : PostMortem} {r : Recorder} (alone : d.Alone system thread) (well : d.WellTracked)
    (plain : d.Plain) (started : d.isStarted) (pictures : d.Pictures exception site kept) :
    let after := (uncaught Recorder.frontEnd system exception (d, r)).2.2
    (site.depth = 0 → after.records = r.records) ∧
      (0 < site.depth → ∃ halt : HaltRecord, halt.ShowsSite site ∧ after.records = r.records.push (.halt halt)) := by
  have depth : (d.context kept.context).stack.length = site.depth := pictures.depicts.depth
  rw [uncaught_eq, if_pos started, pictures.keeps]
  dsimp only
  rw [handlePostMortem_eq]
  refine ⟨fun bare => ?_, fun framed => ?_⟩
  · rw [if_pos (List.isEmpty_iff_length_eq_zero.mpr (depth.trans bare))]
  · have inhabited : (d.context kept.context).stack.isEmpty = false := by
      rw [List.isEmpty_eq_false_iff_exists_mem]
      exact List.exists_mem_of_length_pos (depth ▸ framed)
    obtain ⟨session, active⟩ := Option.isSome_iff_exists.mp started
    obtain ⟨d', entered, -⟩ := enterPostMortem_spec well (currentContext_of_bound active alone.bound alone.alive)
    -- What the others are told on the entry does not concern the dead context.
    have tends := d.tends_enterPostMortem system
    have stack := d.preserves_enterPostMortem (neutral_stack (d.context kept.context).stack).tolerant system rfl
    have tolerant : Tolerant (·.dead = true) := ⟨fun dead _ _ _ => dead, nofun⟩
    have dead := preserves_enterPostMortem tolerant d system (kept_of_postMortem? plain pictures.keeps)
    rw [entered] at tends stack dead
    have started' : d'.isStarted := by
      rw [isStarted_eq, tends.ticket, ← isStarted_eq]
      exact started
    have depicts : (d'.context kept.context).Depicts site := by
      refine ⟨?_, ?_⟩
      · rw [Context.depth, stack]
        exact pictures.depicts.depth
      · rw [stack]
        exact pictures.depicts.locals
    obtain ⟨halt, shows, pushed⟩ := onHalt_of_depicts (r := r) started' dead depicts framed
    refine ⟨halt, shows, ?_⟩
    have visits : Recorder.frontEnd system (.line kept.context kept.position) (d', r) =
        Recorder.onHalt kept.context site.position (d', r) := by rw [pictures.position]; rfl
    rw [if_neg (Bool.eq_false_iff.mp inhabited), entered]
    dsimp only
    rw [visits]
    generalize Recorder.onHalt kept.context site.position (d', r) = visited at pushed ⊢
    rcases visited.2.1.leavePostMortem system _ with ⟨_ | _, d''⟩ <;> exact pushed

end EventDebugger
