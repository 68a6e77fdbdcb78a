import EventDebugger.Proofs.Renewal.Requests
import EventDebugger.Proofs.Ticket.Courses
import Mathlib.Logic.Relation

/-!
# Elementary changes

Apart from the dispatch of events, the activation of the debugger and the switch for post-mortems, what is done
to a debugger comes down to a few elementary changes: of the host, of counts and settings, of a context, and of
the table. What they all leave alone is left alone by whatever is done.

* `Debugger.Edits.remains`: what elementary changes leave alone.
* `Request.edits`: the requests of a front-end are made of them.
-/

namespace EventDebugger

def Context.identity (context : Context) : Thread × Nat × Bool × Bool × Bool :=
  (context.thread, context.number, context.skipped, context.ignored, context.dead)

namespace Debugger

def Keyed (d : Debugger) : Prop := ∀ session ∈ d.session, (session.table.entries.map (·.1)).Nodup

inductive Edit (system : Nat) : Debugger → Debugger → Prop where
  | host {d : Debugger} {host : Host} (met : d.host.Met system host) : Edit system d { d with host }
  | counts {d d' : Debugger}
      (rest : d' = { d with
        settings := d'.settings, catchpoint := d'.catchpoint, eventCount := d'.eventCount, prunedAt := d'.prunedAt,
        breakpointCount := d'.breakpointCount })
      (postMortem : d'.settings.postMortem = d.settings.postMortem) : Edit system d d'
  | wakeUp (d : Debugger) : Edit system d d.wakeUp
  /-- The ticket or the registry. -/
  | session {d : Debugger} {session session' : Session} (active : d.session = some session)
      (table : session'.table = session.table) : Edit system d { d with session := some session' }
  | context {d : Debugger} {id : ContextId} {f : Context → Context}
      (same : (f (d.context id)).identity = (d.context id).identity) : Edit system d (d.updateContext id f)
  | track {d : Debugger} {session : Session} (active : d.session = some session) (thread : Thread) :
      Edit system d (d.track session thread).2
  | rebuild {d : Debugger} {session : Session} (active : d.session = some session) :
      Edit system d (d.rebuild session).2
  | prune {d : Debugger} {session : Session} (active : d.session = some session) :
      Edit system d { d with session := some { session with table := session.table.prune d.host.isAlive } }

abbrev Edits (system : Nat) : Debugger → Debugger → Prop := Relation.ReflTransGen (Edit system)

instance (system : Nat) : IsPreorder Debugger (Edits system) where
  refl _ := .refl
  trans _ _ _ := .trans

/-! ## What they leave alone -/

/-- A later debugger of the same session: its starts, its switch for post-mortems, the last halt, and the
identities of contexts are the same, and threads that are alive keep their contexts. -/
structure Remains (system : Nat) (d d' : Debugger) : Prop where
  startCount : d'.startCount = d.startCount
  started : d'.isStarted = d.isStarted
  postMortem : d'.settings.postMortem = d.settings.postMortem
  lastHalted : d'.lastHalted = d.lastHalted
  host : d.host.Met system d'.host
  size : d.contexts.size ≤ d'.contexts.size
  identity : ∀ id < d.contexts.size, (d'.context id).identity = (d.context id).identity
  fresh : ∀ id, d.contexts.size ≤ id → id < d'.contexts.size → (d'.context id).skipped = false
  keyed : d.host.Listed → d.WellTracked → d.Keyed → d'.Keyed
  tracked : d.WellTracked → d'.WellTracked
  found : d.WellTracked → ∀ {thread id}, d.host.isAlive thread → d.contextOf? thread = some id →
    d'.contextOf? thread = some id
  origin : d.WellTracked → ∀ {thread id}, d'.contextOf? thread = some id →
    d.contextOf? thread = some id ∨ d.contexts.size ≤ id

variable {system : Nat} {d d' d'' : Debugger}

namespace Remains

theorem of_session (session : d'.session = d.session) (startCount : d'.startCount = d.startCount)
    (postMortem : d'.settings.postMortem = d.settings.postMortem) (lastHalted : d'.lastHalted = d.lastHalted)
    (host : d.host.Met system d'.host) (size : d'.contexts.size = d.contexts.size)
    (identity : ∀ id < d.contexts.size, (d'.context id).identity = (d.context id).identity) :
    Remains system d d' := by
  have lodges : Lodges d d' := lodges_of_session session (Nat.le_of_eq size.symm) fun id known =>
    congrArg (fun identity => (identity.1, identity.2.2.2.1)) (identity id known)
  refine ⟨startCount, by rw [isStarted, session, isStarted], postMortem, lastHalted, host, lodges.size, identity,
    fun id unknown known => ?_, fun _ _ keyed => ?_, lodges.tracked, fun _ _ _ _ found => ?_, lodges.origin⟩
  · exact absurd (size ▸ known) (Nat.not_lt.mpr unknown)
  · rwa [Keyed, session]
  · rwa [contextOf?, session]

theorem of_tracks (tracks : Tracks d d') {session session' : Session} (active : d.session = some session)
    (active' : d'.session = some session') (startCount : d'.startCount = d.startCount)
    (settings : d'.settings = d.settings) (lastHalted : d'.lastHalted = d.lastHalted) (host : d'.host = d.host)
    (old : ∀ id < d.contexts.size, d'.context id = d.context id)
    (keyed : d.host.Listed → d.WellTracked → (session.table.entries.map (·.1)).Nodup →
      (session'.table.entries.map (·.1)).Nodup) : Remains system d d' := by
  refine ⟨startCount, by rw [isStarted, active', isStarted, active]; rfl, congrArg _ settings, lastHalted,
    .inl host, tracks.size, fun id known => congrArg _ (old id known), fun id unknown known =>
      (tracks.fresh id unknown known).2, fun listed tracked distinct => ?_, tracks.tracked, tracks.found, tracks.origin⟩
  intro session'' active''
  cases active'.symm.trans active''
  exact keyed listed tracked (distinct session active)

theorem refl (system : Nat) (d : Debugger) : Remains system d d :=
  .of_session rfl rfl rfl rfl (.refl _ _) rfl fun _ _ => rfl

theorem trans (first : Remains system d d') (second : Remains system d' d'') : Remains system d d'' where
  startCount := second.startCount.trans first.startCount
  started := second.started.trans first.started
  postMortem := second.postMortem.trans first.postMortem
  lastHalted := second.lastHalted.trans first.lastHalted
  host := first.host.trans second.host
  size := Nat.le_trans first.size second.size
  identity id known := by
    rw [second.identity id (Nat.lt_of_lt_of_le known first.size), first.identity id known]
  fresh id unknown known := by
    by_cases old : id < d'.contexts.size
    · exact (congrArg (·.2.2.1) (second.identity id old)).trans (first.fresh id unknown old)
    · exact second.fresh id (Nat.le_of_not_lt old) known
  keyed listed well keyed :=
    second.keyed (first.host.continues.listed listed) (first.tracked well) (first.keyed listed well keyed)
  tracked well := second.tracked (first.tracked well)
  found well _ _ alive is :=
    second.found (first.tracked well) (first.host.grows.alive alive) (first.found well alive is)
  origin well _ _ is := by
    rcases second.origin (first.tracked well) is with old | new
    · exact first.origin well old
    · exact .inr (Nat.le_trans first.size new)

end Remains

theorem identity_updateContext {id : ContextId} {f : Context → Context}
    (same : (f (d.context id)).identity = (d.context id).identity) (other : ContextId) :
    ((d.updateContext id f).context other).identity = (d.context other).identity := by
  by_cases here : other = id
  · subst here
    by_cases known : other < d.contexts.size
    · rw [d.context_updateContext_self f known, same]
    · rw [d.updateContext_unknown f (Nat.le_of_not_lt known)]
  · rw [d.context_updateContext_ne f here]

theorem keys_insert {table : ThreadTable} (coherent : table.Coherent) {thread : Thread}
    (unknown : table.find? thread = none) (distinct : (table.entries.map (·.1)).Nodup) (id : ContextId) :
    ((table.insert thread id).entries.map (·.1)).Nodup := by
  rw [ThreadTable.find?_eq_stored? coherent, ThreadTable.stored?, List.lookup_eq_none_iff] at unknown
  simp only [ThreadTable.insert, List.map_append, List.map_cons, List.map_nil]
  refine List.nodup_append.mpr ⟨distinct, List.pairwise_singleton _ thread, fun other member _ new same => ?_⟩
  obtain ⟨entry, listed, rfl⟩ := List.mem_map.mp member
  exact bne_iff_ne.mp (unknown entry listed) (same.trans (List.mem_singleton.mp new)).symm

theorem remains_track {session : Session} (active : d.session = some session) (thread : Thread) :
    Remains system d (d.track session thread).2 := by
  have tracks := tracks_track active thread
  simp only [track] at tracks ⊢
  split at tracks
  · exact .of_tracks tracks active rfl rfl rfl rfl rfl (fun _ _ => rfl) fun _ _ distinct => distinct
  · next unknown =>
      refine .of_tracks tracks active rfl rfl rfl rfl rfl (d.opens_newContext thread).old fun _ well distinct => ?_
      exact keys_insert (well.coherent active) unknown distinct _

theorem remains_rebuild {session : Session} (active : d.session = some session) :
    Remains system d (d.rebuild session).2 := by
  have opens := (d.entriesFor_spec session.table d.host.liveThreads).1
  have counts (table : ThreadTable) (threads : List Thread) (d : Debugger) :
      (d.entriesFor table threads).2.startCount = d.startCount ∧
        (d.entriesFor table threads).2.lastHalted = d.lastHalted := by
    induction threads generalizing d with
    | nil => exact ⟨rfl, rfl⟩
    | cons thread threads ih =>
        simp only [entriesFor]
        split <;> exact ih _
  obtain ⟨startCount, lastHalted⟩ := counts session.table d.host.liveThreads d
  refine .of_tracks (tracks_rebuild active) active rfl startCount opens.settings lastHalted opens.host opens.old ?_
  intro listed _ _
  have keys := d.threads_entriesFor session.table d.host.liveThreads
  simp only [ThreadTable.replace, keys]
  exact listed.nodup.sublist (List.Sublist.map _ List.filter_sublist)

theorem Edit.remains (edit : Edit system d d') : Remains system d d' := by
  cases edit with
  | host met => exact .of_session rfl rfl rfl rfl met rfl fun _ _ => rfl
  | counts rest postMortem =>
      rw [rest]
      exact .of_session rfl rfl postMortem rfl (.refl _ _) rfl fun _ _ => rfl
  | wakeUp => exact .of_session rfl rfl rfl rfl (.refl _ _) rfl fun _ _ => rfl
  | @session session session' active table =>
      refine .of_tracks (.of_same ?_ (.refl _) rfl rfl fun _ => rfl) active rfl rfl rfl rfl rfl (fun _ _ => rfl) ?_
      · rw [active]
        exact congrArg some table
      · intro _ _ distinct
        rwa [table]
  | context same =>
      exact .of_session rfl rfl rfl rfl (.refl _ _) (size_updateContext ..) fun other _ =>
        identity_updateContext same other
  | track active thread => exact remains_track active thread
  | rebuild active => exact remains_rebuild active
  | @prune session active =>
      refine .of_tracks (tracks_prune active) active rfl rfl rfl rfl rfl (fun _ _ => rfl) fun _ _ distinct => ?_
      exact distinct.sublist (List.Sublist.map _ List.filter_sublist)

theorem Edits.remains (edits : Edits system d d') : Remains system d d' := by
  induction edits with
  | refl => exact .refl _ _
  | tail _ edit ih => exact ih.trans edit.remains

/-! ## Threads and the ticket -/

theorem edits_currentThread (d : Debugger) (system : Nat) : Edits system d (d.currentThread system).2 :=
  .single (.host (.inr rfl))

theorem edits_counts (rest : d' = { d with
      settings := d'.settings, catchpoint := d'.catchpoint, eventCount := d'.eventCount, prunedAt := d'.prunedAt,
      breakpointCount := d'.breakpointCount })
    (postMortem : d'.settings.postMortem = d.settings.postMortem) : Edits system d d' :=
  .single (.counts rest postMortem)

theorem edits_updateContext (d : Debugger) (id : ContextId) {f : Context → Context}
    (same : ∀ context, (f context).identity = context.identity) : Edits system d (d.updateContext id f) :=
  .single (.context (same _))

theorem edits_threadContext {thread : Thread} {id : ContextId} (h : d.threadContext thread = .ok (id, d')) :
    Edits system d d' := by
  obtain ⟨session, active, tracked⟩ := except_bind_eq_ok h
  split at tracked
  · have edit : Edit system d _ := .track (activeSession_eq_ok active) thread
    rw [Except.ok.inj tracked] at edit
    exact .single edit
  · cases tracked

theorem edits_currentContext (d : Debugger) (system : Nat) : Edits system d (d.currentContext system).2 := by
  have current := d.edits_currentThread system
  simp only [currentContext]
  split
  · next found => exact current.trans (edits_threadContext found)
  · exact current

theorem edits_arrive (d : Debugger) (system : Nat) (event : Event) : Edits system d (d.arrive system event).2 := by
  simp only [arrive]
  split
  · have counted : Edits system d { (d.currentThread system).2 with eventCount := d.eventCount + 1 } :=
      (d.edits_currentThread system).trans (edits_counts rfl rfl)
    split
    · exact counted
    · split
      · exact counted
      · next session active =>
          have tracked := counted.tail
            (.track (d := { (d.currentThread system).2 with eventCount := d.eventCount + 1 }) active
              (d.currentThread system).1)
          split <;> exact tracked
  · exact .refl

theorem edits_contend (d : Debugger) (system : Nat) (thread : Thread) (id : ContextId) (granted : Bool) :
    Edits system d (d.contend thread id granted).2 := by
  have letIn {session session' : Session} (active : d.session = some session)
      (table : session'.table = session.table) : Edits system d (d.letIn session' id).2 := by
    simp only [Debugger.letIn]
    split
    · have handed : Edits system d { d with session := some session'.handOver } := .single (.session active table)
      have woken : Edits system d { d with session := some session'.handOver }.wakeUp :=
        handed.tail (.wakeUp _)
      exact woken.trans (edits_updateContext _ id fun _ => rfl)
    · exact .single (.session active table)
  simp only [contend]
  split
  · exact .refl
  · next session active =>
      split
      · exact letIn active rfl
      · split
        · split
          · exact letIn active rfl
          · exact .refl
        · refine .single (.session active ?_)
          simp only [Session.enqueue]
          split <;> rfl

theorem edits_release (d : Debugger) (system : Nat) : Edits system d d.release := by
  simp only [release, pruneWhenDue]
  split
  · exact .single (.wakeUp d)
  · next session active =>
      split
      · have pruned : Edits system d
            { d with session := some { session with table := session.table.prune d.host.isAlive } } :=
          .single (.prune active)
        have counted : Edits system d
            { d with
              session := some { session with table := session.table.prune d.host.isAlive }
              prunedAt := d.eventCount } :=
          pruned.trans (edits_counts rfl rfl)
        refine (counted.tail (.session rfl ?_)).tail (.wakeUp _)
        rfl
      · refine Relation.ReflTransGen.tail (.single (.session active ?_)) (.wakeUp _)
        rfl

/-! ## Requests -/

def IdentityCommand (f : Context → Except Error Context) : Prop :=
  ∀ {context context'}, f context = .ok context' → context'.identity = context.identity

theorem identityCommand {f : Context → Except Error Context} (core : CoreCommand f)
    (unnumbered : Context.UnnumberedCommand f) : IdentityCommand f := by
  intro context context' changed
  have number : context'.number = context.number := by
    have renumbered := unnumbered.number context context.number
    change f context = _ at renumbered
    rw [changed] at renumbered
    exact congrArg (·.number) (Except.ok.inj renumbered)
  have kept := core changed
  simp only [Context.core, Prod.mk.injEq] at kept
  simp only [Context.identity, kept.1, number, kept.2.1, kept.2.2.1, unnumbered.dead changed]

theorem edits_command {id : ContextId} {f : Context → Except Error Context} (hf : IdentityCommand f)
    (h : d.command id f = .ok d') : Edits system d d' := by
  obtain ⟨context, found, changed⟩ := except_bind_eq_ok h
  cases changed
  simp only [inspect] at found
  split at found
  · exact .single (.context (hf found))
  · cases found

theorem identity_interrupt : IdentityCommand Context.interrupt := identityCommand core_interrupt .interrupt

theorem edits_interrupt (d : Debugger) (system : Nat) : Edits system d (d.interrupt system).2 := by
  have current := d.edits_currentContext system
  simp only [interrupt]
  split
  · next found => simpa only [found] using current
  · next found =>
      rw [found] at current
      split
      · next commanded => exact current.trans (edits_command identity_interrupt commanded)
      · exact current

theorem edits_interruptLast {last : Option ContextId} (h : d.interruptLast = .ok (last, d')) : Edits system d d' := by
  obtain ⟨_, _, found⟩ := except_bind_eq_ok h
  split at found
  · cases found
    exact .refl
  · split at found
    · obtain ⟨_, commanded, same⟩ := except_bind_eq_ok found
      cases same
      exact edits_command identity_interrupt commanded
    · cases found
      exact .refl

theorem edits_liveContexts {ids : List ContextId} (h : d.liveContexts = .ok (ids, d')) : Edits system d d' := by
  obtain ⟨session, active, built⟩ := except_bind_eq_ok h
  cases built
  exact .single (.rebuild (activeSession_eq_ok active))

theorem edits_otherContexts {ids : List ContextId} (h : d.otherContexts system = .ok (ids, d')) :
    Edits system d d' := by
  obtain ⟨session, active, others⟩ := except_bind_eq_ok h
  cases others
  exact (d.edits_currentThread system).tail (.rebuild (activeSession_eq_ok active))

theorem identity_suspend (status : ThreadStatus) (context : Context) :
    (context.suspend status).identity = context.identity := by
  cases status <;> rfl

theorem edits_suspend {id : ContextId} (h : d.suspend id = .ok d') : Edits system d d' := by
  obtain ⟨_, _, suspended⟩ := except_bind_eq_ok h
  split at suspended
  · cases suspended
  · cases suspended
    exact d.edits_updateContext id (identity_suspend _)

theorem edits_resume {id : ContextId} (h : d.resume id = .ok d') : Edits system d d' := by
  obtain ⟨_, _, resumed⟩ := except_bind_eq_ok h
  have first : Edits system d (d.updateContext id Context.resume) := d.edits_updateContext id fun _ => rfl
  simp only at resumed
  split at resumed
  · cases resumed
    split
    · exact first.tail (.wakeUp _)
    · exact first
  · cases resumed

theorem edits_foldl {α : Type} (f : Debugger → α → Debugger) (kept : ∀ d a, Edits system d (f d a)) (d : Debugger)
    (as : List α) : Edits system d (as.foldl f d) := by
  induction as generalizing d with
  | nil => exact .refl
  | cons a as ih => exact (kept d a).trans (ih (f d a))

theorem edits_suspendAll (h : d.suspendAll system = .ok d') : Edits system d d' := by
  obtain ⟨⟨ids, d₁⟩, others, suspended⟩ := except_bind_eq_ok h
  cases suspended
  exact (edits_otherContexts others).trans
    (edits_foldl suspendContext (fun d id => d.edits_updateContext id (identity_suspend _)) d₁ ids)

theorem edits_resumeAll (h : d.resumeAll system = .ok d') : Edits system d d' := by
  obtain ⟨⟨ids, d₁⟩, others, resumed⟩ := except_bind_eq_ok h
  have all : Edits system d _ := (edits_otherContexts others).trans (edits_foldl
    (fun d id => d.updateContext id Context.resume) (fun d id => d.edits_updateContext id fun _ => rfl) d₁ ids)
  cases resumed
  split
  · exact all.tail (.wakeUp _)
  · exact all

theorem edits_addBreakpoint {source : String} {target : BreakpointTarget} {guard : Option String} {bp : Breakpoint}
    (h : d.addBreakpoint source target guard = .ok (bp, d')) : Edits system d d' := by
  obtain ⟨session, active, added⟩ := except_bind_eq_ok h
  cases added
  have counted : Edits system d { d with breakpointCount := d.breakpointCount + 1 } := edits_counts rfl rfl
  refine counted.tail (.session (activeSession_eq_ok active) ?_)
  rfl

theorem edits_removeBreakpoint {id : Nat} {bp : Option Breakpoint} (h : d.removeBreakpoint id = .ok (bp, d')) :
    Edits system d d' := by
  obtain ⟨session, active, removed⟩ := except_bind_eq_ok h
  cases removed
  refine .single (.session (activeSession_eq_ok active) ?_)
  rfl

theorem edits_setCatchpoint {className : Option String} (h : d.setCatchpoint className = .ok d') :
    Edits system d d' := by
  obtain ⟨_, _, changed⟩ := except_bind_eq_ok h
  cases changed
  exact edits_counts rfl rfl

theorem edits_setTemporary {id : ContextId} {source : String} {target : BreakpointTarget} {guard : Option String}
    {bp : Breakpoint} (h : d.setTemporary id source target guard = .ok (bp, d')) : Edits system d d' := by
  obtain ⟨_, commanded, same⟩ := except_bind_eq_ok h
  cases same
  refine edits_command (fun changed => ?_) commanded
  cases changed
  rfl

theorem edits_clearTemporary {id : ContextId} {bp : Option Breakpoint} (h : d.clearTemporary id = .ok (bp, d')) :
    Edits system d d' := by
  obtain ⟨_, _, cleared⟩ := except_bind_eq_ok h
  obtain ⟨_, commanded, same⟩ := except_bind_eq_ok cleared
  cases same
  refine edits_command (fun changed => ?_) commanded
  cases changed
  rfl

/-! ## Post-mortems and sections -/

theorem edits_enterPostMortem (d : Debugger) (system : Nat) : Edits system d (d.enterPostMortem system).2 := by
  have current := d.edits_currentContext system
  simp only [enterPostMortem]
  split
  · next found => simpa only [found] using current
  · next found =>
      rw [found] at current
      split
      · exact current
      · next d₁ suspended =>
          have off : Edits system d { d₁ with settings := { d₁.settings with tracing := false } } :=
            (current.trans (edits_suspendAll suspended)).trans (edits_counts rfl rfl)
          exact off.trans (edits_updateContext _ _ fun _ => rfl)

theorem edits_leavePostMortem (d : Debugger) (system : Nat) (before : ContextId × Bool × Bool) :
    Edits system d (d.leavePostMortem system before).2 := by
  have restored : Edits system d { d with settings := { d.settings with tracing := before.2.1 } } :=
    edits_counts rfl rfl
  simp only [leavePostMortem]
  split
  · exact restored
  · next commanded =>
      have commanded := restored.trans (edits_command (fun changed => by cases changed; rfl) commanded)
      split
      · exact commanded
      · next resumed => exact commanded.trans (edits_resumeAll resumed)

theorem edits_prepareLoad (d : Debugger) (system : Nat) (stop : Bool) :
    Edits system d (d.prepareLoad system stop).2 := by
  have current := d.edits_currentContext system
  simp only [prepareLoad]
  split
  · next found => simpa only [found] using current
  · next id d₁ found =>
      rw [found] at current
      have emptied : Edits system d (d₁.updateContext id fun context => { context with stack := [] }) :=
        current.trans (edits_updateContext _ _ fun _ => rfl)
      split
      · split
        · exact emptied
        · next commanded => exact emptied.trans (edits_command identity_interrupt commanded)
      · exact emptied

/-! ## Activation and post-mortems -/

inductive Turns : Debugger → Debugger → Prop where
  | refused (d : Debugger) : Turns d d
  | start (d : Debugger) : Turns d d.start.2
  | stop {d d' : Debugger} {ended : Bool} (stopped : d.stop = .ok (ended, d')) : Turns d d'
  | forceStop (d : Debugger) : Turns d d.forceStop
  | postMortem (d : Debugger) (on : Bool) :
      Turns d { d with settings := { d.settings with postMortem := on } }

inductive Switches (d : Debugger) : Debugger → Prop where
  | lasts (count : Nat) (on : Bool) :
      Switches d { d with startCount := count, settings := { d.settings with postMortem := on } }
  | begins (count : Nat) (inactive : d.session = none) :
      Switches d { d with startCount := count, session := some newSession }
  | ends (count : Nat) : Switches d { d with startCount := count, session := none }.wakeUp

theorem Turns.switches (turns : Turns d d') : Switches d d' := by
  have stays (count : Nat) : Switches d { d with startCount := count } := .lasts count d.settings.postMortem
  cases turns with
  | refused => exact stays d.startCount
  | postMortem on => exact .lasts d.startCount on
  | start =>
      simp only [Debugger.start]
      split
      · exact stays (d.startCount + 1)
      · next inactive => exact .begins (d.startCount + 1) inactive
  | stop stopped =>
      obtain ⟨_, _, stopped⟩ := except_bind_eq_ok stopped
      simp only at stopped
      split at stopped <;> cases stopped
      · exact stays (d.startCount - 1)
      · exact .ends (d.startCount - 1)
  | forceStop =>
      simp only [Debugger.forceStop]
      split
      · exact .ends 0
      · exact stays 0

end Debugger

/-! ## Requests of a front-end -/

namespace Request

open Script Script.Attempt Debugger

/-- Whether a request is about the activation of the debugger or about its switch for post-mortems. -/
def isRestricted : Request → Bool
  | .debugger (.setPostMortem _) => true
  | request => request.isActivation

theorem edits_debuggerCommand (command : DebuggerCommand) (system : Nat)
    (free : (Request.debugger command).isRestricted = false) : Within (Edits system) (command.perform system) := by
  cases command with
  | start | stop | forceStop | setPostMortem => simp [isRestricted, isActivation] at free
  | isStarted | settings => exact within_bind within_debugger fun _ => within_pure _
  | addBreakpoint => exact within_map (R := Edits system) (within_change edits_addBreakpoint) _
  | removeBreakpoint => exact within_map (R := Edits system) (within_change edits_removeBreakpoint) _
  | breakpoints | catchpoint => exact within_map (within_query _) _
  | setCatchpoint => exact within_done (within_perform edits_setCatchpoint)
  | setTracing | setKeepFrameBinding | setDebug =>
      refine within_done (within_perform fun {d d'} changed => ?_)
      cases changed
      exact edits_counts rfl rfl
  | contexts =>
      exact within_bind (within_change edits_liveContexts) fun _ =>
        within_bind within_debugger fun _ => within_pure _
  | lastContext =>
      exact within_bind (within_query _) fun _ => within_bind within_debugger fun _ => within_pure _
  | interrupt => exact within_done (within_onDebugger fun d => d.edits_interrupt system)
  | interruptLast =>
      exact within_bind (within_change edits_interruptLast) fun _ =>
        within_bind within_debugger fun _ => within_pure _
  | suspendAll => exact within_done (within_perform edits_suspendAll)
  | resumeAll => exact within_done (within_perform edits_resumeAll)

theorem edits_contextCommand (command : ContextCommand) (id : ContextId) (system : Nat) :
    Within (Edits system) (command.perform id) := by
  cases command with
  | suspend => exact within_done (within_perform edits_suspend)
  | resume => exact within_done (within_perform edits_resume)
  | describe | summarize | frame | temporary => exact within_map (within_query _) _
  | evaluate =>
      refine within_bind within_debugger fun _ => ?_
      split
      · exact within_pure _
      · exact within_throw _
  | step n force =>
      exact within_done (within_perform (edits_command (identityCommand (core_step n force) (.step n force))))
  | stepOver n index force =>
      exact within_done (within_perform
        (edits_command (identityCommand (core_stepOver n index force) (.stepOver n index force))))
  | stopFrame index =>
      exact within_done (within_perform (edits_command (identityCommand (core_stopFrame index) (.stopFrame index))))
  | interrupt => exact within_done (within_perform (edits_command identity_interrupt))
  | setTracing on =>
      exact within_done (within_perform (edits_command fun changed => by cases changed; rfl))
  | setTemporary => exact within_map (R := Edits system) (within_change edits_setTemporary) _
  | clearTemporary => exact within_map (R := Edits system) (within_change edits_clearTemporary) _

theorem edits (request : Request) (system : Nat) (d : Debugger) (free : request.isRestricted = false) :
    Edits system d (request.serve system d) := by
  cases request with
  | debugger command => exact edits_debuggerCommand command system free d _
  | context id command => exact edits_contextCommand command id system d _

theorem turns (request : Request) (system : Nat) (d : Debugger) (restricted : request.isRestricted) :
    Turns d (request.serve system d) := by
  cases request with
  | context id command => cases restricted
  | debugger command =>
      cases command with
      | start => exact .start d
      | stop =>
          change Turns d ((do return .flag (← change stop) : Attempt Reply) (d, .initial [])).2.1
          rw [debugger_map, debugger_change]
          split
          · next stopped => exact .stop stopped
          · exact .refused d
      | forceStop => exact .forceStop d
      | setPostMortem on =>
          change Turns d ((do return (fun _ => Reply.done) (← perform (·.setPostMortem on)) : Attempt Reply)
            (d, .initial [])).2.1
          rw [debugger_map, debugger_perform]
          split
          · next changed =>
              obtain ⟨_, _, changed⟩ := except_bind_eq_ok changed
              cases changed
              exact .postMortem d on
          · exact .refused d
      | _ => cases restricted

end Request

end EventDebugger
