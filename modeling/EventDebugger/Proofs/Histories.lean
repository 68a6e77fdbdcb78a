import EventDebugger.Proofs.Edits
import EventDebugger.Proofs.Renewal.Restart
import EventDebugger.Proofs.Ticket.Turns
import Mathlib.Data.List.Nodup

/-!
# The table of threads in any history

A history is a sequence of operations on a debugger and its host, by any threads in any order: each operation can
happen at any moment. In every history the table holds each context under its own thread, and the numbers of the
contexts tell them apart, those of earlier activations included.

* `Operates.regular`: what an operation does to the table and to the numbers.
* `Debugger.tabled_of_history`: tables, numbers, and the contexts of threads that are alive.
-/

namespace EventDebugger

namespace Host

/-- Only threads that were given a number run on system threads. -/
def Registered (host : Host) : Prop := ∀ {s thread}, host.boundTo? s = some thread → thread.id ≤ host.threadCount

/-- An operation on a host. -/
inductive Operates : Host → Host → Prop where
  | register (host : Host) (name : String) : Operates host (host.register name).2
  | bind {host : Host} {thread : Thread} (system : Nat) (known : thread.id ≤ host.threadCount) :
      Operates host (host.bind system thread)
  | exit (host : Host) (thread : Thread) : Operates host (host.exitThread thread)
  | current (host : Host) (system : Nat) : Operates host (host.currentThread system).2
  /-- The program runs: variables, exceptions and the status of threads change. -/
  | execute {host host' : Host} (same : host.SameThreads host') : Operates host host'

variable {host host' : Host}

theorem Operates.continues (operates : Operates host host') : host.Continues host' := by
  cases operates with
  | register name => exact continues_register host name
  | bind system known => exact continues_bind host system _
  | exit thread => exact continues_exitThread host thread
  | current system => exact continues_currentThread host system
  | execute same => exact same.continues

theorem registered_bind (registered : host.Registered) {thread : Thread} (known : thread.id ≤ host.threadCount)
    (system : Nat) : (host.bind system thread).Registered := by
  intro s other bound
  rw [boundTo?_bind] at bound
  split at bound
  · cases bound
    exact known
  · exact registered bound

theorem registered_register (registered : host.Registered) (name : String) : (host.register name).2.Registered :=
  fun bound => Nat.le_succ_of_le (registered bound)

theorem registered_currentThread (registered : host.Registered) (system : Nat) :
    (host.currentThread system).2.Registered := by
  simp only [currentThread]
  split
  · exact registered
  · exact registered_bind (registered_register registered _) (Nat.le_refl _) system

theorem Operates.registered (operates : Operates host host') (registered : host.Registered) : host'.Registered := by
  cases operates with
  | register name => exact registered_register registered name
  | bind system known => exact registered_bind registered known system
  | exit thread =>
      intro s other bound
      rw [threadCount_exitThread]
      exact registered (boundTo?_exitThread_le bound)
  | current system => exact registered_currentThread registered system
  | execute same =>
      intro s other bound
      rw [same.boundTo?_eq] at bound
      exact same.count ▸ registered bound

theorem Met.registered {system : Nat} (met : host.Met system host') (registered : host.Registered) :
    host'.Registered := by
  rcases met with rfl | rfl
  · exact registered
  · exact registered_currentThread registered system

end Host

/-- Whose a context is, its number, and whether it is the copy for a post-mortem. -/
def Context.label (context : Context) : Thread × Nat × Bool := (context.thread, context.number, context.dead)

def Context.standing (context : Context) : Thread × Nat × Bool × Bool :=
  (context.thread, context.number, context.ignored, context.dead)

namespace Debugger

/-- An operation on a debugger or on its host. -/
inductive Operates : Debugger → Debugger → Prop where
  | arrive (d : Debugger) (system : Nat) (event : Event) : Operates d (d.arrive system event).2
  | contend (d : Debugger) (thread : Thread) (id : ContextId) (granted : Bool) :
      Operates d (d.contend thread id granted).2
  | dispatch {d : Debugger} {id : ContextId} (known : id < d.contexts.size) (system : Nat) (event : Event) :
      Operates d (d.dispatch system id event).2
  | answer {d : Debugger} {id : ContextId} (known : id < d.contexts.size) (system : Nat) (next : Continuation) :
      Operates d (next.run d system id).2
  | release (d : Debugger) : Operates d d.release
  | request (d : Debugger) (request : Request) (system : Nat) : Operates d (request.serve system d)
  | current (d : Debugger) (system : Nat) : Operates d (d.currentContext system).2
  | lookup {d d' : Debugger} {thread : Thread} {id : ContextId} (found : d.threadContext thread = .ok (id, d')) :
      Operates d d'
  | list {d d' : Debugger} {ids : List ContextId} (listed : d.liveContexts = .ok (ids, d')) : Operates d d'
  | enterPostMortem (d : Debugger) (system : Nat) : Operates d (d.enterPostMortem system).2
  | leavePostMortem (d : Debugger) (system : Nat) (before : ContextId × Bool × Bool) :
      Operates d (d.leavePostMortem system before).2
  | load (d : Debugger) (system : Nat) (stop : Bool) : Operates d (d.prepareLoad system stop).2
  | skip (d : Debugger) (id : ContextId) (on : Bool) :
      Operates d (d.updateContext id fun context => { context with skipped := on })
  | keep (d : Debugger) (on : Bool) : Operates d { d with settings := { d.settings with postMortem := on } }
  | host {d : Debugger} {host : Host} (operates : d.host.Operates host) : Operates d { d with host }

abbrev History : Debugger → Debugger → Prop := Relation.ReflTransGen Operates

/-- An operation within an activation. -/
def OperatesWithin (d d' : Debugger) : Prop := d.isStarted ∧ Operates d d' ∧ d'.isStarted

structure Regular (d : Debugger) : Prop where
  numbered : Renames .identity d d
  keyed : d.Keyed
  registered : d.host.Registered

variable {d d' d₀ : Debugger} {system : Nat} {id : ContextId} {thread : Thread}

theorem identity_address (id : ContextId) : Renaming.identity.address id = id := Nat.zero_add id

inductive Shape (d d' : Debugger) : Prop where
  | edits (system : Nat) (edits : Edits system d d')
  | touches (system : Nat) (id : ContextId) (touches : Touches system id d d')
  | exits (system : Nat) (id : ContextId) (last : Debugger) (touches : Touches system id d last)
      (ended : d' = last.forceStop)
  | turns (turns : Turns d d')
  | skips (id : ContextId) (on : Bool) (same : d' = d.updateContext id fun context => { context with skipped := on })
  | host (host : Host) (operates : d.host.Operates host) (same : d' = { d with host })

theorem Operates.shape (operates : Operates d d') : Shape d d' := by
  cases operates with
  | arrive system event => exact .edits system (d.edits_arrive system event)
  | contend thread id granted => exact .edits 0 (d.edits_contend 0 thread id granted)
  | @dispatch id known system event =>
      cases exits : event.isExit with
      | false => exact .touches system id (d.touches_dispatch system id event exits)
      | true =>
          obtain ⟨last, touches, same | ended⟩ := d.dispatch_exit system id event exits
          · exact .touches system id (same ▸ touches)
          · exact .exits system id last touches (congrArg (·.2) ended)
  | @answer id known system next => exact .touches system id (d.touches_run system id next)
  | release => exact .edits 0 (d.edits_release 0)
  | request request system =>
      cases restricted : request.isRestricted with
      | false => exact .edits system (request.edits system d restricted)
      | true => exact .turns (request.turns system d restricted)
  | current system => exact .edits system (d.edits_currentContext system)
  | lookup found => exact .edits 0 (edits_threadContext found)
  | list listed => exact .edits 0 (edits_liveContexts listed)
  | enterPostMortem system => exact .edits system (d.edits_enterPostMortem system)
  | leavePostMortem system before => exact .edits system (d.edits_leavePostMortem system before)
  | load system stop => exact .edits system (d.edits_prepareLoad system stop)
  | skip id on => exact .skips id on rfl
  | keep on => exact .turns (.postMortem d on)
  | host operates => exact .host _ operates rfl

/-! ## The host -/

theorem Edits.continues (edits : Edits system d d') : d.host.Continues d'.host := edits.remains.host.continues

theorem Turns.host (turns : Turns d d') : d'.host = d.host := by cases turns.switches <;> rfl

theorem Operates.continues (operates : Operates d d') : d.host.Continues d'.host := by
  cases operates.shape with
  | edits system edits => exact edits.continues
  | touches system id touches => exact touches.host.continues
  | exits system id last touches ended =>
      rw [ended, host_forceStop]
      exact touches.host.continues
  | turns turns =>
      rw [turns.host]
      exact .refl _
  | skips id on same =>
      rw [same]
      exact .refl _
  | host host operates same =>
      rw [same]
      exact operates.continues

theorem Operates.registered (operates : Operates d d') (registered : d.host.Registered) : d'.host.Registered := by
  cases operates.shape with
  | edits system edits => exact edits.remains.host.registered registered
  | touches system id touches => exact touches.host.registered registered
  | exits system id last touches ended =>
      rw [ended, host_forceStop]
      exact touches.host.registered registered
  | turns turns => rwa [turns.host]
  | skips id on same => rwa [same]
  | host host operates same =>
      rw [same]
      exact operates.registered registered

/-! ## Keys and numbers -/

theorem keyed_of_empty (empty : d.session = none ∨ d.session = some newSession) : d.Keyed := by
  intro session active
  rcases empty with ended | new
  · cases ended.symm.trans active
  · cases new.symm.trans active
    exact List.nodup_nil

theorem keyed_forceStop (d : Debugger) : d.forceStop.Keyed := by
  refine keyed_of_empty (.inl ?_)
  simp only [forceStop]
  split
  · rfl
  · next stopped => exact Option.not_isSome_iff_eq_none.mp stopped

theorem Turns.keyed (turns : Turns d d') (keyed : d.Keyed) : d'.Keyed := by
  cases turns.switches with
  | lasts => exact keyed
  | begins => exact keyed_of_empty (.inr rfl)
  | ends => exact keyed_of_empty (.inl rfl)

theorem Operates.keyed (operates : Operates d d') (h : d.Regular) : d'.Keyed := by
  cases operates.shape with
  | edits system edits => exact edits.remains.keyed h.numbered.listed h.numbered.wellTracked.1 h.keyed
  | touches system id touches =>
      rw [Keyed, touches.session]
      exact h.keyed
  | exits system id last touches ended =>
      rw [ended]
      exact last.keyed_forceStop
  | turns turns => exact turns.keyed h.keyed
  | skips id on same =>
      rw [same]
      exact h.keyed
  | host host operates same =>
      rw [same]
      exact h.keyed

theorem Operates.renames (operates : Operates d d') (h : d.Regular) : Renames .identity d' d' := by
  have same := h.numbered
  cases operates with
  | arrive system event => exact (same.arrive (fun _ bound => h.registered bound) (fun _ _ => rfl) event).2
  | contend thread id granted =>
      have contended := (same.contend thread id granted).2
      rwa [identity_address] at contended
  | @dispatch id known system event =>
      have pieces := same.dispatch known system event
      rw [identity_address] at pieces
      exact pieces.renames
  | @answer id known system next =>
      have pieces := same.run known system next
      rw [identity_address] at pieces
      exact pieces.renames
  | release => exact same.release
  | request request system =>
      have served := same.serve request system
      have own : Renaming.identity.request request = request := by
        cases request with
        | debugger command => cases command <;> rfl
        | context id command => simp only [Renaming.request, identity_address]
      rwa [own] at served
  | current system => exact (same.currentContext system).2
  | @lookup _ thread id found =>
      rcases (same.threadContext thread).cases with ⟨error, refused, -⟩ | ⟨x, y, is, is', -, renames⟩
      · cases found.symm.trans refused
      · cases found.symm.trans is
        cases is.symm.trans is'
        exact renames
  | list listed =>
      rcases same.liveContexts.cases with ⟨error, refused, -⟩ | ⟨x, y, is, is', -, renames⟩
      · cases listed.symm.trans refused
      · cases listed.symm.trans is
        cases is.symm.trans is'
        exact renames
  | enterPostMortem system => exact (same.enterPostMortem system).2
  | leavePostMortem system before =>
      have left := same.leavePostMortem system before
      have own : Renaming.identity.before before = before := by simp only [Renaming.before, identity_address]
      rwa [own] at left
  | load system stop => exact same.prepareLoad system stop
  | skip id on =>
      have skipped := same.updateContext id (f := ({ · with skipped := on }))
        ⟨fun _ _ => rfl, fun _ => rfl, fun _ => rfl⟩
      rwa [identity_address] at skipped
  | keep on => exact same.onSettings ({ · with postMortem := on })
  | host operates => exact same.onHost operates.continues

theorem Operates.regular (operates : Operates d d') (h : d.Regular) : d'.Regular :=
  ⟨operates.renames h, operates.keyed h, operates.registered h.registered⟩

theorem regular_initial (settings : Settings) : (initial settings).Regular where
  numbered := renames_built settings Host.listed_initial
  keyed := keyed_of_empty (.inl rfl)
  registered bound := by cases bound

theorem History.regular (history : History d d') (h : d.Regular) : d'.Regular := by
  induction history with
  | refl => exact h
  | tail _ operates ih => exact operates.regular ih

/-! ## Contexts keep their threads and numbers -/

theorem Turns.contexts (turns : Turns d d') : d'.contexts = d.contexts := by cases turns.switches <;> rfl

theorem Operates.size (operates : Operates d d') : d.contexts.size ≤ d'.contexts.size := by
  cases operates.shape with
  | edits system edits => exact edits.remains.size
  | touches system id touches => exact touches.size
  | exits system id last touches ended =>
      rw [ended, contexts_forceStop]
      exact touches.size
  | turns turns => exact Nat.le_of_eq (congrArg _ turns.contexts.symm)
  | skips id on same => exact Nat.le_of_eq (same ▸ (d.size_updateContext id _).symm)
  | host host operates same => exact Nat.le_of_eq (same ▸ rfl)

theorem Operates.standing (operates : Operates d d') (known : id < d.contexts.size) :
    (d'.context id).standing = (d.context id).standing := by
  have same {d₁ d₂ : Debugger} (contexts : d₂.contexts = d₁.contexts) : d₂.context id = d₁.context id := by
    rw [context, contexts, context]
  have touched {system : Nat} {own : ContextId} {last : Debugger} (touches : Touches system own d last) :
      (last.context id).standing = (d.context id).standing :=
    congrArg (fun traits => (traits.1, traits.2.1, traits.2.2.2.2.2.1, traits.2.2.2.2.2.2.1)) (touches.traits id known)
  cases operates.shape with
  | edits system edits =>
      exact congrArg (fun identity => (identity.1, identity.2.1, identity.2.2.2)) (edits.remains.identity id known)
  | touches system own touches => exact touched touches
  | exits system own last touches ended =>
      rw [ended, same last.contexts_forceStop]
      exact touched touches
  | turns turns => rw [same turns.contexts]
  | skips own on is =>
      rw [is]
      by_cases here : id = own
      · subst here
        rw [d.context_updateContext_self _ known]
        rfl
      · rw [d.context_updateContext_ne _ here]
  | host host operates is =>
      rw [is]
      rfl

theorem Operates.label (operates : Operates d d') (known : id < d.contexts.size) :
    (d'.context id).label = (d.context id).label :=
  congrArg (fun standing => (standing.1, standing.2.1, standing.2.2.2)) (operates.standing known)

theorem History.size (history : History d d') : d.contexts.size ≤ d'.contexts.size := by
  induction history with
  | refl => exact Nat.le_refl _
  | tail _ operates ih => exact Nat.le_trans ih operates.size

theorem History.label (history : History d d') (known : id < d.contexts.size) :
    (d'.context id).label = (d.context id).label := by
  induction history with
  | refl => rfl
  | tail history operates ih => exact (operates.label (Nat.lt_of_lt_of_le known (History.size history))).trans ih

/-! ## Threads keep their contexts -/

theorem Turns.session (turns : Turns d d') (started : d.isStarted) (started' : d'.isStarted) :
    d'.session = d.session := by
  cases turns.switches with
  | lasts => rfl
  | begins count inactive =>
      rw [isStarted, inactive] at started
      cases started
  | ends => cases started'

theorem Operates.found (operates : Operates d d') (h : d.Regular) (started : d.isStarted) (started' : d'.isStarted)
    (alive : d.host.isAlive thread) (found : d.contextOf? thread = some id) : d'.contextOf? thread = some id := by
  cases operates.shape with
  | edits system edits => exact edits.remains.found h.numbered.wellTracked.1 alive found
  | touches system own touches => rwa [contextOf?_congr touches.session]
  | exits system own last touches ended =>
      rw [ended, isStarted_forceStop] at started'
      cases started'
  | turns turns => rwa [contextOf?_congr (turns.session started started')]
  | skips own on is => rwa [is]
  | host host operates is => rwa [is]

theorem Regular.home (h : d.Regular) {session : Session} (active : d.session = some session) :
    ∀ entry ∈ session.table.entries, Home d.contexts d.host entry := (h.numbered.alike active active).table.home

theorem Regular.counted (h : d.Regular) (found : d.contextOf? thread = some id) :
    thread.id ≤ d.host.threadCount := by
  obtain ⟨session, active, _⟩ := Option.bind_eq_some_iff.mp found
  rw [h.numbered.wellTracked.1.contextOf?_eq active] at found
  obtain ⟨before, after, split, -⟩ := List.lookup_eq_some_iff.mp found
  exact (h.home active (thread, id) (split ▸ List.mem_append_right _ List.mem_cons_self)).counted

theorem history_of_within (within : Relation.ReflTransGen OperatesWithin d d') : History d d' :=
  within.lift id fun _ _ operates => operates.2.1

theorem History.continues (history : History d d') : d.host.Continues d'.host := by
  induction history with
  | refl => exact .refl _
  | tail _ operates ih => exact ih.trans operates.continues

theorem found_of_within (within : Relation.ReflTransGen OperatesWithin d d') (h : d.Regular)
    (alive : d'.host.isAlive thread) (found : d.contextOf? thread = some id) : d'.contextOf? thread = some id := by
  induction within with
  | refl => exact found
  | tail within operates ih =>
      have history := history_of_within within
      have counted := Nat.le_trans (h.counted found) history.continues.count
      have alive' := operates.2.1.continues.alive counted alive
      exact operates.2.1.found (history.regular h) operates.1 operates.2.2 alive' (ih alive')

/-! ## Tables -/

/-- The table holds each context under its own thread, and the numbers of the contexts tell them apart. -/
structure Tabled (d : Debugger) (table : ThreadTable) : Prop where
  keys : (table.entries.map (·.1)).Nodup
  home : ∀ entry ∈ table.entries, entry.2 < d.contexts.size ∧ (d.context entry.2).thread = entry.1
  positive : ∀ entry ∈ table.entries, 1 ≤ (d.context entry.2).number
  distinct : (table.entries.map fun entry => (d.context entry.2).number).Nodup
  /-- The entry that is kept aside is the one of its thread. -/
  recent : table.Coherent

theorem Regular.tabled (h : d.Regular) {session : Session} (active : d.session = some session) :
    d.Tabled session.table := by
  have keys := h.keyed session active
  have home := h.home active
  have numbered := h.numbered.numbered
  refine ⟨keys, fun entry member => ⟨(home entry member).known, (home entry member).thread⟩,
    fun entry member => numbered.positive entry.2 (home entry member).known, ?_,
    (h.numbered.alike active active).table.coherent⟩
  refine List.Nodup.map_on (fun entry member other member' same => ?_) keys.of_map
  have own := home entry member
  have own' := home other member'
  have alike := numbered.distinct entry.2 own.known other.2 own'.known own.live own'.live same
  refine Prod.ext ?_ alike
  rw [← own.thread, alike, own'.thread]

/-- The contexts of a table that was made for the live threads. -/
structure Gathers (d d' : Debugger) (ids : List ContextId) : Prop where
  threads : ids.map (fun id => (d'.context id).thread) = d.host.liveThreads
  once : d.host.liveThreads.Nodup
  own : ∀ id ∈ ids, d'.contextOf? (d'.context id).thread = some id
  kept : ∀ {thread id}, d.host.isAlive thread → d.contextOf? thread = some id → id ∈ ids

theorem lookup_of_mem {entries : List (Thread × ContextId)} (keys : (entries.map (·.1)).Nodup)
    {entry : Thread × ContextId} (member : entry ∈ entries) : entries.lookup entry.1 = some entry.2 := by
  obtain ⟨before, after, rfl⟩ := List.append_of_mem member
  rw [List.map_append, List.nodup_append] at keys
  refine List.lookup_eq_some_iff.mpr ⟨before, after, rfl, fun other earlier => bne_iff_ne.mpr ?_⟩
  exact (keys.2.2 other.1 (List.mem_map_of_mem earlier) entry.1 (List.mem_map_of_mem List.mem_cons_self)).symm

theorem liveContexts_eq {session : Session} (active : d.session = some session) :
    d.liveContexts = .ok (d.rebuild session) := by
  simp only [liveContexts, activeSession, active]
  rfl

theorem Regular.gathers (h : d.Regular) {session : Session} (active : d.session = some session) :
    d.Gathers (d.rebuild session).2 (d.rebuild session).1 := by
  have later : (d.rebuild session).2.Regular := (Operates.list (liveContexts_eq active)).regular h
  have well := later.numbered.wellTracked.1
  let entries := (d.entriesFor session.table d.host.liveThreads).1
  have keys : entries.map (·.1) = d.host.liveThreads := d.threads_entriesFor session.table d.host.liveThreads
  have home : ∀ entry ∈ entries, Home (d.rebuild session).2.contexts (d.rebuild session).2.host entry :=
    later.home rfl
  have once : d.host.liveThreads.Nodup := h.numbered.listed.nodup.sublist (List.Sublist.map _ List.filter_sublist)
  have looked (thread : Thread) : (d.rebuild session).2.contextOf? thread = entries.lookup thread :=
    well.contextOf?_eq rfl thread
  refine ⟨?_, once, fun id member => ?_, fun {thread id} alive found => ?_⟩
  · change (entries.map (·.2)).map (fun id => ((d.rebuild session).2.context id).thread) = _
    rw [← keys, List.map_map]
    exact List.map_congr_left fun entry member => (home entry member).thread
  · obtain ⟨entry, listed, rfl⟩ := List.mem_map.mp member
    have thread : ((d.rebuild session).2.context entry.2).thread = entry.1 := (home entry listed).thread
    rw [thread, looked]
    exact lookup_of_mem (keys ▸ once) listed
  · have found := (show Remains 0 d _ from remains_rebuild active).found h.numbered.wellTracked.1 alive found
    rw [looked] at found
    obtain ⟨before, after, split, -⟩ := List.lookup_eq_some_iff.mp found
    have listed : (thread, id) ∈ entries := split ▸ List.mem_append_right before List.mem_cons_self
    exact List.mem_map_of_mem listed

/-- In every history, whatever threads do in whatever order and over any number of activations: the table has one
entry for a thread, which is the context of this thread, and the recent entry is one of them; contexts keep their
threads and numbers, and no two that are no copies share a number. While an activation lasts, a thread that is alive
keeps its context; and the live threads are listed once each, in the order of the host, with their contexts. -/
theorem tabled_of_history {settings : Settings} {d₀ d : Debugger} (before : History (.initial settings) d₀)
    (since : History d₀ d) :
    (∀ session ∈ d.session, d.Tabled session.table) ∧
      (∀ id < d₀.contexts.size, (d.context id).label = (d₀.context id).label) ∧
      (∀ id < d.contexts.size, ∀ other < d.contexts.size, (d.context id).dead = false →
        (d.context other).dead = false → (d.context id).number = (d.context other).number → id = other) ∧
      (Relation.ReflTransGen OperatesWithin d₀ d → ∀ thread id, d.host.isAlive thread →
        d₀.contextOf? thread = some id → d.contextOf? thread = some id) ∧
      (d.isStarted → ∃ ids d', d.liveContexts = .ok (ids, d') ∧ d.Gathers d' ids) := by
  have regular₀ := before.regular (regular_initial settings)
  have regular := since.regular regular₀
  refine ⟨fun session active => regular.tabled active, fun id known => since.label known,
    regular.numbered.numbered.distinct, fun within thread id alive found => found_of_within within regular₀ alive found,
    fun started => ?_⟩
  obtain ⟨session, active⟩ := Option.isSome_iff_exists.mp started
  exact ⟨_, _, liveContexts_eq active, regular.gathers active⟩

def staffed : Debugger :=
  let d := ((initial .standard).start.2.currentContext 0).2
  let d := { d with host := (d.host.register "worker").2 }
  let d := { d with host := d.host.bind 1 ⟨2, "worker"⟩ }
  (d.currentContext 1).2

def unstaffed : Debugger :=
  (Request.debugger .contexts).serve 0 { staffed with host := staffed.host.exitThread ⟨2, "worker"⟩ }

theorem history_staffed : History (initial .standard) staffed := by
  have started : History (initial .standard) (initial .standard).start.2 :=
    .single (.request (initial .standard) (.debugger .start) 0)
  refine ((((started.tail (.current _ 0)).tail (.host (.register _ "worker"))).tail (.host (.bind 1 ?_))).tail
    (.current _ 1))
  decide

theorem within_unstaffed : Relation.ReflTransGen OperatesWithin staffed unstaffed := by
  have exits : OperatesWithin staffed { staffed with host := staffed.host.exitThread ⟨2, "worker"⟩ } :=
    ⟨by decide, .host (.exit _ _), by decide⟩
  exact (Relation.ReflTransGen.single exits).tail ⟨by decide, .request _ (.debugger .contexts) 0, by decide⟩

theorem keeps_main_context : History (initial .standard) staffed ∧
    Relation.ReflTransGen OperatesWithin staffed unstaffed ∧ staffed.contextOf? ⟨2, "worker"⟩ = some 1 ∧
    unstaffed.contextOf? ⟨2, "worker"⟩ = none ∧ unstaffed.host.isAlive ⟨1, "main"⟩ ∧
    unstaffed.contextOf? ⟨1, "main"⟩ = some 0 := by
  refine ⟨history_staffed, within_unstaffed, by decide, by decide, by decide, ?_⟩
  exact (tabled_of_history history_staffed (history_of_within within_unstaffed)).2.2.2.1 within_unstaffed
    ⟨1, "main"⟩ 0 (by decide) (by decide)

end Debugger

/-! ## Threads that notify events -/

namespace World

variable {w w' : World} {s : Nat} {act : Act} {allowed : World → Nat → Act → Prop}

theorem Acts.history (acts : w.Acts s act w') (lodged : w.Lodged) : w.debugger.History w'.debugger := by
  have known {task : Task} {rest : List Task} (tasks : w.tasks s = task :: rest)
      (event : task.stage.isInspecting = false) : task.context < w.debugger.contexts.size :=
    (lodged.home s task (mem_innermost tasks) event).1
  cases acts with
  | move step =>
      cases step with
      | arrive event free =>
          rw [debugger_arrive]
          exact .single (.arrive _ s event)
      | ask | awake =>
          rw [debugger_contend]
          exact .single (.contend ..)
      | dispatch tasks stage => exact .single (.dispatch (known tasks (by rw [stage]; rfl)) s _)
      | answer tasks stage => exact .single (.answer (known tasks (by rw [stage]; rfl)) s _)
      | fail => exact .refl
      | release => exact .single (.release _)
      | request request free => exact .single (.request _ request s)
      | enterPostMortem =>
          rw [debugger_inspect]
          exact .single (.enterPostMortem _ s)
      | leavePostMortem => exact .single (.leavePostMortem _ s _)
      | execute free same => exact .single (.host (.execute same))
      | register name => exact .single (.host (.register _ name))
      | begin idle free unbound registered => exact .single (.host (.bind s registered))
      | exit => exact .single (.host (.exit _ _))
  | load stop => exact .single (.load _ s stop)
  | meet => exact .single (.current _ s)
  | skip id on => exact .single (.skip _ id on)
  | keep on => exact .single (.keep _ on)

theorem Course.history (course : Course allowed w w') (lodged : w.Lodged) : w.debugger.History w'.debugger := by
  induction course with
  | refl => exact .refl
  | step course next ok ih => exact ih.trans (next.history (course.lodged lodged))

end World

end EventDebugger
