import EventDebugger.Debugger.Suspension
import EventDebugger.Debugger.Ticket
import EventDebugger.Proofs.Dispatch.Locality

/-!
# Threads keep their contexts

The entry that a table keeps aside is one of its entries, and the context of an entry is that of its
thread. Everything but the dispatch of events lets the threads that are alive keep their contexts, and
the contexts their frames.

* `ThreadTable.find?_eq_stored?`: the entry that is kept aside makes no difference.
* `Debugger.tracks_track`, `Debugger.tracks_rebuild`, `Debugger.tracks_release`: the changes of a table.
* `Debugger.tracks_contend`: asking for the ticket.
-/

namespace EventDebugger

/-! ## Tables -/

namespace ThreadTable

/-- The recent entry is one of the entries. -/
def Coherent (table : ThreadTable) : Prop :=
  ∀ {thread id}, table.recent = some (thread, id) → table.stored? thread = some id

variable {table : ThreadTable}

theorem find?_eq_stored? (coherent : table.Coherent) (thread : Thread) :
    table.find? thread = table.stored? thread := by
  simp only [find?]
  split
  · next t id recent =>
      split
      · next same =>
          subst same
          exact (coherent recent).symm
      · rfl
  · rfl

theorem coherent_remember {thread : Thread} {id : ContextId} (stored : table.stored? thread = some id) :
    (table.remember thread id).Coherent := by
  intro t i recent
  cases recent
  exact stored

theorem stored?_insert (table : ThreadTable) (thread other : Thread) (id : ContextId) :
    (table.insert thread id).stored? other =
      (table.stored? other).or (if other = thread then some id else none) := by
  simp only [stored?, insert, List.lookup_append, List.lookup_cons, List.lookup_nil]
  by_cases same : other = thread
  · simp [same]
  · simp [same, beq_eq_false_iff_ne.mpr same]

theorem coherent_insert {thread : Thread} {id : ContextId} (unknown : table.stored? thread = none) :
    (table.insert thread id).Coherent := by
  intro t i recent
  cases recent
  rw [stored?_insert, unknown, Option.none_or, if_pos rfl]

theorem isSome_lookup_of_any {entries : List (Thread × ContextId)} {thread : Thread}
    (any : entries.any fun entry => entry.1 == thread) : (entries.lookup thread).isSome := by
  induction entries with
  | nil => cases any
  | cons entry rest ih =>
      obtain ⟨t, id⟩ := entry
      by_cases same : thread = t
      · simp [same]
      · have other : (t == thread) = false := beq_eq_false_iff_ne.mpr (Ne.symm same)
        simp only [List.any_cons, other, Bool.false_or] at any
        rw [List.lookup_cons, beq_eq_false_iff_ne.mpr same]
        exact ih any

theorem coherent_replace (coherent : table.Coherent) {entries : List (Thread × ContextId)}
    (agree : ∀ {thread id}, (entries.lookup thread).isSome → table.stored? thread = some id →
      entries.lookup thread = some id) : (table.replace entries).Coherent := by
  intro thread id recent
  obtain ⟨recent, any⟩ := Option.filter_eq_some_iff.mp recent
  exact agree (isSome_lookup_of_any any) (coherent recent)

end ThreadTable

/-! ## Contexts of threads -/

def Context.core (context : Context) : Thread × Bool × Bool × CallStack :=
  (context.thread, context.skipped, context.ignored, context.stack)

namespace Debugger

def contextOf? (d : Debugger) (thread : Thread) : Option ContextId :=
  d.session.bind fun session => session.table.find? thread

/-- The table is coherent, and the context of an entry is that of its thread. -/
structure WellTracked (d : Debugger) : Prop where
  coherent : ∀ {session}, d.session = some session → session.table.Coherent
  home : ∀ {session thread id}, d.session = some session → session.table.stored? thread = some id →
    id < d.contexts.size ∧ (d.context id).thread = thread

theorem WellTracked.of_ended {d : Debugger} (ended : d.session = none) : d.WellTracked :=
  ⟨fun active => (nomatch ended.symm.trans active), fun active => (nomatch ended.symm.trans active)⟩

theorem WellTracked.contextOf?_eq {d : Debugger} (h : d.WellTracked) {session : Session}
    (active : d.session = some session) (thread : Thread) :
    d.contextOf? thread = session.table.stored? thread := by
  rw [contextOf?, active, Option.bind_some, ThreadTable.find?_eq_stored? (h.coherent active)]

theorem WellTracked.known {d : Debugger} (h : d.WellTracked) {thread : Thread} {id : ContextId}
    (found : d.contextOf? thread = some id) : id < d.contexts.size ∧ (d.context id).thread = thread := by
  obtain ⟨session, active, _⟩ := Option.bind_eq_some_iff.mp found
  rw [h.contextOf?_eq active] at found
  exact h.home active found

/-- A later debugger of the same session, in which the threads that are alive keep their contexts and
the contexts their frames. -/
structure Tracks (d d' : Debugger) : Prop where
  alive : ∀ {thread}, d.host.isAlive thread → d'.host.isAlive thread
  blockHosts : d'.settings.blockHostTypes = d.settings.blockHostTypes
  size : d.contexts.size ≤ d'.contexts.size
  core : ∀ id < d.contexts.size, (d'.context id).core = (d.context id).core
  fresh : ∀ id, d.contexts.size ≤ id → id < d'.contexts.size →
    (d'.context id).stack = [] ∧ (d'.context id).skipped = false
  tracked : d.WellTracked → d'.WellTracked
  found : d.WellTracked → ∀ {thread id}, d.host.isAlive thread → d.contextOf? thread = some id →
    d'.contextOf? thread = some id
  origin : d.WellTracked → ∀ {thread id}, d'.contextOf? thread = some id →
    d.contextOf? thread = some id ∨ d.contexts.size ≤ id

namespace Tracks

variable {d d' d'' : Debugger}

theorem trans (first : Tracks d d') (second : Tracks d' d'') : Tracks d d'' where
  alive h := second.alive (first.alive h)
  blockHosts := second.blockHosts.trans first.blockHosts
  size := Nat.le_trans first.size second.size
  core id known := by
    rw [second.core id (Nat.lt_of_lt_of_le known first.size), first.core id known]
  fresh id unknown known := by
    by_cases old : id < d'.contexts.size
    · have same := second.core id old
      simp only [Context.core, Prod.mk.injEq] at same
      rw [same.2.1, same.2.2.2]
      exact first.fresh id unknown old
    · exact second.fresh id (Nat.le_of_not_lt old) known
  tracked well := second.tracked (first.tracked well)
  found well _ _ alive is := second.found (first.tracked well) (first.alive alive) (first.found well alive is)
  origin well _ _ is := by
    rcases second.origin (first.tracked well) is with old | new
    · exact first.origin well old
    · exact .inr (Nat.le_trans first.size new)

theorem of_table {session session' : Session} (active : d.session = some session)
    (active' : d'.session = some session') (grows : d.host.Grows d'.host)
    (blockHosts : d'.settings.blockHostTypes = d.settings.blockHostTypes)
    (size : d.contexts.size ≤ d'.contexts.size)
    (core : ∀ id < d.contexts.size, (d'.context id).core = (d.context id).core)
    (fresh : ∀ id, d.contexts.size ≤ id → id < d'.contexts.size →
      (d'.context id).stack = [] ∧ (d'.context id).skipped = false)
    (coherent : session.table.Coherent → session'.table.Coherent)
    (kept : ∀ {thread id}, d.host.isAlive thread → session.table.stored? thread = some id →
      session'.table.stored? thread = some id)
    (origin : ∀ {thread id}, session'.table.stored? thread = some id →
      session.table.stored? thread = some id ∨
        d.contexts.size ≤ id ∧ id < d'.contexts.size ∧ (d'.context id).thread = thread) :
    Tracks d d' := by
  have tracked (well : d.WellTracked) : d'.WellTracked := by
    refine ⟨fun {s} is => ?_, fun {s thread id} is stored => ?_⟩
    · cases active'.symm.trans is
      exact coherent (well.coherent active)
    · cases active'.symm.trans is
      rcases origin stored with old | ⟨_, known, home⟩
      · obtain ⟨known, home⟩ := well.home active old
        have same := core id known
        simp only [Context.core, Prod.mk.injEq] at same
        exact ⟨Nat.lt_of_lt_of_le known size, same.1.trans home⟩
      · exact ⟨known, home⟩
  refine ⟨grows.alive, blockHosts, size, core, fresh, tracked, fun well {thread id} alive is => ?_,
    fun well {thread id} is => ?_⟩
  · rw [(tracked well).contextOf?_eq active']
    rw [well.contextOf?_eq active] at is
    exact kept alive is
  · rw [(tracked well).contextOf?_eq active'] at is
    rw [well.contextOf?_eq active]
    exact (origin is).imp_right (·.1)

theorem of_same (table : d'.session.map (·.table) = d.session.map (·.table))
    (grows : d.host.Grows d'.host)
    (blockHosts : d'.settings.blockHostTypes = d.settings.blockHostTypes)
    (size : d'.contexts.size = d.contexts.size)
    (core : ∀ id, (d'.context id).core = (d.context id).core) : Tracks d d' := by
  have contextOf (thread : Thread) : d'.contextOf? thread = d.contextOf? thread := by
    have read (d : Debugger) : d.contextOf? thread =
        (d.session.map (·.table)).bind fun table => table.find? thread := by
      rw [contextOf?, Option.bind_map]
      rfl
    rw [read, read, table]
  have old {session' : Session} (active' : d'.session = some session') :
      ∃ session, d.session = some session ∧ session.table = session'.table := by
    rw [active', Option.map_some] at table
    exact Option.map_eq_some_iff.mp table.symm
  refine ⟨grows.alive, blockHosts, Nat.le_of_eq size.symm, fun id _ => core id, fun id unknown known => ?_,
    fun well => ⟨fun active' => ?_, fun {_ thread id} active' stored => ?_⟩,
    fun _ _ _ _ is => (contextOf _).trans is, fun _ _ _ is => .inl ((contextOf _).symm.trans is)⟩
  · omega
  · obtain ⟨session, active, same⟩ := old active'
    exact same ▸ well.coherent active
  · obtain ⟨session, active, same⟩ := old active'
    rw [← same] at stored
    obtain ⟨known, home⟩ := well.home active stored
    have same := core id
    simp only [Context.core, Prod.mk.injEq] at same
    exact ⟨size.symm ▸ known, same.1.trans home⟩

theorem refl (d : Debugger) : Tracks d d := of_same rfl (.refl _) rfl rfl fun _ => rfl

end Tracks

/-! ## The changes of contexts and of the table -/

theorem core_updateContext (d : Debugger) (id other : ContextId) (f : Context → Context)
    (hf : ∀ context, (f context).core = context.core) :
    ((d.updateContext id f).context other).core = (d.context other).core := by
  by_cases same : other = id
  · subst same
    by_cases known : other < d.contexts.size
    · rw [d.context_updateContext_self f known, hf]
    · rw [d.updateContext_unknown f (Nat.le_of_not_lt known)]
  · rw [d.context_updateContext_ne f same]

theorem tracks_updateContext (d : Debugger) (id : ContextId) (f : Context → Context)
    (hf : ∀ context, (f context).core = context.core) : Tracks d (d.updateContext id f) :=
  .of_same rfl (.refl _) rfl (d.size_updateContext id f) fun other => d.core_updateContext id other f hf

theorem tracks_currentThread (d : Debugger) (system : Nat) : Tracks d (d.currentThread system).2 :=
  .of_same rfl (Host.grows_currentThread _ _) rfl rfl fun _ => rfl

structure Opens (d d' : Debugger) : Prop where
  session : d'.session = d.session
  host : d'.host = d.host
  settings : d'.settings = d.settings
  size : d.contexts.size ≤ d'.contexts.size
  old : ∀ id < d.contexts.size, d'.context id = d.context id
  fresh : ∀ id, d.contexts.size ≤ id → id < d'.contexts.size →
    (d'.context id).stack = [] ∧ (d'.context id).skipped = false

theorem Opens.refl (d : Debugger) : Opens d d :=
  ⟨rfl, rfl, rfl, Nat.le_refl _, fun _ _ => rfl,
    fun _ unknown known => absurd known (Nat.not_lt.mpr unknown)⟩

theorem Opens.trans {d d' d'' : Debugger} (first : Opens d d') (second : Opens d' d'') :
    Opens d d'' := by
  refine ⟨second.session.trans first.session, second.host.trans first.host,
    second.settings.trans first.settings, Nat.le_trans first.size second.size, fun id known => ?_,
      fun id unknown known => ?_⟩
  · rw [second.old id (Nat.lt_of_lt_of_le known first.size), first.old id known]
  · by_cases old : id < d'.contexts.size
    · rw [second.old id old]
      exact first.fresh id unknown old
    · exact second.fresh id (Nat.le_of_not_lt old) known

theorem size_newContext (d : Debugger) (thread : Thread) :
    (d.newContext thread).2.contexts.size = d.contexts.size + 1 := Array.size_push _

theorem opens_newContext (d : Debugger) (thread : Thread) : Opens d (d.newContext thread).2 := by
  refine ⟨rfl, rfl, rfl, ?_, fun id known => ?_, fun id unknown known => ?_⟩
  · rw [size_newContext]
    exact Nat.le_succ _
  · exact context_addContext { d with contextCount := d.contextCount + 1 } _ known
  · rw [size_newContext] at known
    obtain rfl : id = d.contexts.size := by omega
    have new := context_addContext_new { d with contextCount := d.contextCount + 1 }
      (.initial thread (d.contextCount + 1) (d.host.isDebuggerThread thread))
    change (d.newContext thread).2.context d.contexts.size = _ at new
    rw [new]
    exact ⟨rfl, rfl⟩

theorem thread_newContext (d : Debugger) (thread : Thread) :
    ((d.newContext thread).2.context d.contexts.size).thread = thread := by
  have new := context_addContext_new { d with contextCount := d.contextCount + 1 }
    (.initial thread (d.contextCount + 1) (d.host.isDebuggerThread thread))
  change (d.newContext thread).2.context d.contexts.size = _ at new
  rw [new]
  rfl

theorem tracks_track {d : Debugger} {session : Session} (active : d.session = some session)
    (thread : Thread) : Tracks d (d.track session thread).2 := by
  simp only [track]
  split
  · next id found =>
      refine .of_table active rfl (.refl _) rfl (Nat.le_refl _) (fun _ _ => rfl)
        (fun _ unknown known => absurd known (Nat.not_lt.mpr unknown)) (fun coherent => ?_)
        (fun _ stored => stored) fun stored => .inl stored
      rw [ThreadTable.find?_eq_stored? coherent] at found
      exact ThreadTable.coherent_remember found
  · next unknown =>
      have opens := d.opens_newContext thread
      have size := d.size_newContext thread
      refine .of_table active rfl (opens.host ▸ .refl _) (congrArg _ opens.settings) opens.size
        (fun id known => congrArg Context.core (opens.old id known)) opens.fresh (fun coherent => ?_)
        (fun _ stored => ?_) fun {other id} stored => ?_
      · rw [ThreadTable.find?_eq_stored? coherent] at unknown
        exact ThreadTable.coherent_insert unknown
      · rw [ThreadTable.stored?_insert, stored, Option.some_or]
      · rw [ThreadTable.stored?_insert, Option.or_eq_some_iff] at stored
        rcases stored with old | ⟨_, new⟩
        · exact .inl old
        · split at new
          · next same =>
              cases new
              subst same
              exact .inr ⟨Nat.le_refl _, size ▸ Nat.lt_succ_self _, d.thread_newContext other⟩
          · cases new

theorem entriesFor_spec (d : Debugger) (table : ThreadTable) (threads : List Thread) :
    Opens d (d.entriesFor table threads).2 ∧
      (∀ {thread id}, (d.entriesFor table threads).1.lookup thread = some id →
        table.stored? thread = some id ∨ d.contexts.size ≤ id ∧
          id < (d.entriesFor table threads).2.contexts.size ∧
          ((d.entriesFor table threads).2.context id).thread = thread) ∧
      ∀ {thread id}, thread ∈ threads → table.stored? thread = some id →
        (d.entriesFor table threads).1.lookup thread = some id := by
  induction threads generalizing d with
  | nil =>
      exact ⟨.refl d, (fun looked => by cases looked), (fun member => by cases member)⟩
  | cons thread threads ih =>
      simp only [entriesFor]
      split
      · next id stored =>
          obtain ⟨opens, origin, kept⟩ := ih d
          refine ⟨opens, fun {other i} looked => ?_, fun {other i} member is => ?_⟩
          · rw [List.lookup_cons] at looked
            split at looked
            · next same =>
                cases looked
                rw [eq_of_beq same]
                exact .inl stored
            · exact origin looked
          · rw [List.lookup_cons]
            split
            · next same =>
                rw [eq_of_beq same, stored] at is
                exact is
            · next other' =>
                refine kept ((List.mem_cons.mp member).resolve_left fun same => ?_) is
                rw [same, beq_self_eq_true] at other'
                cases other'
      · next unknown =>
          obtain ⟨opens, origin, kept⟩ := ih (d.newContext thread).2
          have first := d.opens_newContext thread
          have size := d.size_newContext thread
          refine ⟨first.trans opens, fun {other i} looked => ?_, fun {other i} member is => ?_⟩
          · rw [List.lookup_cons] at looked
            split at looked
            · next same =>
                cases looked
                have known : d.contexts.size < (d.newContext thread).2.contexts.size := by
                  rw [size]
                  exact Nat.lt_succ_self _
                refine .inr ⟨Nat.le_refl _, Nat.lt_of_lt_of_le known opens.size, ?_⟩
                have made := opens.old _ known
                change (((d.newContext thread).2.entriesFor table threads).2.context
                  d.contexts.size).thread = other
                rw [made, eq_of_beq same]
                exact d.thread_newContext thread
            · rcases origin looked with old | ⟨new, rest⟩
              · exact .inl old
              · exact .inr ⟨Nat.le_trans first.size new, rest⟩
          · rw [List.lookup_cons]
            split
            · next same =>
                rw [eq_of_beq same, unknown] at is
                cases is
            · next other' =>
                refine kept ((List.mem_cons.mp member).resolve_left fun same => ?_) is
                rw [same, beq_self_eq_true] at other'
                cases other'

theorem threads_entriesFor (d : Debugger) (table : ThreadTable) (threads : List Thread) :
    (d.entriesFor table threads).1.map (·.1) = threads := by
  induction threads generalizing d with
  | nil => rfl
  | cons thread threads ih =>
      simp only [entriesFor]
      split <;> exact congrArg (thread :: ·) (ih _)

theorem mem_liveThreads {host : Host} {thread : Thread} (alive : host.isAlive thread) :
    thread ∈ host.liveThreads := by
  simp only [Host.isAlive] at alive
  split at alive
  · next record found =>
      obtain ⟨member, same⟩ := Host.mem_of_record? found
      exact List.mem_map.mpr ⟨record, List.mem_filter.mpr ⟨member, alive⟩, same⟩
  · cases alive

theorem tracks_rebuild {d : Debugger} {session : Session} (active : d.session = some session) :
    Tracks d (d.rebuild session).2 := by
  obtain ⟨opens, origin, kept⟩ := d.entriesFor_spec session.table d.host.liveThreads
  refine .of_table active rfl ?_ (congrArg _ opens.settings) opens.size
    (fun id known => congrArg Context.core (opens.old id known)) opens.fresh (fun coherent => ?_)
    (fun alive stored => kept (mem_liveThreads alive) stored) origin
  · rw [show (d.rebuild session).2.host = d.host from opens.host]
    exact .refl _
  · refine ThreadTable.coherent_replace coherent fun {thread id} entry stored => kept ?_ stored
    obtain ⟨found, member, same⟩ := List.lookup_isSome_iff.mp entry
    rw [eq_of_beq same, ← d.threads_entriesFor session.table d.host.liveThreads]
    exact List.mem_map_of_mem member

theorem tracks_letIn {d : Debugger} {session session' : Session} (active : d.session = some session)
    (table : session'.table = session.table) (id : ContextId) : Tracks d (d.letIn session' id).2 := by
  simp only [letIn]
  split
  · have handed : Tracks d { d with session := some session'.handOver }.wakeUp :=
      .of_same (by rw [active]; exact congrArg some table) (.refl _) rfl rfl fun _ => rfl
    exact handed.trans
      (tracks_updateContext _ id (fun context => { context with wasRunning := true }) fun _ => rfl)
  · exact .of_same (by rw [active]; exact congrArg some table) (.refl _) rfl rfl fun _ => rfl

theorem tracks_contend (d : Debugger) (thread : Thread) (id : ContextId) (granted : Bool) :
    Tracks d (d.contend thread id granted).2 := by
  simp only [contend]
  split
  · exact .refl d
  · next session active =>
      split
      · refine tracks_letIn active ?_ id
        rfl
      · split
        · split
          · exact tracks_letIn active rfl id
          · exact .refl d
        · refine .of_same ?_ (.refl _) rfl rfl fun _ => rfl
          simp only [active, Session.enqueue]
          split <;> rfl

theorem tracks_prune {d : Debugger} {session : Session} (active : d.session = some session) :
    Tracks d { d with session := some { session with table := session.table.prune d.host.isAlive } } := by
  refine .of_table active rfl (.refl _) rfl (Nat.le_refl _) (fun _ _ => rfl)
    (fun _ unknown known => absurd known (Nat.not_lt.mpr unknown)) (fun coherent => ?_)
    (fun {thread id} alive stored => ?_) fun {thread id} stored => ?_
  · refine ThreadTable.coherent_replace coherent fun {thread id} entry stored => ?_
    rw [lookup_filter] at entry ⊢
    split at entry
    · next alive =>
        rw [if_pos alive]
        exact stored
    · cases entry
  · change List.lookup thread (session.table.entries.filter _) = _
    rw [lookup_filter, if_pos alive]
    exact stored
  · change List.lookup thread (session.table.entries.filter _) = _ at stored
    rw [lookup_filter] at stored
    split at stored
    · exact .inl stored
    · cases stored

theorem tracks_release (d : Debugger) : Tracks d d.release := by
  simp only [release]
  split
  · exact .of_same rfl (.refl _) rfl rfl fun _ => rfl
  · next session active =>
      simp only [pruneWhenDue]
      split
      · exact (tracks_prune active).trans (.of_same rfl (.refl _) rfl rfl fun _ => rfl)
      · exact .of_same (by rw [active]; rfl) (.refl _) rfl rfl fun _ => rfl

end Debugger

end EventDebugger
