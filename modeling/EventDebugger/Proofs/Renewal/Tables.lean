import EventDebugger.Proofs.Renewal.Renaming
import EventDebugger.Proofs.Ticket.Operations

/-!
# Threads and the ticket up to numbering

The contexts of threads are looked up, made and removed in a debugger as in the one that it renames, and the
ticket is asked for and given back alike.

* `Renames.track`, `Renames.rebuild`: the changes of the tables.
* `Renames.contend`, `Renames.release`: asking for the ticket, and giving it back.
-/

namespace EventDebugger

variable {ρ : Renaming} {contexts contexts' : Array Context} {host : Host}

/-! ## Tables -/

theorem Renaming.lookup_entry (ρ : Renaming) (entries : List (Thread × ContextId)) (thread : Thread) :
    (entries.map ρ.entry).lookup thread = (entries.lookup thread).map ρ.address := by
  induction entries with
  | nil => rfl
  | cons entry rest ih =>
      rw [List.map_cons, Renaming.entry, List.lookup_cons, List.lookup_cons]
      cases thread == entry.1 with
      | true => rfl
      | false => exact ih

namespace ThreadTable.Renames

variable {x y : ThreadTable}

theorem stored?_eq (h : x.Renames ρ contexts host y) {thread : Thread} (heeded : ρ.heeds host thread) :
    y.stored? thread = (x.stored? thread).map ρ.address := by
  have filtered (table : ThreadTable) : table.stored? thread =
      (table.entries.filter fun entry => ρ.heeds host entry.1).lookup thread := by
    rw [lookup_filter, if_pos heeded, stored?]
  rw [filtered, filtered, h.entries, ρ.lookup_entry]

theorem home_of_stored? (h : x.Renames ρ contexts host y) {thread : Thread} {id : ContextId}
    (stored : x.stored? thread = some id) : Home contexts host (thread, id) := by
  obtain ⟨before, after, split, -⟩ := List.lookup_eq_some_iff.mp stored
  apply h.home
  rw [split]
  exact List.mem_append_right _ List.mem_cons_self

theorem home_of_stored?' (h : x.Renames ρ contexts host y) {thread : Thread} {id' : ContextId}
    (stored : y.stored? thread = some id') : ∃ id, Home contexts host (thread, id) ∧ id' = ρ.address id := by
  obtain ⟨before, after, split, -⟩ := List.lookup_eq_some_iff.mp stored
  have member : (thread, id') ∈ y.entries := by
    rw [split]
    exact List.mem_append_right _ List.mem_cons_self
  obtain ⟨⟨other, id⟩, home, same⟩ := h.home' _ member
  cases same
  exact ⟨id, home, rfl⟩

theorem mem_entries_iff (h : x.Renames ρ contexts host y) {entry : Thread × ContextId}
    (heeded : ρ.heeds host entry.1) : entry ∈ y.entries ↔ ∃ original ∈ x.entries, entry = ρ.entry original := by
  have filtered : entry ∈ y.entries ↔ entry ∈ y.entries.filter fun entry => ρ.heeds host entry.1 := by
    rw [List.mem_filter]
    exact ⟨fun member => ⟨member, heeded⟩, fun member => member.1⟩
  rw [filtered, h.entries, List.mem_map]
  constructor
  · rintro ⟨original, member, rfl⟩
    exact ⟨original, (List.mem_filter.mp member).1, rfl⟩
  · rintro ⟨original, member, rfl⟩
    exact ⟨original, List.mem_filter.mpr ⟨member, heeded⟩, rfl⟩

theorem remember (h : x.Renames ρ contexts host y) {thread : Thread} {id : ContextId}
    (stored : x.stored? thread = some id) (heeded : ρ.heeds host thread) :
    (x.remember thread id).Renames ρ contexts host (y.remember thread (ρ.address id)) := by
  refine { h with coherent := coherent_remember stored, coherent' := coherent_remember ?_ }
  rw [h.stored?_eq heeded, stored, Option.map_some]

theorem insert (h : x.Renames ρ contexts host y) {thread : Thread} {id : ContextId}
    (unknown : x.stored? thread = none) (heeded : ρ.heeds host thread) (home : Home contexts host (thread, id)) :
    (x.insert thread id).Renames ρ contexts host (y.insert thread (ρ.address id)) := by
  have unknown' : y.stored? thread = none := by rw [h.stored?_eq heeded, unknown, Option.map_none]
  refine ⟨?_, coherent_insert unknown, coherent_insert unknown', fun entry member => ?_, fun entry member => ?_⟩
  · have new (id : ContextId) : ([(thread, id)].filter fun entry => ρ.heeds host entry.1) = [(thread, id)] :=
      List.filter_cons_of_pos heeded
    simp only [ThreadTable.insert, List.filter_append, h.entries, new, List.map_append, List.map_cons, List.map_nil]
    rfl
  · rcases List.mem_append.mp member with older | new
    · exact h.home entry older
    · rw [List.mem_singleton.mp new]
      exact home
  · rcases List.mem_append.mp member with older | new
    · exact h.home' entry older
    · exact ⟨_, home, List.mem_singleton.mp new⟩

theorem prune (h : x.Renames ρ contexts host y) {x' y' : ThreadTable}
    (coherent : x'.Coherent) (coherent' : y'.Coherent)
    (left : x'.entries = x.entries ∨ x'.entries = x.entries.filter fun entry => host.isAlive entry.1)
    (right : y'.entries = y.entries ∨ y'.entries = y.entries.filter fun entry => host.isAlive entry.1)
    (lockstep : ρ.lockstep → (x'.entries = x.entries ∧ y'.entries = y.entries) ∨
      ((x'.entries = x.entries.filter fun entry => host.isAlive entry.1) ∧
        y'.entries = y.entries.filter fun entry => host.isAlive entry.1)) :
    x'.Renames ρ contexts host y' := by
  have fewer {entries entries' : List (Thread × ContextId)}
      (pruned : entries' = entries ∨ entries' = entries.filter fun entry => host.isAlive entry.1) :
      ∀ entry ∈ entries', entry ∈ entries := by
    intro entry member
    rcases pruned with same | pruned
    · exact same ▸ member
    · exact (List.mem_filter.mp (pruned ▸ member)).1
  refine ⟨?_, coherent, coherent', fun entry member => h.home entry (fewer left entry member),
    fun entry member => h.home' entry (fewer right entry member)⟩
  have entries := h.entries
  cases together : ρ.lockstep with
  | true =>
      have all (entries : List (Thread × ContextId)) :
          (entries.filter fun entry => ρ.heeds host entry.1) = entries := by
        simp only [Renaming.heeds, together, Bool.true_or]
        exact List.filter_eq_self.mpr fun _ _ => rfl
      rw [all, all] at entries ⊢
      rcases lockstep together with ⟨same, same'⟩ | ⟨pruned, pruned'⟩
      · rw [same, same', entries]
      · rw [pruned, pruned', entries, List.filter_map]
        rfl
  | false =>
      have alive : ρ.heeds host = host.isAlive := by
        funext thread
        rw [Renaming.heeds, together, Bool.false_or]
      have pruned {entries entries' : List (Thread × ContextId)}
          (pruned : entries' = entries ∨ entries' = entries.filter fun entry => host.isAlive entry.1) :
          (entries'.filter fun entry => host.isAlive entry.1) = entries.filter fun entry => host.isAlive entry.1 := by
        rcases pruned with same | pruned
        · rw [same]
        · rw [pruned, List.filter_filter]
          simp only [Bool.and_self]
      rw [alive] at entries ⊢
      rw [pruned left, pruned right, entries]

end ThreadTable.Renames

namespace Debugger

def PruneDue (d : Debugger) : Prop := d.eventCount - d.prunedAt > d.settings.pruneInterval

theorem pruneWhenDue_eq (d : Debugger) (session : Session) :
    ∃ table prunedAt, d.pruneWhenDue session = ({ session with table }, { d with prunedAt }) ∧
      ((¬ d.PruneDue ∧ table = session.table ∧ prunedAt = d.prunedAt) ∨
        (d.PruneDue ∧ table = session.table.prune d.host.isAlive ∧ prunedAt = d.eventCount)) := by
  simp only [pruneWhenDue]
  split
  · next due => exact ⟨_, _, rfl, .inr ⟨due, rfl, rfl⟩⟩
  · next early => exact ⟨_, _, rfl, .inl ⟨early, rfl, rfl⟩⟩

end Debugger

namespace Renames

variable {a b : Debugger}

theorem sessions (h : Renames ρ a b) : (a.session = none ∧ b.session = none) ∨
    ∃ x y, a.session = some x ∧ b.session = some y ∧ x.Renames ρ a.contexts a.host y := by
  have session := h.session
  generalize a.session = x at session
  generalize b.session = y at session
  cases session with
  | none => exact .inl ⟨rfl, rfl⟩
  | some alike => exact .inr ⟨_, _, rfl, rfl, alike⟩

theorem alike (h : Renames ρ a b) {x y : Session} (active : a.session = some x) (active' : b.session = some y) :
    x.Renames ρ a.contexts a.host y := by
  have session := h.session
  rw [active, active'] at session
  cases session with
  | some alike => exact alike

theorem onSession (h : Renames ρ a b) {x y : Session} (alike : x.Renames ρ a.contexts a.host y) :
    Renames ρ { a with session := some x } { b with session := some y } :=
  { h with session := .some alike }

theorem wakeUp (h : Renames ρ a b) : Renames ρ a.wakeUp b.wakeUp := by
  refine { h with wakeups := ?_ }
  simp only [Debugger.wakeUp, h.wakeups]
  exact Nat.add_right_comm ..

theorem wellTracked (h : Renames ρ a b) : a.WellTracked ∧ b.WellTracked := by
  rcases h.sessions with ⟨none, none'⟩ | ⟨x, y, active, active', alike⟩
  · exact ⟨.of_ended none, .of_ended none'⟩
  · refine ⟨⟨fun is => ?_, fun is stored => ?_⟩, fun is => ?_, fun is stored => ?_⟩
    · cases active.symm.trans is
      exact alike.table.coherent
    · cases active.symm.trans is
      have home := alike.table.home_of_stored? stored
      exact ⟨home.known, home.thread⟩
    · cases active'.symm.trans is
      exact alike.table.coherent'
    · cases active'.symm.trans is
      obtain ⟨id, home, rfl⟩ := alike.table.home_of_stored?' stored
      refine ⟨h.known_iff.mpr home.known, ?_⟩
      rw [h.contexts id home.known]
      exact home.thread

theorem track (h : Renames ρ a b) {x y : Session} (active : a.session = some x) (active' : b.session = some y)
    {thread : Thread} (heeded : ρ.heeds a.host thread) (counted : thread.id ≤ a.host.threadCount) :
    (b.track y thread).1 = ρ.address (a.track x thread).1 ∧
      Renames ρ (a.track x thread).2 (b.track y thread).2 := by
  have alike := h.alike active active'
  have found := alike.table.stored?_eq heeded
  simp only [Debugger.track, ThreadTable.find?_eq_stored? alike.table.coherent,
    ThreadTable.find?_eq_stored? alike.table.coherent', found]
  cases stored : x.table.stored? thread with
  | some id => exact ⟨rfl, h.onSession { alike with table := alike.table.remember stored heeded }⟩
  | none =>
      obtain ⟨same, made⟩ := h.newContext thread
      have alike' : x.Renames ρ (a.newContext thread).2.contexts a.host y := made.alike active active'
      have inserted := alike'.table.insert stored heeded (home_newContext a counted)
      rw [← same] at inserted
      exact ⟨same, made.onSession { alike' with table := inserted }⟩

theorem home_of_opens {d d' : Debugger} (opens : d.Opens d') {entry : Thread × ContextId}
    (home : Home d.contexts host entry) : Home d'.contexts host entry := by
  have same : contextAt d'.contexts entry.2 = contextAt d.contexts entry.2 := opens.old entry.2 home.known
  refine ⟨Nat.lt_of_lt_of_le home.known opens.size, ?_, ?_, home.counted⟩
  · rw [same, home.thread]
  · rw [same, home.live]

theorem entriesFor (h : Renames ρ a b) {x y : ThreadTable} {threads : List Thread}
    (stored : ∀ thread ∈ threads, y.stored? thread = (x.stored? thread).map ρ.address)
    (home : ∀ {thread id}, x.stored? thread = some id → Home a.contexts a.host (thread, id))
    (counted : ∀ thread ∈ threads, thread.id ≤ a.host.threadCount) :
    (b.entriesFor y threads).1 = (a.entriesFor x threads).1.map ρ.entry ∧
      Renames ρ (a.entriesFor x threads).2 (b.entriesFor y threads).2 ∧
      ∀ entry ∈ (a.entriesFor x threads).1, Home (a.entriesFor x threads).2.contexts a.host entry := by
  induction threads generalizing a b with
  | nil => exact ⟨rfl, h, fun _ member => by cases member⟩
  | cons thread threads ih =>
      have stored' := fun other member => stored other (List.mem_cons_of_mem thread member)
      have counted' := fun other member => counted other (List.mem_cons_of_mem thread member)
      simp only [Debugger.entriesFor, stored thread List.mem_cons_self]
      cases found : x.stored? thread with
      | some id =>
          obtain ⟨entries, renames, homes⟩ := ih h stored' home counted'
          refine ⟨congrArg _ entries, renames, List.forall_mem_cons.mpr ⟨?_, homes⟩⟩
          exact home_of_opens (a.entriesFor_spec x threads).1 (home found)
      | none =>
          obtain ⟨same, made⟩ := h.newContext thread
          have opens := a.opens_newContext thread
          obtain ⟨entries, renames, homes⟩ := ih made stored' (fun found => home_of_opens opens (home found)) counted'
          refine ⟨?_, renames, List.forall_mem_cons.mpr ⟨?_, homes⟩⟩
          · simp only [Option.map_none, List.map_cons, Renaming.entry, same]
            exact congrArg _ entries
          · have new := home_newContext a (counted thread List.mem_cons_self)
            exact home_of_opens ((a.newContext thread).2.entriesFor_spec x threads).1 new

theorem rebuild (h : Renames ρ a b) {x y : Session} (active : a.session = some x) (active' : b.session = some y) :
    (b.rebuild y).1 = (a.rebuild x).1.map ρ.address ∧ Renames ρ (a.rebuild x).2 (b.rebuild y).2 := by
  have alike := h.alike active active'
  have live {thread : Thread} (member : thread ∈ a.host.liveThreads) : a.host.isAlive thread :=
    Host.isAlive_of_mem_liveThreads h.listed member
  obtain ⟨entries, renames, homes⟩ := h.entriesFor
    (fun thread member => alike.table.stored?_eq (ρ.heeds_of_isAlive (live member))) alike.table.home_of_stored?
    fun thread member => Host.counted_of_isAlive h.listed (live member)
  have coherent : (x.table.replace (a.entriesFor x.table a.host.liveThreads).1).Coherent :=
    ((Debugger.tracks_rebuild active).tracked h.wellTracked.1).coherent rfl
  have coherent' : (y.table.replace (b.entriesFor y.table a.host.liveThreads).1).Coherent :=
    h.host ▸ ((Debugger.tracks_rebuild active').tracked h.wellTracked.2).coherent rfl
  have host := (a.entriesFor_spec x.table a.host.liveThreads).1.host
  simp only [Debugger.rebuild, h.host]
  generalize a.entriesFor x.table a.host.liveThreads = made at *
  generalize b.entriesFor y.table a.host.liveThreads = made' at *
  refine ⟨?_, renames.onSession { alike with table := ⟨?_, coherent, coherent', host ▸ homes, ?_⟩ }⟩
  · rw [entries, List.map_map, List.map_map]
    rfl
  · simp only [ThreadTable.replace, host, entries, List.filter_map]
    rfl
  · intro entry member
    obtain ⟨original, listed, rfl⟩ := List.mem_map.mp (entries ▸ member)
    exact ⟨original, host ▸ homes original listed, rfl⟩

/-! ## The ticket -/

theorem letIn (h : Renames ρ a b) {x y : Session} (alike : x.Renames ρ a.contexts a.host y) (id : ContextId) :
    (b.letIn y (ρ.address id)).1 = (a.letIn x id).1 ∧
      Renames ρ (a.letIn x id).2 (b.letIn y (ρ.address id)).2 := by
  have suspended : (b.context (ρ.address id)).suspended = (a.context id).suspended := h.reads id _ fun _ _ => rfl
  have handed : x.handOver.Renames ρ a.contexts a.host y.handOver :=
    ⟨alike.table, alike.registry, congrArg List.head? alike.waiting, congrArg List.tail alike.waiting⟩
  simp only [Debugger.letIn, suspended]
  split
  · refine ⟨rfl, (h.onSession handed).wakeUp.updateContext id (f := ({ · with wasRunning := true })) ?_⟩
    exact ⟨fun _ _ => rfl, fun _ => rfl, fun _ => rfl⟩
  · exact ⟨rfl, h.onSession alike⟩

theorem contend (h : Renames ρ a b) (thread : Thread) (id : ContextId) (granted : Bool) :
    (b.contend thread (ρ.address id) granted).1 = (a.contend thread id granted).1 ∧
      Renames ρ (a.contend thread id granted).2 (b.contend thread (ρ.address id) granted).2 := by
  rcases h.sessions with ⟨none, none'⟩ | ⟨x, y, active, active', alike⟩
  · simp only [Debugger.contend, none, none', true_and]
    exact h
  · have taken : ({ x with holder := some thread } : Session).Renames ρ a.contexts a.host
        { y with holder := some thread } := ⟨alike.table, alike.registry, rfl, alike.waiting⟩
    have enqueued : (x.enqueue thread).Renames ρ a.contexts a.host (y.enqueue thread) := by
      simp only [Session.enqueue, alike.waiting]
      split
      · exact alike
      · exact ⟨alike.table, alike.registry, alike.holder, rfl⟩
    simp only [Debugger.contend, active, active', alike.holder]
    split
    · exact h.letIn taken id
    · split
      · split
        · exact h.letIn alike id
        · exact ⟨rfl, h⟩
      · exact ⟨rfl, h.onSession enqueued⟩

theorem isAwake_eq (h : Renames ρ a b) (system : Nat) (thread : Thread) (id : ContextId) (event : Event)
    (reason : Waiting) (since : Nat) :
    b.isAwake ⟨system, thread, ρ.address id, event, reason, since + ρ.wakeups⟩ =
      a.isAwake ⟨system, thread, id, event, reason, since⟩ := by
  have suspended : (b.context (ρ.address id)).suspended = (a.context id).suspended := h.reads id _ fun _ _ => rfl
  have isOver : b.isOver thread (ρ.address id) reason = a.isOver thread id reason := by
    rcases h.sessions with ⟨none, none'⟩ | ⟨x, y, active, active', alike⟩
    · cases reason <;> simp only [Debugger.isOver, none, none', suspended]
    · cases reason <;> simp only [Debugger.isOver, active, active', Option.all_some, Option.isNone_some,
        alike.waiting, suspended]
  simp only [Debugger.isAwake, isOver, h.wakeups, Nat.add_lt_add_iff_right]

theorem release (h : Renames ρ a b) : Renames ρ a.release b.release := by
  have tracked := a.tracks_release.tracked h.wellTracked.1
  have tracked' := b.tracks_release.tracked h.wellTracked.2
  rcases h.sessions with ⟨none, none'⟩ | ⟨x, y, active, active', alike⟩
  · simp only [Debugger.release, none, none']
    exact h.wakeUp
  · obtain ⟨table, prunedAt, pruned, left⟩ := a.pruneWhenDue_eq x
    obtain ⟨table', prunedAt', pruned', right⟩ := b.pruneWhenDue_eq y
    simp only [Debugger.release, active, active', pruned, pruned'] at tracked tracked' ⊢
    rw [h.host] at right
    have together : ρ.lockstep → (a.PruneDue ↔ b.PruneDue) := by
      intro lockstep
      obtain ⟨events, last⟩ := h.phase lockstep
      simp only [Debugger.PruneDue, events, last, h.settings]
    have tables : table.Renames ρ a.contexts a.host table' := by
      refine alike.table.prune (tracked.coherent rfl) (tracked'.coherent rfl) ?_ ?_ fun lockstep => ?_
      · exact left.elim (fun kept => .inl (congrArg _ kept.2.1)) fun due => .inr (congrArg _ due.2.1)
      · exact right.elim (fun kept => .inl (congrArg _ kept.2.1)) fun due => .inr (congrArg _ due.2.1)
      · rcases left with ⟨early, kept, _⟩ | ⟨due, pruned, _⟩ <;>
          rcases right with ⟨early', kept', _⟩ | ⟨due', pruned', _⟩
        · exact .inl ⟨congrArg _ kept, congrArg _ kept'⟩
        · exact absurd ((together lockstep).mpr due') early
        · exact absurd ((together lockstep).mp due) early'
        · exact .inr ⟨congrArg _ pruned, congrArg _ pruned'⟩
    have noted : Renames ρ { a with prunedAt } { b with prunedAt := prunedAt' } := by
      refine { h with phase := fun lockstep => ⟨(h.phase lockstep).1, ?_⟩ }
      obtain ⟨events, last⟩ := h.phase lockstep
      rcases left with ⟨early, _, at'⟩ | ⟨due, _, at'⟩ <;> rcases right with ⟨early', _, at''⟩ | ⟨due', _, at''⟩
      · exact at''.trans (last.trans at'.symm)
      · exact absurd ((together lockstep).mpr due') early
      · exact absurd ((together lockstep).mp due) early'
      · exact at''.trans (events.trans at'.symm)
    have handed : ({ x with table } : Session).handOver.Renames ρ a.contexts a.host
        ({ y with table := table' } : Session).handOver :=
      ⟨tables, alike.registry, congrArg List.head? alike.waiting, congrArg List.tail alike.waiting⟩
    exact (noted.onSession handed).wakeUp

end Renames

end EventDebugger
