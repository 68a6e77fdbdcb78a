import EventDebugger.Host

/-!
# Threads of their own

A system thread that is bound runs a host thread which no other system thread runs. The operations of
a debugger never take the thread of a system thread away; they only register further ones.

* `Host.grows_currentThread`: asking for the thread of a system thread keeps all that are bound.
-/

namespace EventDebugger.Host

def boundTo? (host : Host) (system : Nat) : Option Thread := host.bound.lookup system

/-- System threads run different host threads, all of them registered, and a record that names a
system thread is the record of the thread that runs on it. -/
structure OwnThreads (host : Host) : Prop where
  injective : ∀ {s s' thread}, host.boundTo? s = some thread → host.boundTo? s' = some thread → s = s'
  registered : ∀ {s thread}, host.boundTo? s = some thread → thread.id ≤ host.threadCount
  home : ∀ record ∈ host.threads, ∀ s, record.systemThread = some s →
    host.boundTo? s = some record.thread

/-- A later host: bound system threads stay bound to their threads, each has a thread of its own, and
threads stay alive. -/
structure Grows (before after : Host) : Prop where
  bound : ∀ {s thread}, before.boundTo? s = some thread → after.boundTo? s = some thread
  own : before.OwnThreads → after.OwnThreads
  alive : ∀ {thread}, before.isAlive thread → after.isAlive thread

theorem Grows.refl (host : Host) : host.Grows host := ⟨id, id, id⟩

theorem Grows.trans {a b c : Host} (ab : a.Grows b) (bc : b.Grows c) : a.Grows c :=
  ⟨fun h => bc.bound (ab.bound h), fun h => bc.own (ab.own h), fun h => bc.alive (ab.alive h)⟩

/-- The records of the threads but for what the program and the front-end may change in them. -/
def identities (host : Host) : List (Thread × Option Nat × Bool) :=
  host.threads.map fun record => (record.thread, record.systemThread, record.alive)

theorem isAlive_eq (host : Host) (thread : Thread) :
    host.isAlive thread =
      ((host.identities.find? fun identity => identity.1 == thread).map (·.2.2)).getD false := by
  rw [identities, List.find?_map, isAlive, record?]
  change _ = ((Option.map _ (host.threads.find? fun record => record.thread == thread)).map _).getD false
  cases host.threads.find? fun record => record.thread == thread <;> rfl

/-- A host with the same threads on the same system threads. -/
structure SameThreads (before after : Host) : Prop where
  bound : after.bound = before.bound
  count : after.threadCount = before.threadCount
  identities : after.identities = before.identities

theorem SameThreads.refl (host : Host) : host.SameThreads host := ⟨rfl, rfl, rfl⟩

theorem SameThreads.trans {a b c : Host} (ab : a.SameThreads b) (bc : b.SameThreads c) :
    a.SameThreads c :=
  ⟨bc.bound.trans ab.bound, bc.count.trans ab.count, bc.identities.trans ab.identities⟩

theorem SameThreads.boundTo?_eq {before after : Host} (h : before.SameThreads after) (system : Nat) :
    after.boundTo? system = before.boundTo? system := by rw [boundTo?, h.bound, boundTo?]

theorem SameThreads.isAlive_eq {before after : Host} (h : before.SameThreads after) (thread : Thread) :
    after.isAlive thread = before.isAlive thread := by
  rw [Host.isAlive_eq, h.identities, ← Host.isAlive_eq]

theorem SameThreads.grows {before after : Host} (h : before.SameThreads after) :
    before.Grows after := by
  have bound := h.boundTo?_eq
  refine ⟨fun hs => (bound _).trans hs, fun own => ⟨?_, ?_, ?_⟩, fun {thread} alive => ?_⟩
  · intro s s' thread hs hs'
    exact own.injective ((bound s).symm.trans hs) ((bound s').symm.trans hs')
  · intro s thread hs
    rw [h.count]
    exact own.registered ((bound s).symm.trans hs)
  · intro record member s hs
    have : (record.thread, some s, record.alive) ∈ before.identities := by
      rw [← h.identities, ← hs]
      exact List.mem_map_of_mem member
    obtain ⟨old, oldMember, equal⟩ := List.mem_map.mp this
    have same : old.thread = record.thread := congrArg Prod.fst equal
    rw [bound, ← same]
    exact own.home old oldMember s (congrArg (·.2.1) equal)
  · rw [h.isAlive_eq]
    exact alive

theorem sameThreads_updateThread (host : Host) (thread : Thread) (f : ThreadRecord → ThreadRecord)
    (hf : ∀ record, (f record).thread = record.thread ∧ (f record).systemThread = record.systemThread ∧
      (f record).alive = record.alive) :
    host.SameThreads (host.updateThread thread f) := by
  refine ⟨rfl, rfl, ?_⟩
  simp only [identities, updateThread, List.map_map]
  refine List.map_congr_left fun record _ => ?_
  simp only [Function.comp_apply]
  split
  · rw [(hf record).1, (hf record).2.1, (hf record).2.2]
  · rfl

theorem ownThreads_initial : initial.OwnThreads where
  injective bound := by cases bound
  registered bound := by cases bound
  home _ member := by cases member

/-! ## Binding and registering -/

theorem lookup_filter_ne {α : Type} (entries : List (Nat × α)) (key other : Nat) :
    (entries.filter fun entry => entry.1 != key).lookup other =
      if other = key then none else entries.lookup other := by
  rw [lookup_filter entries (· != key)]
  by_cases same : other = key <;> simp [same]

theorem boundTo?_bind (host : Host) (system other : Nat) (thread : Thread) :
    (host.bind system thread).boundTo? other =
      if other = system then some thread else host.boundTo? other := by
  by_cases h : other = system
  · simp [boundTo?, bind, h]
  · have h' : (other == system) = false := beq_eq_false_iff_ne.mpr h
    simp [boundTo?, bind, updateThread, List.lookup_cons, h', lookup_filter_ne, h]

theorem ownThreads_bind {host : Host} (own : host.OwnThreads) {system : Nat} {thread : Thread}
    (free : host.boundTo? system = none) (unbound : ∀ s, host.boundTo? s ≠ some thread)
    (registered : thread.id ≤ host.threadCount) : (host.bind system thread).OwnThreads := by
  refine ⟨?_, ?_, ?_⟩
  · intro s s' t hs hs'
    rw [boundTo?_bind] at hs hs'
    split at hs <;> split at hs'
    · omega
    · cases hs
      exact absurd hs' (unbound s')
    · cases hs'
      exact absurd hs (unbound s)
    · exact own.injective hs hs'
  · intro s t hs
    rw [boundTo?_bind] at hs
    split at hs
    · cases hs
      exact registered
    · exact own.registered hs
  · intro record member s hs
    simp only [bind, updateThread, List.mem_map] at member
    obtain ⟨old, oldMember, rfl⟩ := member
    rw [boundTo?_bind]
    split at hs
    · next same =>
        cases hs
        simp [same]
    · next other =>
        have home := own.home old oldMember s hs
        have : s ≠ system := by
          rintro rfl
          rw [free] at home
          cases home
        simpa [this, other] using home

theorem boundTo?_register (host : Host) (name : String) (system : Nat) :
    (host.register name).2.boundTo? system = host.boundTo? system := rfl

theorem isAlive_register {host : Host} (name : String) {thread : Thread} (alive : host.isAlive thread) :
    (host.register name).2.isAlive thread := by
  simp only [isAlive, record?] at alive ⊢
  split at alive
  · next record found =>
      have later : (host.register name).2.threads.find? (fun record => record.thread == thread) =
          some record := by
        simp only [register, List.find?_append, found, Option.some_or]
      simp only [later]
      exact alive
  · cases alive

theorem grows_register (host : Host) (name : String) : host.Grows (host.register name).2 := by
  refine ⟨id, fun own => ⟨own.injective, fun h => Nat.le_succ_of_le (own.registered h), ?_⟩,
    isAlive_register name⟩
  intro record member s hs
  have : record ∈ host.threads := by
    rcases List.mem_append.mp member with member | member
    · exact member
    · rw [List.mem_singleton.mp member] at hs
      cases hs
  exact own.home record this s hs

theorem record?_updateThread (host : Host) (thread other : Thread) (f : ThreadRecord → ThreadRecord)
    (hf : ∀ record, (f record).thread = record.thread) :
    (host.updateThread thread f).record? other =
      (host.record? other).map fun record => if record.thread = thread then f record else record := by
  have same : ((fun record : ThreadRecord => record.thread == other) ∘
      fun record => if record.thread = thread then f record else record) =
        fun record => record.thread == other := by
    funext record
    simp only [Function.comp_apply]
    split
    · rw [hf]
    · rfl
  simp only [record?, updateThread, List.find?_map, same]

theorem isAlive_updateThread (host : Host) (thread other : Thread) (f : ThreadRecord → ThreadRecord)
    (hf : ∀ record, (f record).thread = record.thread)
    (kept : ∀ record, host.record? other = some record → record.thread = thread →
      (f record).alive = record.alive) :
    (host.updateThread thread f).isAlive other = host.isAlive other := by
  simp only [isAlive, host.record?_updateThread thread other f hf]
  cases found : host.record? other with
  | none => rfl
  | some record =>
      simp only [Option.map_some]
      split
      · next same => exact kept record found same
      · rfl

theorem isAlive_bind (host : Host) (system : Nat) (thread other : Thread) :
    (host.bind system thread).isAlive other = host.isAlive other :=
  host.isAlive_updateThread thread other (fun record => { record with systemThread := some system })
    (fun _ => rfl) fun _ _ _ => rfl

theorem currentThread_of_bound {host : Host} {system : Nat} {thread : Thread}
    (h : host.boundTo? system = some thread) : host.currentThread system = (thread, host) := by
  rw [boundTo?] at h
  simp only [currentThread, h]

theorem boundTo?_currentThread (host : Host) (system : Nat) :
    (host.currentThread system).2.boundTo? system = some (host.currentThread system).1 := by
  simp only [currentThread]
  split
  · next thread h => exact h
  · simp only [boundTo?_bind, if_true]

theorem grows_currentThread (host : Host) (system : Nat) :
    host.Grows (host.currentThread system).2 := by
  simp only [currentThread]
  split
  · exact .refl host
  · next free =>
      have registered := grows_register host host.selfRegisteredName
      refine ⟨fun {s t} h => ?_, fun own => ?_, fun alive => ?_⟩
      · rw [boundTo?_bind]
        split
        · next same =>
            rw [same, boundTo?, free] at h
            cases h
        · exact registered.bound h
      · refine ownThreads_bind (registered.own own) free (fun s h => ?_) (Nat.le_refl _)
        have old : (host.register host.selfRegisteredName).1.id ≤ host.threadCount := own.registered h
        exact absurd old (Nat.not_succ_le_self _)
      · rw [isAlive_bind]
        exact registered.alive alive

def Met (system : Nat) (before after : Host) : Prop :=
  after = before ∨ after = (before.currentThread system).2

namespace Met

variable {system : Nat} {a b c : Host}

theorem refl (system : Nat) (host : Host) : host.Met system host := .inl rfl

theorem trans (ab : a.Met system b) (bc : b.Met system c) : a.Met system c := by
  rcases bc with h | h
  · rw [h]
    exact ab
  · right
    rcases ab with h' | h'
    · rw [h, h']
    · rw [h, h', currentThread_of_bound (boundTo?_currentThread _ _)]

theorem grows (h : a.Met system b) : a.Grows b := by
  rcases h with h | h
  · rw [h]
    exact .refl a
  · rw [h]
    exact grows_currentThread a system

theorem eq_of_bound (h : a.Met system b) {thread : Thread} (bound : a.boundTo? system = some thread) :
    b = a := by
  rcases h with h | h
  · exact h
  · rw [h, currentThread_of_bound bound]

end Met

theorem sameThreads_enterScope {host : Host} {system : Nat} {thread : Thread}
    (bound : host.boundTo? system = some thread) (scope : Scope) :
    host.SameThreads (host.enterScope system scope) := by
  simp only [enterScope, currentThread_of_bound bound]
  exact sameThreads_updateThread _ _ (fun record => { record with scope }) fun _ => ⟨rfl, rfl, rfl⟩

/-! ## Exit -/

theorem mem_of_record? {host : Host} {thread : Thread} {record : ThreadRecord}
    (h : host.record? thread = some record) : record ∈ host.threads ∧ record.thread = thread :=
  ⟨List.mem_of_find?_eq_some h, by simpa using List.find?_some h⟩

theorem boundTo?_exitThread {host : Host} (own : host.OwnThreads) {system other : Nat}
    {thread : Thread} (h : host.boundTo? system = some thread) (ne : other ≠ system) :
    (host.exitThread thread).boundTo? other = host.boundTo? other := by
  simp only [exitThread]
  split
  · rfl
  · next record found =>
      obtain ⟨member, same⟩ := mem_of_record? found
      split
      · next s hs =>
          have : s = system := own.injective (same ▸ own.home record member s hs) h
          simp [boundTo?, updateThread, lookup_filter_ne, this, ne]
      · rfl

theorem boundTo?_exitThread_le {host : Host} {thread : Thread} {s : Nat} {t : Thread}
    (h : (host.exitThread thread).boundTo? s = some t) : host.boundTo? s = some t := by
  revert h
  simp only [exitThread]
  split
  · exact id
  · split
    · next k _ =>
        simp only [boundTo?, updateThread, lookup_filter_ne]
        split
        · simp
        · exact id
    · exact id

theorem isAlive_exitThread_ne (host : Host) {thread other : Thread} (ne : other ≠ thread) :
    (host.exitThread thread).isAlive other = host.isAlive other := by
  have updated : (host.updateThread thread fun record =>
      { record with alive := false, systemThread := none }).isAlive other = host.isAlive other := by
    refine host.isAlive_updateThread thread other _ (fun _ => rfl) fun record found same => ?_
    exact absurd ((mem_of_record? found).2.symm.trans same) ne
  simp only [exitThread]
  split
  · rfl
  · split <;> exact updated

theorem threadCount_exitThread (host : Host) (thread : Thread) :
    (host.exitThread thread).threadCount = host.threadCount := by
  simp only [exitThread]
  split
  · rfl
  · split <;> rfl

theorem ownThreads_exitThread {host : Host} (own : host.OwnThreads) {system : Nat}
    {thread : Thread} (h : host.boundTo? system = some thread) :
    (host.exitThread thread).OwnThreads := by
  have count := host.threadCount_exitThread thread
  refine ⟨fun hs hs' => own.injective (boundTo?_exitThread_le hs) (boundTo?_exitThread_le hs'),
    fun hs => count ▸ own.registered (boundTo?_exitThread_le hs), ?_⟩
  intro record member s hs
  have old : record ∈ host.threads ∧ (record.thread = thread → host.record? thread = none) := by
    revert member
    simp only [exitThread]
    split
    · next none => exact fun member => ⟨member, fun _ => none⟩
    · split
      all_goals
        simp only [updateThread, List.mem_map]
        rintro ⟨old, oldMember, rfl⟩
        split at hs
        · cases hs
        · next other => simp only [other, if_false, oldMember, false_implies, and_self]
  have home := own.home record old.1 s hs
  by_cases hne : s = system
  · -- the record is that of the exiting thread, which therefore has no record
    rw [hne, h, Option.some.injEq] at home
    have unknown := old.2 home.symm
    have same : host.exitThread thread = host := by simp only [exitThread, unknown]
    rw [same, hne, h, home]
  · rw [boundTo?_exitThread own h hne]
    exact home

end EventDebugger.Host
