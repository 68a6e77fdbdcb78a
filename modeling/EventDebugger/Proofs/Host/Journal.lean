import EventDebugger.Proofs.Host.Listing

/-!
# A journal of bindings

Which thread a system thread runs, told from the bindings and the exits so far. A thread remembers the
system thread it was bound to last, and gives that one back when it exits, whatever it runs by then.
So the thread that a system thread was bound to last is the one it runs as long as a thread that exits
was bound last to the one system thread that runs it.

* `boundTo?_of_journal`: the thread of a system thread after any sequence of calls.
* `currentThread_of_orderly`: last bindings hold until the exit, and the exit ends no other.
-/

namespace EventDebugger.Host

/-- What a call does to the bindings. -/
inductive Deed where
  | bound (system : Nat) (thread : Thread)
  | exited (thread : Thread)
deriving DecidableEq, Repr

def Deed.thread : Deed → Thread
  | .bound _ thread | .exited thread => thread

/-- The binding of a system thread that registers itself when it asks for its thread. -/
def selfBinding (host : Host) (system : Nat) : List Deed :=
  match host.boundTo? system with
  | some _ => []
  | none => [.bound system (host.currentThread system).1]

/-- A host that system threads have called in any order, with the bindings and the exits so far, the
latest first. -/
inductive Journal : List Deed → Host → Prop
  | initial : Journal [] initial
  | spawn {log host} (before : Journal log host) (name : String) : Journal log (host.register name).2
  | bind {log host} (before : Journal log host) (system : Nat) (thread : Thread)
      (known : (host.record? thread).isSome) :
      Journal (.bound system thread :: log) (host.bind system thread)
  | exit {log host} (before : Journal log host) (thread : Thread)
      (known : (host.record? thread).isSome) : Journal (.exited thread :: log) (host.exitThread thread)
  | ask {log host} (before : Journal log host) (system : Nat) :
      Journal (host.selfBinding system ++ log) (host.currentThread system).2

/-- The system thread that a thread was bound to last since it exited. -/
def place (thread : Thread) : List Deed → Option Nat
  | [] => none
  | .bound system t :: log => if t = thread then some system else place thread log
  | .exited t :: log => if t = thread then none else place thread log

/-- The thread that a system thread was bound to last, unless it has exited since. -/
def tenant (system : Nat) : List Deed → Option Thread
  | [] => none
  | .bound s thread :: log => if s = system then some thread else tenant system log
  | .exited thread :: log => if tenant system log = some thread then none else tenant system log

def occupant (system : Nat) : List Deed → Option Thread
  | [] => none
  | .bound s thread :: log => if s = system then some thread else occupant system log
  | .exited thread :: log => if place thread log = some system then none else occupant system log

/-- Every thread that exits was bound last to the system thread that runs it, and runs on no other. -/
def Orderly : List Deed → Prop
  | [] => True
  | .bound _ _ :: log => Orderly log
  | .exited thread :: log =>
      (∀ system, tenant system log = some thread ↔ place thread log = some system) ∧ Orderly log

/-! ## What the calls do to the records -/

theorem record?_register {host : Host} (listed : host.Listed) (name : String) (thread : Thread) :
    (host.register name).2.record? thread =
      if thread = (host.register name).1 then
        some ⟨thread, none, .running, true, false, host.scopes.enterMethod.1⟩
      else host.record? thread := by
  split
  · next same =>
      have later := (continues_register host name).listed listed
      have member : (⟨thread, none, .running, true, false, host.scopes.enterMethod.1⟩ : ThreadRecord) ∈
          (host.register name).2.threads := by
        rw [same]
        exact List.mem_append_right _ (List.mem_singleton_self _)
      exact record?_of_mem later member
  · next other =>
      have ne : ((host.register name).1 == thread) = false := beq_eq_false_iff_ne.mpr (Ne.symm other)
      simp only [record?, register, List.find?_append] at ne ⊢
      simp only [List.find?_cons, ne, List.find?_nil, Option.or_none]

theorem record?_bind (host : Host) (system : Nat) (thread other : Thread) :
    (host.bind system thread).record? other =
      (host.record? other).map fun record =>
        if record.thread = thread then { record with systemThread := some system } else record :=
  host.record?_updateThread thread other (fun record => { record with systemThread := some system })
    fun _ => rfl

theorem record?_exitThread (host : Host) (thread other : Thread) :
    (host.exitThread thread).record? other =
      (host.record? other).map fun record =>
        if record.thread = thread then { record with alive := false, systemThread := none }
        else record := by
  have updated := host.record?_updateThread thread other
    (fun record => { record with alive := false, systemThread := none }) fun _ => rfl
  simp only [exitThread]
  split
  · next missing =>
      cases found : host.record? other with
      | none => rfl
      | some record =>
          have ne : record.thread ≠ thread := by
            rintro rfl
            rw [(mem_of_record? found).2, found] at missing
            cases missing
          simp only [Option.map_some, if_neg ne]
  · split <;> exact updated

theorem boundTo?_exitThread_of_record {host : Host} {thread : Thread} {record : ThreadRecord}
    (found : host.record? thread = some record) (system : Nat) :
    (host.exitThread thread).boundTo? system =
      if record.systemThread = some system then none else host.boundTo? system := by
  simp only [exitThread, found]
  cases record.systemThread with
  | none => simp [boundTo?, updateThread]
  | some s => simp [boundTo?, updateThread, lookup_filter_ne, eq_comm]

/-! ## The bindings of a journal -/

structure Kept (log : List Deed) (host : Host) : Prop where
  listed : host.Listed
  known : ∀ {deed}, deed ∈ log → deed.thread.id ≤ host.threadCount
  place : ∀ {thread record}, host.record? thread = some record → record.systemThread = place thread log
  occupant : ∀ system, host.boundTo? system = occupant system log

variable {log : List Deed} {host : Host}

theorem kept_initial : Kept [] initial := by
  refine ⟨listed_initial, ?_, ?_, fun _ => rfl⟩
  · intro deed member
    cases member
  · intro thread record found
    cases found

theorem place_of_unbound {thread : Thread} (unbound : ∀ system, Deed.bound system thread ∉ log) :
    Host.place thread log = none := by
  induction log with
  | nil => rfl
  | cons deed log ih =>
      have rest := ih fun system member => unbound system (List.mem_cons_of_mem _ member)
      cases deed with
      | bound s t =>
          have ne : t ≠ thread := by
            rintro rfl
            exact unbound s List.mem_cons_self
          simp only [Host.place, if_neg ne, rest]
      | exited t => simp only [Host.place, rest, ite_self]

theorem id_le_of_record? (listed : host.Listed) {thread : Thread}
    (known : (host.record? thread).isSome) : thread.id ≤ host.threadCount := by
  obtain ⟨record, found⟩ := Option.isSome_iff_exists.mp known
  obtain ⟨member, rfl⟩ := mem_of_record? found
  exact listed.counted _ (List.mem_map_of_mem member)

theorem Kept.spawn (kept : Kept log host) (name : String) : Kept log (host.register name).2 := by
  refine ⟨(continues_register host name).listed kept.listed,
    fun member => Nat.le_succ_of_le (kept.known member), ?_, kept.occupant⟩
  intro thread record found
  rw [record?_register kept.listed] at found
  split at found
  · next new =>
      cases found
      refine (place_of_unbound fun system member => ?_).symm
      have old : thread.id ≤ host.threadCount := kept.known member
      rw [new] at old
      exact absurd old (Nat.not_succ_le_self _)
  · exact kept.place found

theorem Kept.bind (kept : Kept log host) (system : Nat) {thread : Thread}
    (known : (host.record? thread).isSome) :
    Kept (.bound system thread :: log) (host.bind system thread) := by
  have later := continues_bind host system thread
  refine ⟨later.listed kept.listed, ?_, ?_, ?_⟩
  · intro deed member
    rcases List.mem_cons.mp member with rfl | older
    · exact id_le_of_record? kept.listed known
    · exact kept.known older
  · intro other record found
    rw [record?_bind, Option.map_eq_some_iff] at found
    obtain ⟨old, found, rfl⟩ := found
    obtain ⟨-, rfl⟩ := mem_of_record? found
    by_cases same : old.thread = thread
    · simp only [Host.place, same, if_true]
    · simp only [Host.place, if_neg same, if_neg (Ne.symm same), kept.place found]
  · intro other
    rw [boundTo?_bind, Host.occupant, kept.occupant]
    simp only [eq_comm]

theorem Kept.exit (kept : Kept log host) {thread : Thread} (known : (host.record? thread).isSome) :
    Kept (.exited thread :: log) (host.exitThread thread) := by
  refine ⟨(continues_exitThread host thread).listed kept.listed, ?_, ?_, ?_⟩
  · intro deed member
    rw [threadCount_exitThread]
    rcases List.mem_cons.mp member with rfl | older
    · exact id_le_of_record? kept.listed known
    · exact kept.known older
  · intro other record found
    rw [record?_exitThread, Option.map_eq_some_iff] at found
    obtain ⟨old, found, rfl⟩ := found
    obtain ⟨-, rfl⟩ := mem_of_record? found
    by_cases same : old.thread = thread
    · simp only [Host.place, same, if_true]
    · simp only [Host.place, if_neg same, if_neg (Ne.symm same), kept.place found]
  · intro system
    obtain ⟨record, found⟩ := Option.isSome_iff_exists.mp known
    rw [boundTo?_exitThread_of_record found, kept.place found, Host.occupant, kept.occupant]

theorem Kept.ask (kept : Kept log host) (system : Nat) :
    Kept (host.selfBinding system ++ log) (host.currentThread system).2 := by
  cases found : host.boundTo? system with
  | some thread => simpa only [selfBinding, found, currentThread_of_bound found, List.nil_append] using kept
  | none =>
      have known : ((host.register host.selfRegisteredName).2.record?
          (host.register host.selfRegisteredName).1).isSome := by
        rw [record?_register kept.listed, if_pos rfl]
        rfl
      have asked := (kept.spawn host.selfRegisteredName).bind system known
      have current : host.currentThread system = ((host.register host.selfRegisteredName).1,
          (host.register host.selfRegisteredName).2.bind system
            (host.register host.selfRegisteredName).1) := by
        rw [boundTo?] at found
        simp only [currentThread, found]
      simpa only [selfBinding, found, current, List.singleton_append] using asked

theorem kept_of_journal (journal : Journal log host) : Kept log host := by
  induction journal with
  | initial => exact kept_initial
  | spawn _ name ih => exact ih.spawn name
  | bind _ system _ known ih => exact ih.bind system known
  | exit _ _ known ih => exact ih.exit known
  | ask _ system ih => exact ih.ask system

theorem boundTo?_of_journal (journal : Journal log host) (system : Nat) :
    host.boundTo? system = occupant system log :=
  (kept_of_journal journal).occupant system

/-! ## Orderly exits -/

theorem occupant_of_orderly (orderly : Orderly log) (system : Nat) :
    occupant system log = tenant system log := by
  induction log with
  | nil => rfl
  | cons deed log ih =>
      cases deed with
      | bound s thread => simp only [occupant, tenant, ih orderly]
      | exited thread => simp only [occupant, tenant, ih orderly.2, orderly.1 system]

theorem tenant_of_last {system : Nat} {thread : Thread} {later earlier : List Deed}
    (last : ∀ other, Deed.bound system other ∉ later) (stays : Deed.exited thread ∉ later) :
    tenant system (later ++ .bound system thread :: earlier) = some thread := by
  induction later with
  | nil => simp only [List.nil_append, tenant, if_true]
  | cons deed later ih =>
      have rest := ih (fun other member => last other (List.mem_cons_of_mem _ member))
        fun member => stays (List.mem_cons_of_mem _ member)
      cases deed with
      | bound s t =>
          have ne : s ≠ system := by
            rintro rfl
            exact last t List.mem_cons_self
          simpa only [List.cons_append, tenant, if_neg ne] using rest
      | exited t =>
          have ne : some thread ≠ some t := by
            rintro ⟨⟩
            exact stays List.mem_cons_self
          simp only [List.cons_append, tenant, rest, if_neg ne]

theorem tenant_of_exited {thread : Thread} {later earlier : List Deed}
    (gone : ∀ system, Deed.bound system thread ∉ later) (system : Nat) :
    tenant system (later ++ .exited thread :: earlier) ≠ some thread := by
  induction later with
  | nil =>
      simp only [List.nil_append, tenant]
      split
      · nofun
      · assumption
  | cons deed later ih =>
      have rest := ih fun other member => gone other (List.mem_cons_of_mem _ member)
      cases deed with
      | bound s t =>
          simp only [List.cons_append, tenant]
          split
          · rintro ⟨⟩
            exact gone s List.mem_cons_self
          · exact rest
      | exited t =>
          simp only [List.cons_append, tenant]
          split
          · nofun
          · exact rest

theorem currentThread_ne {system : Nat} {thread : Thread} (known : thread.id ≤ host.threadCount)
    (away : host.boundTo? system ≠ some thread) : (host.currentThread system).1 ≠ thread := by
  cases found : host.boundTo? system with
  | some other =>
      rw [currentThread_of_bound found]
      rw [found] at away
      exact fun same => away (congrArg some same)
  | none =>
      rw [boundTo?] at found
      simp only [currentThread, found]
      rintro rfl
      exact absurd known (Nat.not_succ_le_self _)

/-- While threads exit where they run: a system thread runs the thread it was bound to last until that
thread exits; no system thread runs a thread that has exited, until it is bound again; and an exit
leaves the system threads of other threads alone. -/
theorem currentThread_of_orderly (journal : Journal log host) (orderly : Orderly log) :
    (∀ system thread later earlier, log = later ++ .bound system thread :: earlier →
      (∀ other, Deed.bound system other ∉ later) → Deed.exited thread ∉ later →
        host.currentThread system = (thread, host)) ∧
    (∀ thread later earlier, log = later ++ .exited thread :: earlier →
      (∀ system, Deed.bound system thread ∉ later) →
        ∀ system, (host.currentThread system).1 ≠ thread) ∧
    ∀ thread, (host.record? thread).isSome → Orderly (.exited thread :: log) →
      ∀ system other, host.boundTo? system = some other → other ≠ thread →
        (host.exitThread thread).currentThread system = (other, host.exitThread thread) := by
  have kept := kept_of_journal journal
  have bound (system : Nat) : host.boundTo? system = tenant system log :=
    (kept.occupant system).trans (occupant_of_orderly orderly system)
  refine ⟨?_, ?_, ?_⟩
  · rintro system thread later earlier rfl last stays
    exact currentThread_of_bound ((bound system).trans (tenant_of_last last stays))
  · rintro thread later earlier rfl gone system
    have member : Deed.exited thread ∈ later ++ .exited thread :: earlier := by simp
    refine currentThread_ne (kept.known member) ?_
    rw [bound]
    exact tenant_of_exited gone system
  · intro thread known orderly' system other runs ne
    refine currentThread_of_bound ?_
    rw [((kept.exit known).occupant system).trans (occupant_of_orderly orderly' system), tenant,
      ← bound, runs, if_neg fun same => ne (Option.some.inj same)]

def mainThread : Thread := ⟨1, "main"⟩

def hired : Host := (((initial.currentThread 0).2.register "worker").2).bind 1 ⟨2, "worker"⟩

theorem journal_hired : Journal [.bound 1 ⟨2, "worker"⟩, .bound 0 mainThread] hired :=
  (((Journal.initial.ask 0).spawn "worker").bind 1 ⟨2, "worker"⟩ (by decide))

theorem currentThread_of_hired :
    hired.currentThread 1 = (⟨2, "worker"⟩, hired) ∧
    (∀ system, ((hired.exitThread ⟨2, "worker"⟩).currentThread system).1 ≠ ⟨2, "worker"⟩) ∧
    (hired.exitThread ⟨2, "worker"⟩).currentThread 0 =
      (mainThread, hired.exitThread ⟨2, "worker"⟩) := by
  have known : (hired.record? ⟨2, "worker"⟩).isSome := by decide
  have orderly : Orderly [.exited ⟨2, "worker"⟩, .bound 1 ⟨2, "worker"⟩, .bound 0 mainThread] := by
    refine ⟨fun system => ?_, trivial⟩
    have ne : (⟨1, "main"⟩ : Thread) ≠ ⟨2, "worker"⟩ := by decide
    by_cases here : 1 = system <;> simp [tenant, place, mainThread, here, ne]
  obtain ⟨runs, -, others⟩ := currentThread_of_orderly journal_hired trivial
  obtain ⟨-, gone, -⟩ := currentThread_of_orderly (journal_hired.exit _ known) orderly
  exact ⟨runs 1 ⟨2, "worker"⟩ [] _ rfl nofun nofun, gone ⟨2, "worker"⟩ [] _ rfl nofun,
    others ⟨2, "worker"⟩ known orderly 0 mainThread rfl (by decide)⟩

def crew : Host := ((initial.register "a").2.register "b").2

theorem journal_crew : Journal [] crew := (Journal.initial.spawn "a").spawn "b"

/-- The exit of a thread takes its last place from the thread that runs there by then, and leaves the
places it had before to itself. -/
theorem bindings_go_astray :
    ¬ (∀ log host, Journal log host → ∀ system thread later earlier,
        log = later ++ .bound system thread :: earlier →
          (∀ other, Deed.bound system other ∉ later) → Deed.exited thread ∉ later →
            (host.currentThread system).1 = thread) ∧
    ¬ (∀ log host, Journal log host → ∀ thread later earlier,
        log = later ++ .exited thread :: earlier →
          (∀ system, Deed.bound system thread ∉ later) →
            ∀ system, (host.currentThread system).1 ≠ thread) := by
  constructor
  · intro lasting
    have rebound := ((journal_crew.bind 0 ⟨1, "a"⟩ (by decide)).bind 0 ⟨2, "b"⟩ (by decide)).exit
      ⟨1, "a"⟩ (by decide)
    have kept := lasting _ _ rebound 0 ⟨2, "b"⟩ [.exited ⟨1, "a"⟩] _ rfl (by simp) (by decide)
    exact absurd kept (by decide)
  · intro gone
    have moved := ((journal_crew.bind 0 ⟨1, "a"⟩ (by decide)).bind 1 ⟨1, "a"⟩ (by decide)).exit
      ⟨1, "a"⟩ (by decide)
    exact gone _ _ moved ⟨1, "a"⟩ [] _ rfl nofun 0 (by decide)

end EventDebugger.Host
