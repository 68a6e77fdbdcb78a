import EventDebugger.Proofs.Host.Binding

/-!
# The list of threads

A host gives every thread a record, and a number that no thread had before. Whatever becomes of a host, a
thread that exited does not come back to life.

* `Host.continues_currentThread`, `Host.continues_exitThread`, `Host.SameThreads.continues`: what becomes of
  hosts.
-/

namespace EventDebugger.Host

/-- Each thread has one record, and a number that was given out. -/
structure Listed (host : Host) : Prop where
  nodup : (host.threads.map (·.thread)).Nodup
  counted : ∀ thread ∈ host.threads.map (·.thread), thread.id ≤ host.threadCount

theorem listed_initial : initial.Listed := ⟨List.nodup_nil, fun _ member => by cases member⟩

theorem record?_of_mem {host : Host} (listed : host.Listed) {record : ThreadRecord} (member : record ∈ host.threads) :
    host.record? record.thread = some record := by
  have nodup := listed.nodup
  rw [record?]
  generalize host.threads = threads at member nodup
  induction threads with
  | nil => cases member
  | cons first rest ih =>
      rw [List.map_cons, List.nodup_cons] at nodup
      rcases List.mem_cons.mp member with rfl | later
      · simp only [List.find?_cons, beq_self_eq_true]
      · have ne : (first.thread == record.thread) = false := by
          rw [beq_eq_false_iff_ne]
          intro same
          exact nodup.1 (same ▸ List.mem_map_of_mem later)
        simp only [List.find?_cons, ne]
        exact ih later nodup.2

theorem isAlive_of_mem_liveThreads {host : Host} (listed : host.Listed) {thread : Thread}
    (member : thread ∈ host.liveThreads) : host.isAlive thread := by
  obtain ⟨record, live, rfl⟩ := List.mem_map.mp member
  obtain ⟨listedRecord, alive⟩ := List.mem_filter.mp live
  simp only [isAlive, record?_of_mem listed listedRecord]
  exact alive

theorem counted_of_isAlive {host : Host} (listed : host.Listed) {thread : Thread} (alive : host.isAlive thread) :
    thread.id ≤ host.threadCount := by
  simp only [isAlive] at alive
  split at alive
  · next record found =>
      obtain ⟨member, rfl⟩ := mem_of_record? found
      exact listed.counted _ (List.mem_map_of_mem member)
  · cases alive

structure Continues (before after : Host) : Prop where
  count : before.threadCount ≤ after.threadCount
  listed : before.Listed → after.Listed
  alive : ∀ {thread : Thread}, thread.id ≤ before.threadCount → after.isAlive thread → before.isAlive thread

theorem Continues.refl (host : Host) : host.Continues host := ⟨Nat.le_refl _, id, fun _ alive => alive⟩

theorem Continues.trans {a b c : Host} (first : a.Continues b) (second : b.Continues c) : a.Continues c where
  count := Nat.le_trans first.count second.count
  listed listed := second.listed (first.listed listed)
  alive known alive := first.alive known (second.alive (Nat.le_trans known first.count) alive)

theorem listed_of_same {host host' : Host} (threads : host'.threads.map (·.thread) = host.threads.map (·.thread))
    (count : host'.threadCount = host.threadCount) (listed : host.Listed) : host'.Listed := by
  refine ⟨?_, ?_⟩
  · rw [threads]
    exact listed.nodup
  · rw [threads, count]
    exact listed.counted

theorem threads_updateThread (host : Host) (thread : Thread) (f : ThreadRecord → ThreadRecord)
    (hf : ∀ record, (f record).thread = record.thread) :
    (host.updateThread thread f).threads.map (·.thread) = host.threads.map (·.thread) := by
  simp only [updateThread, List.map_map]
  refine List.map_congr_left fun record _ => ?_
  simp only [Function.comp_apply]
  split
  · exact hf record
  · rfl

theorem SameThreads.continues {before after : Host} (h : before.SameThreads after) : before.Continues after := by
  have threads (host : Host) : host.threads.map (·.thread) = host.identities.map (·.1) := by
    rw [Host.identities, List.map_map]
    rfl
  refine ⟨Nat.le_of_eq h.count.symm, listed_of_same ?_ h.count, fun _ alive => ?_⟩
  · rw [threads, h.identities, threads]
  · rw [← h.isAlive_eq]
    exact alive

theorem continues_register (host : Host) (name : String) : host.Continues (host.register name).2 := by
  refine ⟨Nat.le_succ _, fun listed => ⟨?_, ?_⟩, fun {thread} known alive => ?_⟩
  · simp only [register, List.map_append, List.map_cons, List.map_nil]
    refine List.nodup_append.mpr ⟨listed.nodup, List.pairwise_singleton _ _, fun thread member other new => ?_⟩
    rw [List.mem_singleton.mp new]
    rintro rfl
    exact absurd (listed.counted _ member) (Nat.not_succ_le_self _)
  · simp only [register, List.map_append, List.map_cons, List.map_nil]
    intro thread member
    rcases List.mem_append.mp member with older | new
    · exact Nat.le_succ_of_le (listed.counted thread older)
    · obtain rfl := List.mem_singleton.mp new
      exact Nat.le_refl _
  · have other : (host.register name).2.record? thread = host.record? thread := by
      have ne : ((⟨host.threadCount + 1, name⟩ : Thread) == thread) = false := by
        rw [beq_eq_false_iff_ne]
        rintro rfl
        exact absurd known (Nat.not_succ_le_self _)
      simp only [record?, register, List.find?_append, List.find?_cons, ne, List.find?_nil, Option.or_none]
    rw [isAlive, other] at alive
    exact alive

theorem isAlive_register_new {host : Host} (listed : host.Listed) (name : String) :
    (host.register name).2.isAlive (host.register name).1 := by
  have later := (continues_register host name).listed listed
  have member : (⟨(host.register name).1, none, .running, true, false, host.scopes.enterMethod.1⟩ : ThreadRecord) ∈
      (host.register name).2.threads := List.mem_append_right _ (List.mem_singleton_self _)
  rw [isAlive, record?_of_mem later member]

theorem continues_bind (host : Host) (system : Nat) (thread : Thread) : host.Continues (host.bind system thread) := by
  refine ⟨Nat.le_refl _, listed_of_same ?_ rfl, fun _ alive => ?_⟩
  · exact threads_updateThread host thread (fun record => { record with systemThread := some system }) fun _ => rfl
  · rw [← host.isAlive_bind system thread]
    exact alive

theorem continues_currentThread (host : Host) (system : Nat) : host.Continues (host.currentThread system).2 := by
  simp only [currentThread]
  split
  · exact .refl host
  · exact (continues_register host _).trans (continues_bind _ _ _)

theorem Met.continues {system : Nat} {a b : Host} (h : a.Met system b) : a.Continues b := by
  rcases h with rfl | rfl
  · exact .refl _
  · exact continues_currentThread _ _

theorem continues_exitThread (host : Host) (thread : Thread) : host.Continues (host.exitThread thread) := by
  refine ⟨Nat.le_of_eq (host.threadCount_exitThread thread).symm,
    listed_of_same ?_ (host.threadCount_exitThread thread), fun {other} _ alive => ?_⟩
  · simp only [exitThread]
    split
    · rfl
    · split
      all_goals
        exact threads_updateThread host thread (fun record => { record with alive := false, systemThread := none })
          fun _ => rfl
  · by_cases same : other = thread
    · subst same
      simp only [exitThread] at alive
      split at alive
      · exact alive
      · next record found =>
          have exited : (host.updateThread other fun record =>
              { record with alive := false, systemThread := none }).isAlive other = false := by
            have updated := host.record?_updateThread other other
              (fun record => { record with alive := false, systemThread := none }) fun _ => rfl
            rw [found, Option.map_some, if_pos (mem_of_record? found).2] at updated
            simp only [isAlive, updated]
          split at alive
          · exact absurd alive (ne_true_of_eq_false exited)
          · exact absurd alive (ne_true_of_eq_false exited)
    · rw [← host.isAlive_exitThread_ne same]
      exact alive

end EventDebugger.Host
