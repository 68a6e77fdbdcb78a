import EventDebugger.Proofs.Histories
import EventDebugger.Proofs.Host.Journal

/-!
# Hosts that others use

While a thread of a program runs, its host is used by the other threads, by the front-end and by code
that has nothing to do with the program. These register threads, end them, ask for their own and bind
others, but they bind no thread of the program. A thread of the program then stays where it is: what
runs it is the system thread it was bound to last, and once it has exited nothing brings it back.

* `Drifts.seated`, `Drifts.over`: what is kept of a thread of the program.
-/

namespace EventDebugger.Host

def seat? (host : Host) (thread : Thread) : Option Nat := (host.record? thread).bind (·.systemThread)

/-- An operation of others. They may do what they like to threads, but they do not bind those of the
program, nor the system threads that run one of these. -/
inductive Uses (own : Thread → Prop) : Host → Host → Prop where
  | register (host : Host) (name : String) : Uses own host (host.register name).2
  | bind {host : Host} {system : Nat} {thread : Thread} (known : thread.id ≤ host.threadCount)
      (other : ¬ own thread) (clear : ∀ running, host.boundTo? system = some running → ¬ own running) :
      Uses own host (host.bind system thread)
  | exit (host : Host) (thread : Thread) : Uses own host (host.exitThread thread)
  | current (host : Host) (system : Nat) : Uses own host (host.currentThread system).2
  | execute {host host' : Host} (same : host.SameThreads host') : Uses own host host'

abbrev Drifts (own : Thread → Prop) : Host → Host → Prop := Relation.ReflTransGen (Uses own)

def Unbound (host : Host) (thread : Thread) : Prop := ∀ s, host.boundTo? s ≠ some thread

def Seated (host : Host) (thread : Thread) (seat : Nat) : Prop :=
  ∀ s, host.boundTo? s = some thread → s = seat ∧ host.seat? thread = some seat

structure Over (host : Host) (thread : Thread) : Prop where
  dead : host.isAlive thread = false
  unbound : host.Unbound thread

variable {own : Thread → Prop} {a b c host : Host} {thread : Thread} {seat : Nat}

theorem Unbound.seated (h : host.Unbound thread) (seat : Nat) : host.Seated thread seat :=
  fun s bound => absurd bound (h s)

theorem Over.currentThread_ne (h : host.Over thread) (known : thread.id ≤ host.threadCount)
    (system : Nat) : (host.currentThread system).1 ≠ thread :=
  Host.currentThread_ne known (h.unbound system)

/-! ## The seats of threads -/

theorem seat?_eq (host : Host) (thread : Thread) :
    host.seat? thread =
      (host.identities.find? fun identity => identity.1 == thread).bind (·.2.1) := by
  rw [identities, List.find?_map, seat?, record?]
  change _ = Option.bind (Option.map _ (host.threads.find? fun record => record.thread == thread)) _
  cases host.threads.find? fun record => record.thread == thread <;> rfl

theorem SameThreads.seat?_eq (h : b.SameThreads c) (thread : Thread) :
    c.seat? thread = b.seat? thread := by
  rw [Host.seat?_eq, h.identities, ← Host.seat?_eq]

theorem seat?_register (listed : host.Listed) (known : thread.id ≤ host.threadCount) (name : String) :
    (host.register name).2.seat? thread = host.seat? thread := by
  have ne : thread ≠ (host.register name).1 := by
    rintro rfl
    exact absurd known (Nat.not_succ_le_self _)
  rw [seat?, record?_register listed, if_neg ne, seat?]

theorem seat?_bind_self (recorded : (host.record? thread).isSome) (system : Nat) :
    (host.bind system thread).seat? thread = some system := by
  obtain ⟨record, found⟩ := Option.isSome_iff_exists.mp recorded
  obtain ⟨-, same⟩ := mem_of_record? found
  rw [seat?, record?_bind, found, Option.map_some, if_pos same]
  rfl

theorem seat?_bind_ne {other : Thread} (ne : thread ≠ other) (system : Nat) :
    (host.bind system other).seat? thread = host.seat? thread := by
  rw [seat?, record?_bind, seat?]
  cases found : host.record? thread with
  | none => rfl
  | some record =>
      have apart : record.thread ≠ other := (mem_of_record? found).2 ▸ ne
      rw [Option.map_some, if_neg apart]

theorem seat?_exitThread_ne {other : Thread} (ne : thread ≠ other) :
    (host.exitThread other).seat? thread = host.seat? thread := by
  rw [seat?, record?_exitThread, seat?]
  cases found : host.record? thread with
  | none => rfl
  | some record =>
      have apart : record.thread ≠ other := (mem_of_record? found).2 ▸ ne
      rw [Option.map_some, if_neg apart]

theorem boundTo?_exitThread_eq (host : Host) (thread : Thread) (system : Nat) :
    (host.exitThread thread).boundTo? system =
      if host.seat? thread = some system then none else host.boundTo? system := by
  cases found : host.record? thread with
  | none => simp only [exitThread, seat?, found, Option.bind_none, reduceCtorEq, if_false]
  | some record =>
      rw [boundTo?_exitThread_of_record found, seat?, found, Option.bind_some]

theorem isAlive_exitThread_self (host : Host) (thread : Thread) :
    (host.exitThread thread).isAlive thread = false := by
  rw [isAlive, record?_exitThread]
  cases found : host.record? thread with
  | none => rfl
  | some record =>
      rw [Option.map_some, if_pos (mem_of_record? found).2]

theorem Seated.exit (h : host.Seated thread seat) : (host.exitThread thread).Over thread := by
  refine ⟨isAlive_exitThread_self host thread, fun s bound => ?_⟩
  rw [boundTo?_exitThread_eq] at bound
  split at bound
  · cases bound
  · next elsewhere =>
      obtain ⟨rfl, here⟩ := h s bound
      exact elsewhere here

/-! ## What others leave alone -/

theorem Uses.operates (uses : Uses own a b) : a.Operates b := by
  cases uses with
  | register name => exact .register a name
  | bind known _ _ => exact .bind _ known
  | exit thread => exact .exit a thread
  | current system => exact .current a system
  | execute same => exact .execute same

theorem Met.drifts {system : Nat} (met : a.Met system b) : Drifts own a b := by
  rcases met with rfl | rfl
  · exact .refl
  · exact .single (.current a system)

theorem SameThreads.drifts (same : a.SameThreads b) : Drifts own a b := .single (.execute same)

theorem drifts_enterScope (host : Host) (system : Nat) (scope : Scope) :
    Drifts own host (host.enterScope system scope) := by
  have same := (host.currentThread system).2.sameThreads_updateThread (host.currentThread system).1
    (fun record => { record with scope }) fun _ => ⟨rfl, rfl, rfl⟩
  exact .tail (.single (.current host system)) (.execute same)

theorem Drifts.continues (drifts : Drifts own a b) : a.Continues b := by
  induction drifts with
  | refl => exact .refl a
  | tail _ uses ih => exact ih.trans uses.operates.continues

theorem Drifts.registered (drifts : Drifts own a b) (registered : a.Registered) : b.Registered := by
  induction drifts with
  | refl => exact registered
  | tail _ uses ih => exact uses.operates.registered ih

theorem Drifts.keeps {P : Host → Prop} (drifts : Drifts own a b) (listed : a.Listed)
    (known : thread.id ≤ a.threadCount) (mine : own thread)
    (register : ∀ {x : Host} name, x.Listed → thread.id ≤ x.threadCount → P x → P (x.register name).2)
    (bind : ∀ {x : Host} {system other}, thread ≠ other → x.boundTo? system ≠ some thread → P x →
      P (x.bind system other))
    (exit : ∀ {x : Host} other, P x → P (x.exitThread other))
    (execute : ∀ {x y : Host}, x.SameThreads y → P x → P y) (start : P a) : P b := by
  induction drifts with
  | refl => exact start
  | @tail x y before uses ih =>
      have later : a.Continues x := Drifts.continues before
      have known' := Nat.le_trans known later.count
      cases uses with
      | register name => exact register name (later.listed listed) known' ih
      | bind _ other clear =>
          refine bind ?_ (fun runs => clear _ runs mine) ih
          rintro rfl
          exact other mine
      | exit other => exact exit other ih
      | execute same => exact execute same ih
      | current system =>
          cases found : x.boundTo? system with
          | some running => rwa [currentThread_of_bound found]
          | none =>
              have new : thread ≠ (x.register x.selfRegisteredName).1 := by
                rintro rfl
                exact absurd known' (Nat.not_succ_le_self _)
              have registered := register x.selfRegisteredName (later.listed listed) known' ih
              have free : (x.register x.selfRegisteredName).2.boundTo? system ≠ some thread := by
                rw [boundTo?_register, found]
                nofun
              rw [boundTo?] at found
              simp only [currentThread, found]
              exact bind new free registered

theorem Drifts.unbound (drifts : Drifts own a b) (listed : a.Listed) (known : thread.id ≤ a.threadCount)
    (mine : own thread) (unbound : a.Unbound thread) : b.Unbound thread := by
  refine drifts.keeps (P := (·.Unbound thread)) listed known mine ?_ ?_ ?_ ?_ unbound
  · intro x name _ _ unbound s
    rw [boundTo?_register]
    exact unbound s
  · intro x system other ne _ unbound s
    rw [boundTo?_bind]
    split
    · exact fun same => ne (Option.some.inj same).symm
    · exact unbound s
  · intro x other unbound s bound
    exact unbound s (boundTo?_exitThread_le bound)
  · intro x y same unbound s
    rw [same.boundTo?_eq]
    exact unbound s

theorem Drifts.seated (drifts : Drifts own a b) (listed : a.Listed) (known : thread.id ≤ a.threadCount)
    (mine : own thread) (seated : a.Seated thread seat) : b.Seated thread seat := by
  refine drifts.keeps (P := (·.Seated thread seat)) listed known mine ?_ ?_ ?_ ?_ seated
  · intro x name listed known seated s bound
    rw [seat?_register listed known]
    exact seated s bound
  · intro x system other ne _ seated s bound
    rw [boundTo?_bind] at bound
    split at bound
    · exact absurd (Option.some.inj bound).symm ne
    · rw [seat?_bind_ne ne]
      exact seated s bound
  · intro x other seated s bound
    by_cases same : thread = other
    · subst same
      exact absurd bound (seated.exit.unbound s)
    · rw [seat?_exitThread_ne same]
      exact seated s (boundTo?_exitThread_le bound)
  · intro x y same seated s bound
    rw [same.boundTo?_eq] at bound
    rw [same.seat?_eq]
    exact seated s bound

theorem isSome_record? (host : Host) (thread : Thread) : (host.record? thread).isSome =
    (host.identities.find? fun identity => identity.1 == thread).isSome := by
  rw [identities, List.find?_map, Option.isSome_map]
  rfl

theorem Drifts.recorded (drifts : Drifts own a b) (listed : a.Listed) (known : thread.id ≤ a.threadCount)
    (mine : own thread) (recorded : (a.record? thread).isSome) : (b.record? thread).isSome := by
  refine drifts.keeps (P := fun x => (x.record? thread).isSome) listed known mine ?_ ?_ ?_ ?_ recorded
  · intro x name listed known recorded
    rw [record?_register listed]
    split
    · rfl
    · exact recorded
  · intro x system other _ _ recorded
    rw [record?_bind, Option.isSome_map]
    exact recorded
  · intro x other recorded
    rw [record?_exitThread, Option.isSome_map]
    exact recorded
  · intro x y same recorded
    rw [isSome_record?, same.identities, ← isSome_record?]
    exact recorded

theorem Drifts.over (drifts : Drifts own a b) (listed : a.Listed) (known : thread.id ≤ a.threadCount)
    (mine : own thread) (exited : a.Over thread) : b.Over thread := by
  refine ⟨?_, drifts.unbound listed known mine exited.unbound⟩
  refine Bool.eq_false_iff.mpr fun alive => ?_
  exact absurd (drifts.continues.alive known alive) (Bool.eq_false_iff.mp exited.dead)

end EventDebugger.Host
