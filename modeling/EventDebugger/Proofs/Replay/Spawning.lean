import EventDebugger.Proofs.Replay.Simulation

/-!
# The threads of a program are spawned

Before the threads of a program start, all of them are registered, with system threads and numbers of
their own.

* `spawnThreads_spec`: what is known of the spawned threads.
* `Play.opening_spawned`: the threads of a program are about to be replayed.
-/

namespace EventDebugger

namespace Host

theorem declare_eq (host : Host) (program : Program) :
    host.declare program = { host with
      modules := (host.declare program).modules, parents := (host.declare program).parents } := by
  have types (decls : List TypeDecl) (host : Host) : decls.foldl declareType host =
      { host with modules := (decls.foldl declareType host).modules } := by
    induction decls generalizing host with
    | nil => rfl
    | cons decl decls ih =>
        have first : host.declareType decl = { host with modules := (host.declareType decl).modules } := by
          unfold declareType
          split <;> rfl
        rw [List.foldl_cons, ih]
        rw [first]
  have exceptions (decls : List ExceptionDecl) (host : Host) : decls.foldl declareException host =
      { host with parents := (decls.foldl declareException host).parents } := by
    induction decls generalizing host with
    | nil => rfl
    | cons decl decls ih =>
        rw [List.foldl_cons, ih]
        rfl
  unfold declare
  rw [exceptions, types]

structure Fresh (host : Host) (system : Nat) : Prop where
  own : host.OwnThreads
  registered : ∀ record ∈ host.threads, record.thread.id ≤ host.threadCount
  free : ∀ {s}, system ≤ s → host.boundTo? s = none

def spawn (host : Host) (decl : ThreadDecl) : Thread × Host :=
  let (thread, host) := host.register decl.name
  (thread, if decl.isDebugger then host.setDebuggerThread thread else host)

theorem sameThreads_spawn (host : Host) (decl : ThreadDecl) :
    (host.register decl.name).2.SameThreads (host.spawn decl).2 := by
  simp only [spawn]
  split
  · exact sameThreads_updateThread _ _ (fun record => { record with ofDebugger := true })
      fun _ => ⟨rfl, rfl, rfl⟩
  · exact .refl _

theorem threads_spawn {host : Host} (registered : ∀ record ∈ host.threads, record.thread.id ≤ host.threadCount)
    (decl : ThreadDecl) : ∀ record ∈ (host.spawn decl).2.threads, record.thread.id ≤ host.threadCount + 1 := by
  have appended : ∀ record ∈ (host.register decl.name).2.threads,
      record.thread.id ≤ host.threadCount + 1 := by
    intro record member
    rcases List.mem_append.mp member with old | new
    · exact Nat.le_succ_of_le (registered record old)
    · exact Nat.le_of_eq (congrArg (·.thread.id) (List.mem_singleton.mp new))
  simp only [spawn]
  split
  · intro record member
    obtain ⟨old, oldMember, rfl⟩ := List.mem_map.mp member
    have bounded := appended old oldMember
    split <;> exact bounded
  · exact appended

theorem isAlive_spawn {host : Host} (registered : ∀ record ∈ host.threads, record.thread.id ≤ host.threadCount)
    (decl : ThreadDecl) : (host.spawn decl).2.isAlive (host.spawn decl).1 := by
  rw [(host.sameThreads_spawn decl).isAlive_eq]
  have unknown : host.threads.find? (fun record => record.thread == (host.spawn decl).1) = none := by
    refine List.find?_eq_none.mpr fun record member same => ?_
    have known := registered record member
    rw [eq_of_beq same] at known
    exact absurd known (Nat.not_succ_le_self _)
  simp only [isAlive, record?, register, List.find?_append, unknown, Option.none_or]
  simp [spawn, register]

theorem Fresh.spawn {host : Host} {system : Nat} (h : host.Fresh system) (decl : ThreadDecl) :
    (host.spawn decl).2.Fresh (system + 1) := by
  have same := host.sameThreads_spawn decl
  refine ⟨same.grows.own ((host.grows_register decl.name).own h.own), ?_, fun {s} later => ?_⟩
  · rw [same.count]
    exact threads_spawn h.registered decl
  · rw [same.boundTo?_eq, boundTo?_register]
    exact h.free (Nat.le_of_succ_le later)

end Host

variable {σ ε : Type}

theorem spawnThreads_cons (system : Nat) (decl : ThreadDecl) (decls : List ThreadDecl) (d : Debugger)
    (state : σ) :
    (spawnThreads system (decl :: decls) : Run σ (List (ReplayThread ε))) (d, state) =
      let spawned := d.host.spawn decl
      let rest := (spawnThreads (system + 1) decls : Run σ (List (ReplayThread ε)))
        ({ d with host := spawned.2 }, state)
      (⟨spawned.1, system, decl.steps, .starting⟩ :: rest.1, rest.2) := rfl

theorem spawnThreads_single (system : Nat) (decl : ThreadDecl) :
    (spawnThreads system [decl] : Run σ (List (ReplayThread ε))) = Run.onDebugger fun d =>
      ([⟨(d.host.spawn decl).1, system, decl.steps, .starting⟩],
        { d with host := (d.host.spawn decl).2 }) := rfl

structure ReplayThread.Spawned (t : ReplayThread ε) (host : Host) (system count : Nat)
    (decls : List ThreadDecl) : Prop where
  later : system ≤ t.system
  /-- Numbers and system threads are given in the same order. -/
  inOrder : t.thread.id + system = t.system + count + 1
  registered : t.thread.id ≤ host.threadCount
  alive : host.isAlive t.thread
  steps : ∃ decl ∈ decls, t.steps = decl.steps

theorem spawnThreads_spec (system : Nat) (decls : List ThreadDecl) {d : Debugger}
    (fresh : d.host.Fresh system) (state : σ) :
    let spawned := (spawnThreads system decls : Run σ (List (ReplayThread ε))) (d, state)
    spawned.2.1 = { d with host := spawned.2.1.host } ∧ spawned.2.2 = state ∧
      d.host.Grows spawned.2.1.host ∧ d.host.threadCount ≤ spawned.2.1.host.threadCount ∧
      (∀ s, spawned.2.1.host.boundTo? s = d.host.boundTo? s) ∧
      ∀ t ∈ spawned.1, t.Spawned spawned.2.1.host system d.host.threadCount decls := by
  induction decls generalizing system d with
  | nil =>
      refine ⟨rfl, rfl, .refl _, Nat.le_refl _, fun _ => rfl, fun t member => ?_⟩
      cases member
  | cons decl decls ih =>
      have same := d.host.sameThreads_spawn decl
      have count : (d.host.spawn decl).2.threadCount = d.host.threadCount + 1 := same.count
      have later := ih (system + 1) (d := { d with host := (d.host.spawn decl).2 }) (fresh.spawn decl)
      rw [spawnThreads_cons]
      obtain ⟨rest, state', grows, counts, bound, spawned⟩ := later
      refine ⟨rest, state', ?_, ?_, fun s => ?_, List.forall_mem_cons.mpr ⟨?_, fun t member => ?_⟩⟩
      · exact ((d.host.grows_register decl.name).trans same.grows).trans grows
      · exact Nat.le_trans (Nat.le_of_eq count.symm |> Nat.le_trans (Nat.le_succ _)) counts
      · rw [bound, same.boundTo?_eq, Host.boundTo?_register]
      · refine ⟨Nat.le_refl _, ?_, ?_, grows.alive (Host.isAlive_spawn fresh.registered decl), decl,
          List.mem_cons_self, rfl⟩
        · change d.host.threadCount + 1 + system = system + d.host.threadCount + 1
          omega
        · exact Nat.le_trans (Nat.le_of_eq count.symm) counts
      · obtain ⟨from_, inOrder, registered, alive, other, otherMember, steps⟩ := spawned t member
        refine ⟨Nat.le_of_succ_le from_, ?_, registered, alive, other, List.mem_cons_of_mem _ otherMember,
          steps⟩
        change t.thread.id + (system + 1) = t.system + (d.host.spawn decl).2.threadCount + 1 at inOrder
        omega

namespace Play

def ofThreads (d : Debugger) (threads : List (ReplayThread ε)) : Play where
  world := ⟨d, fun _ => [], 1⟩
  actors s := (threads.find? fun t => t.system == s).map fun t => ⟨t.thread, t.steps, false, .starting⟩

theorem mem_of_actors {d : Debugger} {threads : List (ReplayThread ε)} {s : Nat} {actor : Actor}
    (is : (ofThreads d threads).actors s = some actor) :
    ∃ t ∈ threads, t.system = s ∧ actor = ⟨t.thread, t.steps, false, .starting⟩ := by
  obtain ⟨t, found, same⟩ := Option.map_eq_some_iff.mp is
  exact ⟨t, List.mem_of_find?_eq_some found, by simpa using List.find?_some found, same.symm⟩

theorem opening_spawned {d d' : Debugger} {system : Nat} {decls : List ThreadDecl} {state : σ}
    {threads : List (ReplayThread ε)} {registered : Debugger × σ}
    (idle : d.ticket = some (none, [])) (well : d.WellTracked) (fresh : d.host.Fresh system)
    (tracked : ∀ {thread id}, d.contextOf? thread = some id → thread.id ≤ d.host.threadCount)
    (plain : ∀ decl ∈ decls, Step.allPlain decl.steps)
    (spawned : spawnThreads system decls (d, state) = (threads, registered))
    (host : d'.host = registered.1.host) (ticket : d'.ticket = registered.1.ticket)
    (prepared : Debugger.Tracks registered.1 d') : (ofThreads d' threads).Opening := by
  have spec := spawnThreads_spec (ε := ε) system decls fresh state
  rw [spawned] at spec
  obtain ⟨rest, _, grows, counts, bound, known⟩ := spec
  have well' : registered.1.WellTracked := by
    rw [rest]
    exact World.wellTracked_host well _
  refine ⟨⟨fun _ => rfl, ?_, ?_⟩, prepared.tracked well', fun {s s' actor actor'} is is' same => ?_,
    fun {s actor} is => ?_⟩
  · change d'.ticket = _
    rw [ticket, rest]
    exact idle
  · change d'.host.OwnThreads
    rw [host]
    exact grows.own fresh.own
  · obtain ⟨t, member, rfl, rfl⟩ := mem_of_actors is
    obtain ⟨t', member', rfl, rfl⟩ := mem_of_actors is'
    have first := (known t member).inOrder
    have second := (known t' member').inOrder
    have sameThread : t.thread = t'.thread := same
    rw [sameThread] at first
    omega
  · obtain ⟨t, member, rfl, rfl⟩ := mem_of_actors is
    obtain ⟨later, inOrder, isRegistered, alive, decl, declared, steps⟩ := known t member
    have new : d.host.threadCount < t.thread.id := by omega
    refine ⟨rfl, rfl, ?_, fun s' boundTo => ?_, ?_, ?_, ?_, rfl, fun _ => ?_⟩
    · change d'.host.boundTo? t.system = none
      rw [host, bound]
      exact fresh.free later
    · change d'.host.boundTo? s' = some t.thread at boundTo
      rw [host, bound] at boundTo
      exact absurd (fresh.own.registered boundTo) (Nat.not_le.mpr new)
    · change t.thread.id ≤ d'.host.threadCount
      rw [host]
      exact isRegistered
    · change d'.host.isAlive t.thread
      rw [host]
      exact alive
    · rw [steps]
      exact plain decl declared
    · have unknown : registered.1.contextOf? t.thread = none := by
        rw [rest]
        refine Option.eq_none_iff_forall_ne_some.mpr fun id found => ?_
        exact absurd (tracked found) (Nat.not_le.mpr new)
      have empty : registered.1.Shows t.thread (· = []) := by
        refine ⟨fun found => ?_, .inr (Debugger.outlineOf_unknown unknown)⟩
        cases unknown.symm.trans found
      exact empty.tracks well' alive prepared

end Play

end EventDebugger
