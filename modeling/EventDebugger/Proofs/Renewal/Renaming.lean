import EventDebugger.Proofs.Host.Listing
import EventDebugger.Proofs.Tracking

/-!
# Debuggers up to numbering

An activation leaves behind the contexts that it made, and counts on: the next activation gives its contexts
other addresses and numbers, its breakpoints other numbers, and its wake-ups are counted from another number
on. A renaming says by how much. A debugger renames another one if both are the same up to a renaming, apart
from what threads had that exited since, and from when their contexts are removed.

* `Renames.updateContext`, `Renames.addContext`: what is done to contexts.
* `Renames.carry`: what is done elsewhere.
-/

namespace EventDebugger

def Context.renumber (context : Context) (number : Nat) : Context := { context with number }

/-- What an earlier activation leaves behind. -/
structure Renaming where
  /-- How many contexts were made. -/
  contexts : Nat
  /-- How many numbers of contexts were given out. -/
  numbers : Nat
  /-- How many numbers of breakpoints were given out. -/
  breakpoints : Nat
  wakeups : Nat
  /-- Whether the contexts of exited threads are removed at the same time. -/
  lockstep : Bool

namespace Renaming

variable (ρ : Renaming)

def address (id : ContextId) : ContextId := ρ.contexts + id

def context (context : Context) : Context := context.renumber (context.number + ρ.numbers)

def breakpoint (bp : Breakpoint) : Breakpoint := { bp with id := bp.id + ρ.breakpoints }

def entry (entry : Thread × ContextId) : Thread × ContextId := (entry.1, ρ.address entry.2)

def heeds (host : Host) (thread : Thread) : Bool := ρ.lockstep || host.isAlive thread

theorem heeds_of_isAlive {host : Host} {thread : Thread} (alive : host.isAlive thread) : ρ.heeds host thread := by
  rw [heeds, alive, Bool.or_true]

theorem address_inj {id other : ContextId} : ρ.address id = ρ.address other ↔ id = other := Nat.add_right_inj

end Renaming

structure Context.Unnumbered (f : Context → Context) : Prop where
  number : ∀ context number, f (context.renumber number) = (f context).renumber number
  thread : ∀ context, (f context).thread = context.thread
  dead : ∀ context, (f context).dead = context.dead

theorem Context.Unnumbered.same {f : Context → Context} (h : Unnumbered f) (context : Context) :
    (f context).number = context.number := congrArg (·.number) (h.number context context.number)

def contextAt (contexts : Array Context) (id : ContextId) : Context := contexts.getD id (.initial default 0 false)

theorem contextAt_eq (d : Debugger) (id : ContextId) : contextAt d.contexts id = d.context id := rfl

structure Home (contexts : Array Context) (host : Host) (entry : Thread × ContextId) : Prop where
  known : entry.2 < contexts.size
  thread : (contextAt contexts entry.2).thread = entry.1
  live : (contextAt contexts entry.2).dead = false
  counted : entry.1.id ≤ host.threadCount

structure Enumerated (contexts : Array Context) (count : Nat) (lastHalted : Option Nat) : Prop where
  positive : ∀ id < contexts.size, 0 < (contextAt contexts id).number
  counted : ∀ id < contexts.size, (contextAt contexts id).number ≤ count
  distinct : ∀ id < contexts.size, ∀ other < contexts.size, (contextAt contexts id).dead = false →
    (contextAt contexts other).dead = false → (contextAt contexts id).number = (contextAt contexts other).number →
    id = other
  halted : ∀ number ∈ lastHalted, number ≤ count

structure ThreadTable.Renames (ρ : Renaming) (contexts : Array Context) (host : Host) (x y : ThreadTable) :
    Prop where
  entries : (y.entries.filter fun entry => ρ.heeds host entry.1) =
    (x.entries.filter fun entry => ρ.heeds host entry.1).map ρ.entry
  coherent : x.Coherent
  coherent' : y.Coherent
  home : ∀ entry ∈ x.entries, Home contexts host entry
  home' : ∀ entry ∈ y.entries, ∃ original, Home contexts host original ∧ entry = ρ.entry original

structure Session.Renames (ρ : Renaming) (contexts : Array Context) (host : Host) (x y : Session) : Prop where
  table : x.table.Renames ρ contexts host y.table
  registry : y.registry = x.registry.map ρ.breakpoint
  holder : y.holder = x.holder
  waiting : y.waiting = x.waiting

structure Renames (ρ : Renaming) (a b : Debugger) : Prop where
  host : b.host = a.host
  settings : b.settings = a.settings
  startCount : b.startCount = a.startCount
  catchpoint : b.catchpoint = a.catchpoint
  size : b.contexts.size = ρ.contexts + a.contexts.size
  contexts : ∀ id < a.contexts.size, b.context (ρ.address id) = ρ.context (a.context id)
  contextCount : b.contextCount = a.contextCount + ρ.numbers
  breakpointCount : b.breakpointCount = a.breakpointCount + ρ.breakpoints
  wakeups : b.wakeups = a.wakeups + ρ.wakeups
  /-- A halt of an earlier activation has a number that no context of `a` corresponds to. -/
  halted : ∀ number, 0 < number → (b.lastHalted = some (number + ρ.numbers) ↔ a.lastHalted = some number)
  phase : ρ.lockstep → b.eventCount = a.eventCount ∧ b.prunedAt = a.prunedAt
  session : Option.Rel (Session.Renames ρ a.contexts a.host) a.session b.session
  listed : a.host.Listed
  numbered : Enumerated a.contexts a.contextCount a.lastHalted

namespace Renames

variable {ρ : Renaming} {a b : Debugger} {id : ContextId}

/-! ## Contexts by address -/

theorem known_iff (h : Renames ρ a b) : ρ.address id < b.contexts.size ↔ id < a.contexts.size := by
  rw [h.size, Renaming.address, Nat.add_lt_add_iff_left]

theorem number (h : Renames ρ a b) (known : id < a.contexts.size) :
    (b.context (ρ.address id)).number = (a.context id).number + ρ.numbers := by
  rw [h.contexts id known]
  rfl

theorem context_alike (h : Renames ρ a b) (id : ContextId) :
    ∃ number, b.context (ρ.address id) = (a.context id).renumber number := by
  by_cases known : id < a.contexts.size
  · exact ⟨_, h.contexts id known⟩
  · have unknown (d : Debugger) {other : ContextId} (h : ¬ other < d.contexts.size) :
        d.context other = .initial default 0 false := by
      rw [Debugger.context, Array.getD_eq_getD_getElem?, Array.getElem?_eq_none (Nat.le_of_not_lt h),
        Option.getD_none]
    exact ⟨0, by rw [unknown a known, unknown b (mt h.known_iff.mp known)]; rfl⟩

theorem reads {α : Type} (h : Renames ρ a b) (id : ContextId) (f : Context → α)
    (unnumbered : ∀ context number, f (context.renumber number) = f context) :
    f (b.context (ρ.address id)) = f (a.context id) := by
  obtain ⟨number, alike⟩ := h.context_alike id
  rw [alike, unnumbered]

end Renames

/-! ## Sessions -/

/-- Later contexts and a later host: contexts keep their threads, and threads that are known come not back to
life. -/
structure Carries (contexts : Array Context) (host : Host) (contexts' : Array Context) (host' : Host) : Prop where
  home : ∀ {entry}, Home contexts host entry → Home contexts' host' entry
  alive : ∀ {thread : Thread}, thread.id ≤ host.threadCount → host'.isAlive thread → host.isAlive thread

section

variable {ρ : Renaming} {contexts contexts' : Array Context} {host host' : Host}

theorem Renaming.filter_heeds (ρ : Renaming) (carries : Carries contexts host contexts' host')
    {entries : List (Thread × ContextId)} (counted : ∀ entry ∈ entries, entry.1.id ≤ host.threadCount) :
    (entries.filter fun entry => ρ.heeds host' entry.1) =
      (entries.filter fun entry => ρ.heeds host entry.1).filter fun entry => ρ.heeds host' entry.1 := by
  rw [List.filter_filter]
  apply List.filter_congr
  intro entry member
  cases lockstep : ρ.lockstep with
  | true => simp only [heeds, lockstep, Bool.true_or, Bool.and_self]
  | false =>
      simp only [heeds, lockstep, Bool.false_or]
      cases alive : host'.isAlive entry.1 with
      | false => rw [Bool.false_and]
      | true => rw [carries.alive (counted entry member) alive, Bool.and_self]

theorem ThreadTable.Renames.carry {x y : ThreadTable} (h : x.Renames ρ contexts host y)
    (carries : Carries contexts host contexts' host') : x.Renames ρ contexts' host' y := by
  have counted : ∀ entry ∈ y.entries, entry.1.id ≤ host.threadCount := by
    intro entry member
    obtain ⟨original, home, rfl⟩ := h.home' entry member
    exact home.counted
  refine ⟨?_, h.coherent, h.coherent', fun entry member => carries.home (h.home entry member), ?_⟩
  · rw [ρ.filter_heeds carries counted, ρ.filter_heeds carries fun entry member => (h.home entry member).counted,
      h.entries, List.filter_map]
    rfl
  · intro entry member
    obtain ⟨original, home, same⟩ := h.home' entry member
    exact ⟨original, carries.home home, same⟩

theorem Session.Renames.carry {x y : Session} (h : x.Renames ρ contexts host y)
    (carries : Carries contexts host contexts' host') : x.Renames ρ contexts' host' y :=
  { h with table := h.table.carry carries }

end

namespace Renames

variable {ρ : Renaming} {a b : Debugger} {id : ContextId}

theorem carry (h : Renames ρ a b) {contexts : Array Context} {host : Host}
    (carries : Carries a.contexts a.host contexts host) :
    Option.Rel (Session.Renames ρ contexts host) a.session b.session := by
  have session := h.session
  revert session
  generalize a.session = x
  generalize b.session = y
  intro session
  cases session with
  | none => exact .none
  | some alike => exact .some (alike.carry carries)

/-! ## Changes of the host -/

theorem onHost (h : Renames ρ a b) {host : Host} (continues : a.host.Continues host) :
    Renames ρ { a with host } { b with host } := by
  have carries : Carries a.contexts a.host a.contexts host := by
    refine ⟨fun home => { home with counted := Nat.le_trans home.counted continues.count }, ?_⟩
    exact fun known alive => continues.alive known alive
  exact { h with host := rfl, session := h.carry carries, listed := continues.listed h.listed }

theorem currentThread (h : Renames ρ a b) (system : Nat) :
    (b.currentThread system).1 = (a.currentThread system).1 ∧
      Renames ρ (a.currentThread system).2 (b.currentThread system).2 := by
  simp only [Debugger.currentThread, h.host, true_and]
  exact h.onHost (Host.continues_currentThread a.host system)

theorem captureBinding (h : Renames ρ a b) (system : Nat) (receiver : Option Value) :
    (b.captureBinding system receiver).1 = (a.captureBinding system receiver).1 ∧
      Renames ρ (a.captureBinding system receiver).2 (b.captureBinding system receiver).2 := by
  have met := (a.touches_captureBinding system 0 receiver).host
  simp only [Debugger.captureBinding, h.host, true_and] at met ⊢
  exact h.onHost met.continues

/-! ## Changes of contexts -/

theorem updateContexts (h : Renames ρ a b) (id : ContextId) {f g : Context → Context}
    (same : g (b.context (ρ.address id)) = (f (a.context id)).renumber (b.context (ρ.address id)).number)
    (number : (f (a.context id)).number = (a.context id).number)
    (thread : (f (a.context id)).thread = (a.context id).thread)
    (dead : (f (a.context id)).dead = (a.context id).dead) :
    Renames ρ (a.updateContext id f) (b.updateContext (ρ.address id) g) := by
  have known_eq {other : ContextId} : other < (a.updateContext id f).contexts.size ↔ other < a.contexts.size := by
    rw [Debugger.size_updateContext]
  have identity (other : ContextId) : ((a.updateContext id f).context other).thread = (a.context other).thread ∧
      ((a.updateContext id f).context other).dead = (a.context other).dead ∧
      ((a.updateContext id f).context other).number = (a.context other).number := by
    by_cases here : other = id
    · subst here
      by_cases known : other < a.contexts.size
      · rw [a.context_updateContext_self f known]
        exact ⟨thread, dead, number⟩
      · rw [a.updateContext_unknown f (Nat.le_of_not_lt known)]
        exact ⟨rfl, rfl, rfl⟩
    · rw [a.context_updateContext_ne f here]
      exact ⟨rfl, rfl, rfl⟩
  have carries : Carries a.contexts a.host (a.updateContext id f).contexts a.host := by
    refine ⟨fun {entry} home => ⟨known_eq.mpr home.known, ?_, ?_, home.counted⟩, fun _ alive => alive⟩
    · exact (identity entry.2).1.trans home.thread
    · exact (identity entry.2).2.1.trans home.live
  refine { h with size := ?_, contexts := fun other known => ?_, session := h.carry carries, numbered := ?_ }
  · rw [Debugger.size_updateContext, Debugger.size_updateContext, h.size]
  · rw [known_eq] at known
    by_cases here : other = id
    · subst here
      rw [a.context_updateContext_self f known, b.context_updateContext_self g (h.known_iff.mpr known), same,
        h.contexts other known, Renaming.context, Renaming.context, number]
      rfl
    · rw [a.context_updateContext_ne f here, b.context_updateContext_ne g (mt ρ.address_inj.mp here)]
      exact h.contexts other known
  · refine ⟨fun other known => ?_, fun other known => ?_, fun i known j known' live live' same => ?_,
      h.numbered.halted⟩
    · rw [contextAt_eq, (identity other).2.2]
      exact h.numbered.positive other (known_eq.mp known)
    · rw [contextAt_eq, (identity other).2.2]
      exact h.numbered.counted other (known_eq.mp known)
    · rw [contextAt_eq, contextAt_eq, (identity i).2.2, (identity j).2.2] at same
      rw [contextAt_eq, (identity i).2.1] at live
      rw [contextAt_eq, (identity j).2.1] at live'
      exact h.numbered.distinct i (known_eq.mp known) j (known_eq.mp known') live live' same

theorem updateContext (h : Renames ρ a b) (id : ContextId) {f : Context → Context}
    (unnumbered : Context.Unnumbered f) :
    Renames ρ (a.updateContext id f) (b.updateContext (ρ.address id) f) := by
  refine h.updateContexts id ?_ (unnumbered.same _) (unnumbered.thread _) (unnumbered.dead _)
  obtain ⟨number, alike⟩ := h.context_alike id
  rw [alike, unnumbered.number]
  rfl

theorem addContext (h : Renames ρ a b) (context : Context) (positive : 0 < context.number)
    (counted : context.number ≤ a.contextCount)
    (distinct : context.dead = false → ∀ id < a.contexts.size, (a.context id).number < context.number) :
    (b.addContext (ρ.context context)).1 = ρ.address (a.addContext context).1 ∧
      Renames ρ (a.addContext context).2 (b.addContext (ρ.context context)).2 := by
  have size (d : Debugger) (new : Context) : (d.addContext new).2.contexts.size = d.contexts.size + 1 :=
    Array.size_push _
  have split {other : ContextId} (known : other < (a.addContext context).2.contexts.size) :
      other < a.contexts.size ∨ other = a.contexts.size := by
    rw [size] at known
    exact Nat.lt_or_eq_of_le (Nat.le_of_lt_succ known)
  have carries : Carries a.contexts a.host (a.addContext context).2.contexts a.host := by
    refine ⟨fun {entry} home => ⟨?_, ?_, ?_, home.counted⟩, fun _ alive => alive⟩
    · rw [size]
      exact Nat.lt_succ_of_lt home.known
    · rw [contextAt_eq, a.context_addContext _ home.known]
      exact home.thread
    · rw [contextAt_eq, a.context_addContext _ home.known]
      exact home.live
  refine ⟨h.size, { h with size := ?_, contexts := fun other known => ?_, session := h.carry carries, numbered := ?_ }⟩
  · rw [size, size, h.size, Nat.add_assoc]
  · rcases split known with older | rfl
    · rw [a.context_addContext _ older, b.context_addContext _ (h.known_iff.mpr older)]
      exact h.contexts other older
    · rw [a.context_addContext_new, Renaming.address, ← h.size, b.context_addContext_new]
  · refine ⟨fun other known => ?_, fun other known => ?_, fun i known j known' live live' same => ?_,
      h.numbered.halted⟩
    · rw [contextAt_eq]
      rcases split known with older | rfl
      · rw [a.context_addContext _ older]
        exact h.numbered.positive other older
      · rw [a.context_addContext_new]
        exact positive
    · rw [contextAt_eq]
      rcases split known with older | rfl
      · rw [a.context_addContext _ older]
        exact h.numbered.counted other older
      · rw [a.context_addContext_new]
        exact counted
    · rw [contextAt_eq] at live live'
      rw [contextAt_eq, contextAt_eq] at same
      rcases split known with older | rfl <;> rcases split known' with older' | rfl
      · rw [a.context_addContext _ older] at live same
        rw [a.context_addContext _ older'] at live' same
        exact h.numbered.distinct i older j older' live live' same
      · rw [a.context_addContext _ older, a.context_addContext_new] at same
        rw [a.context_addContext_new] at live'
        exact absurd same (Nat.ne_of_lt (distinct live' i older))
      · rw [a.context_addContext_new, a.context_addContext _ older'] at same
        rw [a.context_addContext_new] at live
        exact absurd same.symm (Nat.ne_of_lt (distinct live j older'))
      · rfl

theorem home_newContext (d : Debugger) {thread : Thread} (counted : thread.id ≤ d.host.threadCount) :
    Home (d.newContext thread).2.contexts d.host (thread, (d.newContext thread).1) := by
  have new := Debugger.context_addContext_new { d with contextCount := d.contextCount + 1 }
    (.initial thread (d.contextCount + 1) (d.host.isDebuggerThread thread))
  refine ⟨?_, (congrArg (·.thread) new).trans rfl, (congrArg (·.dead) new).trans rfl, counted⟩
  rw [Debugger.size_newContext]
  exact Nat.lt_succ_self _

theorem newContext (h : Renames ρ a b) (thread : Thread) :
    (b.newContext thread).1 = ρ.address (a.newContext thread).1 ∧
      Renames ρ (a.newContext thread).2 (b.newContext thread).2 := by
  have counts : Renames ρ { a with contextCount := a.contextCount + 1 }
      { b with contextCount := b.contextCount + 1 } := by
    refine { h with contextCount := ?_, numbered := ?_ }
    · rw [h.contextCount]
      exact Nat.add_right_comm ..
    · exact { h.numbered with
        counted := fun id known => Nat.le_succ_of_le (h.numbered.counted id known)
        halted := fun number last => Nat.le_succ_of_le (h.numbered.halted number last) }
  have new : (.initial thread (b.contextCount + 1) (b.host.isDebuggerThread thread) : Context) =
      ρ.context (.initial thread (a.contextCount + 1) (a.host.isDebuggerThread thread)) := by
    rw [h.host, h.contextCount, Nat.add_right_comm]
    rfl
  simp only [Debugger.newContext]
  rw [new]
  exact counts.addContext _ (Nat.succ_pos _) (Nat.le_refl _)
    fun _ id known => Nat.lt_succ_of_le (h.numbered.counted id known)

end Renames

end EventDebugger
