import EventDebugger.Proofs.Dispatch.Breakpoints
import EventDebugger.Proofs.Renewal.Restart
import EventDebugger.Proofs.Ticket.Registry
import Mathlib.Data.List.Induction

/-!
# Which breakpoints are listed

Breakpoints are numbered in the order in which they are added, over all activations. The registry of an activation
is in the order of these numbers, and consists of what was added in the activation and not removed since. So a number
tells at most one listed breakpoint, and the first breakpoint that an event meets is the one with the least number.

* `Filing.mem_registry`: what is left of a log.
* `Debugger.finds`: the breakpoint that an event meets.
* `World.Logged.registry_kept`: runs from a debugger that was never started.
-/

namespace EventDebugger

namespace Registry

variable {registry : Registry}

theorem remove_eq_filter (distinct : registry.Pairwise (·.id ≠ ·.id)) (id : Nat) :
    registry.remove id = registry.filter (·.id != id) := by
  induction registry with
  | nil => rfl
  | cons bp rest ih =>
      obtain ⟨differ, distinct⟩ := List.pairwise_cons.mp distinct
      by_cases same : bp.id = id
      · have others : rest.filter (·.id != id) = rest :=
          List.filter_eq_self.mpr fun other member => bne_iff_ne.mpr (same ▸ (differ other member).symm)
        rw [List.filter_cons, if_neg (by simp [same]), others]
        exact List.eraseP_cons_of_pos (p := fun bp : Breakpoint => bp.id == id) (beq_iff_eq.mpr same)
      · have others : rest.eraseP (·.id == id) = rest.filter (·.id != id) := ih distinct
        rw [List.filter_cons, if_pos (bne_iff_ne.mpr same), ← others]
        exact List.eraseP_cons_of_neg (p := fun bp : Breakpoint => bp.id == id) (mt beq_iff_eq.mp same)

theorem find?_of_mem (distinct : registry.Pairwise (·.id ≠ ·.id)) {bp : Breakpoint} (member : bp ∈ registry) :
    registry.find? bp.id = some bp := by
  induction registry with
  | nil => cases member
  | cons first rest ih =>
      obtain ⟨differ, distinct⟩ := List.pairwise_cons.mp distinct
      rcases List.mem_cons.mp member with rfl | later
      · exact List.find?_cons_of_pos (beq_self_eq_true _)
      · rw [find?, List.find?_cons_of_neg (by simp [differ bp later])]
        exact ih distinct later

theorem remove_of_unlisted {id : Nat} (unlisted : ∀ bp ∈ registry, bp.id ≠ id) :
    registry.find? id = none ∧ registry.remove id = registry := by
  refine ⟨List.find?_eq_none.mpr fun bp member => ?_, List.eraseP_of_forall_not fun bp member => ?_⟩
  all_goals
    rw [beq_iff_eq]
    exact unlisted bp member

theorem least_of_find? (ordered : registry.Pairwise (·.id < ·.id)) {p : Breakpoint → Bool} {bp : Breakpoint}
    (found : List.find? p registry = some bp) : bp ∈ registry ∧ p bp ∧
      ∀ other ∈ registry, p other → bp.id ≤ other.id := by
  obtain ⟨meets, before, after, rfl, earlier⟩ := List.find?_eq_some_iff_append.mp found
  refine ⟨List.mem_append_right _ List.mem_cons_self, meets, fun other member met => ?_⟩
  rcases List.mem_append.mp member with first | rest
  · have misses := earlier other first
    rw [met] at misses
    cases misses
  · rcases List.mem_cons.mp rest with rfl | later
    · exact Nat.le_refl _
    · have sorted := (List.pairwise_append.mp ordered).2.1
      exact Nat.le_of_lt ((List.pairwise_cons.mp sorted).1 other later)

end Registry

namespace Filing

variable {log : List Filing}

/-- The breakpoint was added in the last activation of a log and was not removed since. -/
def Stands (log : List Filing) (bp : Breakpoint) : Prop :=
  ∃ before after, log = before ++ .added bp :: after ∧ .begun ∉ after ∧ .removed bp.id ∉ after

theorem stands_concat (log : List Filing) (last : Filing) (bp : Breakpoint) :
    Stands (log ++ [last]) bp ↔ last = .added bp ∨ Stands log bp ∧ last ≠ .begun ∧ last ≠ .removed bp.id := by
  constructor
  · rintro ⟨before, after, split, lasts, unremoved⟩
    rcases List.eq_nil_or_concat' after with rfl | ⟨earlier, entry, rfl⟩
    · exact .inl (List.singleton_inj.mp (List.append_inj' split rfl).2)
    · rw [← List.cons_append, ← List.append_assoc] at split
      obtain ⟨same, entries⟩ := List.append_inj' split rfl
      obtain rfl : last = entry := List.singleton_inj.mp entries
      simp only [List.mem_append, List.mem_singleton, not_or] at lasts unremoved
      exact .inr ⟨⟨before, earlier, same, lasts.1, unremoved.1⟩, Ne.symm lasts.2, Ne.symm unremoved.2⟩
  · rintro (rfl | ⟨⟨before, after, rfl, lasts, unremoved⟩, here, stays⟩)
    · exact ⟨log, [], rfl, List.not_mem_nil, List.not_mem_nil⟩
    · refine ⟨before, after ++ [last], by rw [List.append_assoc, List.cons_append], ?_, ?_⟩
      · simpa only [List.mem_append, List.mem_singleton, not_or] using ⟨lasts, here.symm⟩
      · simpa only [List.mem_append, List.mem_singleton, not_or] using ⟨unremoved, stays.symm⟩

theorem mem_registry (ordered : (given log).Pairwise (·.id < ·.id)) (bp : Breakpoint) :
    bp ∈ registry log ↔ Stands log bp := by
  induction log using List.reverseRecOn with
  | nil =>
      refine ⟨nofun, fun ⟨before, after, split, _⟩ => ?_⟩
      cases (List.append_eq_nil_iff.mp split.symm).2
  | append_singleton log last ih =>
      rw [given_append] at ordered
      have before := (List.pairwise_append.mp ordered).1
      have ih := ih before
      rw [stands_concat, registry_append, ← ih, List.foldl_cons, List.foldl_nil]
      cases last with
      | begun => simp [apply]
      | added new =>
          simp only [apply, Registry.add, List.mem_append, List.mem_singleton, added.injEq, ne_eq, reduceCtorEq,
            not_false_eq_true, and_true]
          rw [or_comm, eq_comm]
      | removed id =>
          have distinct : (registry log).Pairwise (·.id ≠ ·.id) :=
            (before.sublist (registry_sublist log)).imp fun less => Nat.ne_of_lt less
          simp only [apply, Registry.remove_eq_filter distinct, List.mem_filter, bne_iff_ne, ne_eq, reduceCtorEq,
            false_or, not_false_eq_true, true_and, removed.injEq]
          exact and_congr_right' (not_congr eq_comm)

end Filing

namespace Debugger

variable {d : Debugger} {log : List Filing}

/-! ## Lookups -/

/-- What an event finds in a context: the temporary breakpoint if it has a property, or else the listed breakpoint
with the property that has the least number. -/
def Finds (d : Debugger) (id : ContextId) (p : Breakpoint → Bool) : Option Found → Prop
  | none => (d.context id).moved → ∀ bp ∈ d.breakpointsFor id, ¬ p bp
  | some (.temporary bp _) => (d.context id).temporary = some bp ∧ p bp
  | some (.listed bp) => (∀ temporary ∈ (d.context id).temporary, ¬ p temporary) ∧ bp ∈ d.registry ∧ p bp ∧
      ∀ other ∈ d.registry, p other → bp.id ≤ other.id

theorem findListed?_registry (d : Debugger) (p : Breakpoint → Bool) :
    d.findListed? p = (List.find? p d.registry).map .listed := by
  simp only [findListed?, registry]
  cases d.session <;> rfl

theorem finds (ordered : d.registry.Pairwise (·.id < ·.id)) (id : ContextId) (p : Breakpoint → Bool) :
    d.Finds id p (d.findBreakpoint? id p) := by
  have listed (passes : ∀ temporary ∈ (d.context id).temporary, ¬ p temporary) :
      d.Finds id p (d.findListed? p) := by
    rw [findListed?_registry]
    cases found : List.find? p d.registry with
    | some bp => exact ⟨passes, Registry.least_of_find? ordered found⟩
    | none =>
        intro _ bp member
        rcases List.mem_append.mp member with temporary | member
        · exact passes bp (Option.mem_toList.mp temporary)
        · exact List.find?_eq_none.mp found bp member
  simp only [findBreakpoint?]
  split
  · split
    · next bp temporary =>
        split
        · next meets => exact ⟨temporary, meets⟩
        · next misses =>
            refine listed fun other is => ?_
            cases temporary.symm.trans is
            exact misses
    · next temporary =>
        refine listed fun other is => ?_
        cases temporary.symm.trans is
  · next still => exact fun moved => absurd moved still

/-! ## The registry of a log -/

/-- The breakpoints of a debugger, of which a log tells what was added and removed. -/
structure Kept (d : Debugger) (log : List Filing) : Prop where
  /-- A breakpoint has a number greater than those of all that were added before, in any activation. -/
  increasing : (Filing.given log).Pairwise (·.id < ·.id)
  /-- A counter of 32 bits gives the same numbers. -/
  fits : ∀ bp ∈ Filing.given log, 0 < bp.id ∧ bp.id < 4294967296
  lists : d.isStarted → d.breakpoints = .ok d.registry
  ordered : d.registry.Pairwise (·.id < ·.id)
  listed : d.isStarted → ∀ bp, bp ∈ d.registry ↔ Filing.Stands log bp
  removes : ∀ bp ∈ d.registry, ∃ session, d.session = some session ∧
    d.removeBreakpoint bp.id = .ok (some bp,
      { d with session := some { session with registry := session.registry.filter (·.id != bp.id) } })
  spares : d.isStarted → ∀ id, (∀ bp ∈ d.registry, bp.id ≠ id) → d.removeBreakpoint id = .ok (none, d)
  finds : ∀ id p, d.Finds id p (d.findBreakpoint? id p)

theorem breakpoints_eq (started : d.isStarted) : d.breakpoints = .ok d.registry := by
  obtain ⟨session, active⟩ := Option.isSome_iff_exists.mp started
  rw [registry_eq active]
  simp only [breakpoints, activeSession, active]
  rfl

theorem removeBreakpoint_listed (ordered : d.registry.Pairwise (·.id < ·.id)) {bp : Breakpoint}
    (listed : bp ∈ d.registry) : ∃ session, d.session = some session ∧
      d.removeBreakpoint bp.id = .ok (some bp,
        { d with session := some { session with registry := session.registry.filter (·.id != bp.id) } }) := by
  obtain ⟨session, active⟩ := session_of_listed listed
  rw [registry_eq active] at ordered listed
  have distinct : session.registry.Pairwise (·.id ≠ ·.id) := ordered.imp fun less => Nat.ne_of_lt less
  refine ⟨session, active, ?_⟩
  rw [removeBreakpoint_eq active, Registry.find?_of_mem distinct listed, Registry.remove_eq_filter distinct]

theorem removeBreakpoint_unlisted (started : d.isStarted) {id : Nat} (unlisted : ∀ bp ∈ d.registry, bp.id ≠ id) :
    d.removeBreakpoint id = .ok (none, d) := by
  obtain ⟨session, active⟩ := Option.isSome_iff_exists.mp started
  rw [registry_eq active] at unlisted
  obtain ⟨missed, same⟩ := Registry.remove_of_unlisted unlisted
  rw [removeBreakpoint_eq active, missed, same, ← active]

theorem Filed.kept (h : d.Filed 0 log) (fewer : (Filing.given log).length < 4294967296) : d.Kept log := by
  have increasing : (Filing.given log).Pairwise (·.id < ·.id) := by
    have ids : ((Filing.given log).map (·.id)).Pairwise (· < ·) := by
      rw [h.numbers]
      exact List.pairwise_lt_range'
    exact List.pairwise_map.mp ids
  have ordered : d.registry.Pairwise (·.id < ·.id) := by
    cases active : d.session with
    | none =>
        rw [registry, active]
        exact .nil
    | some session =>
        rw [h.listed (Option.isSome_iff_exists.mpr ⟨session, active⟩)]
        exact increasing.sublist (Filing.registry_sublist log)
  refine ⟨increasing, fun bp member => ?_, breakpoints_eq, ordered, fun started bp => ?_,
    fun bp => removeBreakpoint_listed ordered, fun started _ => removeBreakpoint_unlisted started, finds ordered⟩
  · have number : bp.id ∈ (Filing.given log).map (·.id) := List.mem_map_of_mem member
    rw [h.numbers, List.mem_range'_1] at number
    omega
  · rw [h.listed started]
    exact Filing.mem_registry increasing bp

end Debugger

namespace World

variable {w : World} {log : List Filing} {settings : Settings} {host : Host}

/-- Whatever is done to a debugger, starts and stops included, as long as fewer breakpoints are added than 32 bits
can number. -/
theorem Logged.registry_kept (logged : (built settings host).Logged log w)
    (fewer : (Filing.given log).length < 4294967296) : w.debugger.Kept log :=
  (logged.filed rfl).kept fewer

def refiled : World := (built .standard .initial).afterwards
  [(0, .move (.request (.debugger .start))),
    (0, .move (.request (.debugger (.addBreakpoint "a.rb" (.line 1) none)))),
    (0, .move (.request (.debugger (.addBreakpoint "a.rb" (.line 2) none)))),
    (0, .move (.request (.debugger (.removeBreakpoint 1)))),
    (0, .move (.request (.debugger .stop))),
    (0, .move (.request (.debugger .start))),
    (0, .move (.request (.debugger (.addBreakpoint "b.rb" (.line 1) none))))]

theorem kept_refiled : ∃ log, (built .standard .initial).Logged log refiled ∧
    (Filing.given log).map (·.id) = [1, 2, 3] ∧ refiled.debugger.Kept log ∧
    refiled.debugger.registry = [⟨3, "b.rb", .line 1, none⟩] := by
  have course : Course Anything (built .standard .initial) refiled := course_afterwards _ _
  obtain ⟨log, logged⟩ := course.logged
  have filed : refiled.debugger.Filed 0 log := logged.filed rfl
  have count : (Filing.given log).length = 3 := by
    have counted : 3 = 0 + (Filing.given log).length := filed.count
    omega
  have numbers := filed.numbers
  rw [count] at numbers
  exact ⟨log, logged, numbers, logged.registry_kept (by rw [count]; decide), rfl⟩

end World

end EventDebugger
