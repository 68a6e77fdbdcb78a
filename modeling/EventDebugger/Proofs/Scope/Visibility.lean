import EventDebugger.Proofs.Scope.Histories
import Mathlib.Data.List.Induction

/-!
# What scopes see of each other

An assignment looks for the variable in the method first, a look-up in the block. The two meet unless the
block and the method both have a variable of the name, which happens only where the method got its variable
after the block. All blocks of a method share its variables, and none sees the variables of another block,
not even those of a block around it.

* `ScopeTable.lookup?_assign_self`: what a scope reads after an assignment.
* `ScopeTable.block_shares_method`: what a block sees of the scope that it was entered in, and what that scope
  sees of the block.
-/

namespace EventDebugger

namespace Scopes

variable {scopes : Scopes} {scope s : Scope}

def Hides (scopes : Scopes) (scope : Scope) (name : String) : Prop :=
  ((scopes.blockVars scope).get? name).isSome ∧ ((scopes.methodVars scope).get? name).isSome

instance (scopes : Scopes) (scope : Scope) (name : String) : Decidable (scopes.Hides scope name) :=
  inferInstanceAs (Decidable (_ ∧ _))

def Reveals (scopes : Scopes) (scope : Scope) (name : String) : Prop :=
  (scopes.blockVars scope).get? name = none ∧ ((scopes.methodVars scope).get? name).isSome

theorem assignedCell_cases (scopes : Scopes) (scope : Scope) (name : String) :
    (scopes.assignedCell scope name = scope.methodCell ∧
      (scope.blockCell = none ∨ ((scopes.methodVars scope).get? name).isSome)) ∨
    (scope.blockCell = some (scopes.assignedCell scope name) ∧ (scopes.methodVars scope).get? name = none) := by
  obtain ⟨methodCell, blockCell⟩ := scope
  cases blockCell with
  | none => exact .inl ⟨rfl, .inl rfl⟩
  | some cell =>
      simp only [assignedCell]
      split
      · next old => exact .inl ⟨rfl, .inr old⟩
      · next new => exact .inr ⟨rfl, by simpa using new⟩

theorem get?_methodVars_assign (has : scopes.Has s) (key name : String) (value : Value) (scope : Scope) :
    ((scopes.assign s key value).methodVars scope).get? name =
      if scope.methodCell = scopes.assignedCell s key ∧ name = key then some value
      else (scopes.methodVars scope).get? name := get?_read_assign has key name value scope.methodCell

theorem get?_blockVars_assign (has : scopes.Has s) (key name : String) (value : Value) (scope : Scope) :
    ((scopes.assign s key value).blockVars scope).get? name =
      if scope.blockCell = some (scopes.assignedCell s key) ∧ name = key then some value
      else (scopes.blockVars scope).get? name := by
  obtain ⟨methodCell, blockCell⟩ := scope
  cases blockCell with
  | none => simp [blockVars]
  | some cell => simpa [blockVars] using get?_read_assign has key name value cell

theorem blockVars_of_method (block : scope.blockCell = none) : scopes.blockVars scope = [] := by
  rw [blockVars, block]

theorem lookup?_assign (has : scopes.Has scope) (apart : scope.blockCell ≠ some scope.methodCell)
    (name : String) (value : Value) : (scopes.assign scope name value).lookup? scope name =
      if scopes.Hides scope name then (scopes.blockVars scope).get? name else some value := by
  rw [lookup?, get?_blockVars_assign has, get?_methodVars_assign has]
  rcases scopes.assignedCell_cases scope name with ⟨cell, known⟩ | ⟨cell, new⟩
  · rw [cell, if_neg fun here => apart here.1, if_pos ⟨rfl, rfl⟩]
    cases block : (scopes.blockVars scope).get? name with
    | none => simp [Hides, block]
    | some own =>
        have old : ((scopes.methodVars scope).get? name).isSome := by
          rcases known with none | old
          · rw [blockVars_of_method none] at block
            cases block
          · exact old
        simp [Hides, block, old]
  · simp [Hides, cell, new]

theorem lookup?_of_reveals {name : String} (h : scopes.Reveals scope name) :
    scopes.lookup? scope name = (scopes.methodVars scope).get? name := by
  rw [lookup?, h.1, Option.none_or]

theorem assignedCell_of_reveals {name : String} (h : scopes.Reveals scope name) :
    scopes.assignedCell scope name = scope.methodCell := by
  rcases scopes.assignedCell_cases scope name with ⟨cell, -⟩ | ⟨-, new⟩
  · exact cell
  · have := h.2
    rw [new] at this
    cases this

theorem lookup?_assign_of_reveals (has : scopes.Has s) (apart : scope.blockCell ≠ some s.methodCell)
    (same : scope.methodCell = s.methodCell) {name : String} (h : scopes.Reveals scope name)
    (h' : scopes.Reveals s name) (value : Value) :
    (scopes.assign s name value).lookup? scope name = some value := by
  rw [lookup?, get?_blockVars_assign has, get?_methodVars_assign has, assignedCell_of_reveals h',
    if_neg fun here => apart here.1, if_pos ⟨same, rfl⟩, h.1, Option.none_or]

end Scopes

namespace ScopeTable

open Scopes

variable {table table' : ScopeTable} {op : ScopeOp} {scope : Scope} {name : String}

/-! ### Steps -/

theorem Steps.known (step : table.Steps op table') (known : table.Known scope) : table'.Known scope := by
  cases step with
  | idle | assign => exact known
  | method | block => exact known_cons.mpr (.inr known)

theorem Steps.known_cases (step : table.Steps op table') (known : table'.Known scope) :
    table.Known scope ∨ table'.scopes.blockVars scope = [] := by
  cases step with
  | idle | assign => exact .inl known
  | method =>
      rcases known_cons.mp known with rfl | old
      · exact .inr rfl
      · exact .inl old
  | block =>
      rcases known_cons.mp known with rfl | old
      · right
        simp only [blockVars, enterBlock, read_push, read_size]
      · exact .inl old

theorem Steps.read_cases (step : table.Steps op table') :
    (∀ cell, table'.scopes.read cell = table.scopes.read cell) ∨
    ∃ outer s key value, op = .assign outer key value ∧ table.names.lookup outer = some s ∧
      table'.scopes = table.scopes.assign s key value := by
  cases step with
  | idle => exact .inl fun _ => rfl
  | method | block => exact .inl fun cell => read_push _ cell
  | assign found key value => exact .inr ⟨_, _, key, value, rfl, found, rfl⟩

theorem Steps.isSome_read (step : table.Steps op table') (sound : table.Sound) {cell : Nat}
    (old : ((table.scopes.read cell).get? name).isSome) : ((table'.scopes.read cell).get? name).isSome := by
  rcases step.read_cases with same | ⟨outer, s, key, value, -, found, scopes⟩
  · rw [same]
    exact old
  · rw [scopes, get?_read_assign (sound.has (known_of_lookup found))]
    split
    · rfl
    · exact old

theorem blockVars_congr {scopes scopes' : Scopes} (same : ∀ cell, scopes'.read cell = scopes.read cell)
    (scope : Scope) : scopes'.blockVars scope = scopes.blockVars scope := by
  unfold blockVars
  split
  · exact same _
  · rfl

theorem Sound.new_of_block {s : Scope} {key : String} (sound : table.Sound) (known : table.Known scope)
    (known' : table.Known s) (written : scope.blockCell = some (table.scopes.assignedCell s key)) :
    (table.scopes.methodVars scope).get? key = none := by
  rcases table.scopes.assignedCell_cases s key with ⟨cell, -⟩ | ⟨cell, new⟩
  · rw [cell] at written
    exact absurd written (sound.apart known known')
  · rw [methodVars, sound.home known' known cell written]
    exact new

theorem Sound.outside_of_method {s : Scope} {key : String} (sound : table.Sound) (known : table.Known scope)
    (known' : table.Known s) (written : scope.methodCell = table.scopes.assignedCell s key) :
    s.methodCell = scope.methodCell ∧
      (s.blockCell = none ∨ ((table.scopes.methodVars scope).get? key).isSome) := by
  rcases table.scopes.assignedCell_cases s key with ⟨cell, old⟩ | ⟨cell, -⟩
  · have same : s.methodCell = scope.methodCell := cell.symm.trans written.symm
    rw [methodVars, same] at old
    exact ⟨same, old⟩
  · rw [← written] at cell
    exact absurd cell (sound.apart known' known)

theorem Steps.reveals (step : table.Steps op table') (sound : table.Sound) (known : table.Known scope)
    (reveals : table.scopes.Reveals scope name) : table'.scopes.Reveals scope name := by
  refine ⟨?_, step.isSome_read sound reveals.2⟩
  rcases step.read_cases with same | ⟨outer, s, key, value, -, found, scopes⟩
  · rw [blockVars_congr same]
    exact reveals.1
  · have known' := known_of_lookup found
    rw [scopes, get?_blockVars_assign (sound.has known'), if_neg]
    · exact reveals.1
    · rintro ⟨written, rfl⟩
      have old := reveals.2
      rw [sound.new_of_block known known' written] at old
      cases old

theorem Steps.overtakes (step : table.Steps op table') (sound : table.Sound) (known : table'.Known scope)
    (open' : ¬ table.scopes.Hides scope name) (hides : table'.scopes.Hides scope name) :
    ∃ outer s value, op = .assign outer name value ∧ table.names.lookup outer = some s ∧
      s.blockCell = none ∧ s.methodCell = scope.methodCell ∧
      ((table.scopes.blockVars scope).get? name).isSome ∧ (table.scopes.methodVars scope).get? name = none := by
  obtain ⟨block, method⟩ := hides
  rcases step.known_cases known with known | empty
  · rcases step.read_cases with same | ⟨outer, s, key, value, rfl, found, scopes⟩
    · rw [blockVars_congr same] at block
      rw [methodVars, same] at method
      exact absurd ⟨block, method⟩ open'
    · have known' := known_of_lookup found
      rw [scopes, get?_blockVars_assign (sound.has known')] at block
      rw [scopes, get?_methodVars_assign (sound.has known')] at method
      have unwritten : ¬ (scope.blockCell = some (table.scopes.assignedCell s key) ∧ name = key) := by
        rintro ⟨written, rfl⟩
        rw [sound.new_of_block known known' written, if_neg] at method
        · cases method
        · rintro ⟨cell, -⟩
          exact sound.apart known known (cell ▸ written)
      rw [if_neg unwritten] at block
      split at method
      · next written =>
          obtain ⟨cell, rfl⟩ := written
          obtain ⟨same, outside | old⟩ := sound.outside_of_method known known' cell
          · refine ⟨outer, s, value, rfl, found, outside, same, block, ?_⟩
            exact Option.not_isSome_iff_eq_none.mp fun old => open' ⟨block, old⟩
          · exact absurd ⟨block, old⟩ open'
      · exact absurd ⟨block, method⟩ open'
  · rw [empty] at block
    cases block

/-! ### Runs -/

theorem known_after (known : table.Known scope) (ops : List ScopeOp) : (table.after ops).Known scope := by
  induction ops generalizing table with
  | nil => exact known
  | cons op ops ih => exact ih ((steps_run table op).known known)

theorem isSome_read_after (sound : table.Sound) {cell : Nat}
    (old : ((table.scopes.read cell).get? name).isSome) (ops : List ScopeOp) :
    (((table.after ops).scopes.read cell).get? name).isSome := by
  induction ops generalizing table with
  | nil => exact old
  | cons op ops ih =>
      have step := steps_run table op
      exact ih (step.sound sound) (step.isSome_read sound old)

theorem reveals_after (sound : table.Sound) (known : table.Known scope)
    (reveals : table.scopes.Reveals scope name) (ops : List ScopeOp) :
    (table.after ops).scopes.Reveals scope name := by
  induction ops generalizing table with
  | nil => exact reveals
  | cons op ops ih =>
      have step := steps_run table op
      exact ih (step.sound sound) (step.known known) (step.reveals sound known reveals)

/-- Outside of blocks, the method got a variable of a name that the block had. -/
def Overtaken (ops : List ScopeOp) (scope : Scope) (name : String) : Prop :=
  ∃ before outer value later s, ops = before ++ .assign outer name value :: later ∧
    let table := empty.after before
    table.names.lookup outer = some s ∧ s.blockCell = none ∧ s.methodCell = scope.methodCell ∧
      ((table.scopes.blockVars scope).get? name).isSome ∧ (table.scopes.methodVars scope).get? name = none

theorem overtaken_of_hides {ops : List ScopeOp} (known : (empty.after ops).Known scope)
    (hides : (empty.after ops).scopes.Hides scope name) : Overtaken ops scope name := by
  induction ops using List.reverseRecOn with
  | nil => exact nomatch known.choose_spec
  | append_singleton ops op ih =>
      rw [after_append] at known hides
      have sound := sound_after sound_empty ops
      have step := steps_run (empty.after ops) op
      by_cases earlier : (empty.after ops).scopes.Hides scope name
      · rcases step.known_cases known with known | bare
        · obtain ⟨before, outer, value, later, s, rfl, rest⟩ := ih known earlier
          exact ⟨before, outer, value, later ++ [op], s, by simp, rest⟩
        · have block : (((empty.after ops).run op).2.scopes.blockVars scope).get? name |>.isSome := hides.1
          rw [bare] at block
          cases block
      · obtain ⟨outer, s, value, rfl, rest⟩ := step.overtakes sound known earlier hides
        exact ⟨ops, outer, value, [], s, rfl, rest⟩

theorem isSome_run_assign {outer : String} {s : Scope} (sound : table.Sound)
    (found : table.names.lookup outer = some s) (outside : s.blockCell = none) (value : Value) :
    (((table.run (.assign outer name value)).2.scopes.read s.methodCell).get? name).isSome := by
  have assigned : (table.run (.assign outer name value)).2.scopes = table.scopes.assign s name value := by
    simp only [run, onScope, found]
  rw [assigned, get?_read_assign (sound.has (known_of_lookup found)), if_pos]
  · rfl
  · rw [assignedCell, outside]
    exact ⟨rfl, rfl⟩

theorem hides_of_overtaken {ops : List ScopeOp} (overtaken : Overtaken ops scope name) :
    (empty.after ops).scopes.Hides scope name := by
  obtain ⟨before, outer, value, later, s, rfl, found, outside, same, block, -⟩ := overtaken
  have sound := sound_after sound_empty before
  have step := steps_run (empty.after before) (.assign outer name value)
  have method : ((((empty.after before).run (.assign outer name value)).2.scopes.read
      s.methodCell).get? name).isSome := isSome_run_assign sound found outside value
  rw [same] at method
  cases inside : scope.blockCell with
  | none =>
      rw [blockVars_of_method inside] at block
      cases block
  | some cell =>
      simp only [Hides, blockVars, methodVars, inside] at block ⊢
      rw [after_append]
      exact ⟨isSome_read_after (step.sound sound) (step.isSome_read sound block) later,
        isSome_read_after (step.sound sound) method later⟩

theorem hides_iff_overtaken {ops : List ScopeOp} (known : (empty.after ops).Known scope) :
    (empty.after ops).scopes.Hides scope name ↔ Overtaken ops scope name :=
  ⟨overtaken_of_hides known, hides_of_overtaken⟩

/-! ### Reading back -/

/-- A scope reads back what it assigns, unless its method got the variable after its block: then it keeps
reading the variable of the block. -/
theorem lookup?_assign_self {ops : List ScopeOp} (known : (empty.after ops).Known scope) (name : String)
    (value : Value) :
    let scopes := (empty.after ops).scopes
    (¬ Overtaken ops scope name → (scopes.assign scope name value).lookup? scope name = some value) ∧
    (Overtaken ops scope name →
      (scopes.assign scope name value).lookup? scope name = scopes.lookup? scope name ∧
      scopes.lookup? scope name = (scopes.blockVars scope).get? name) := by
  have sound := sound_after sound_empty ops
  have reads := lookup?_assign (sound.has known) (sound.apart known known) name value
  rw [← hides_iff_overtaken known]
  refine ⟨fun seen => by rw [reads, if_neg seen], fun hides => ?_⟩
  have own : (empty.after ops).scopes.lookup? scope name =
      ((empty.after ops).scopes.blockVars scope).get? name := by
    rw [lookup?]
    exact Option.or_of_isSome hides.1
  exact ⟨by rw [reads, if_pos hides, own], own⟩

def variablesApart : List ScopeOp :=
  [.new "method", .block "block" "method", .assign "block" "x" (.int 1), .assign "method" "y" (.int 2),
    .block "inner" "block", .assign "inner" "y" (.int 3), .assign "inner" "z" (.int 4)]

theorem read_back_in_inner_block : (empty.after variablesApart).Known ⟨0, some 2⟩ ∧
    ¬ Overtaken variablesApart ⟨0, some 2⟩ "z" ∧
    ((empty.after variablesApart).scopes.assign ⟨0, some 2⟩ "z" (.int 5)).lookup? ⟨0, some 2⟩ "z" =
      some (.int 5) := by
  have known : (empty.after variablesApart).Known ⟨0, some 2⟩ := ⟨"inner", by decide⟩
  have seen : ¬ Overtaken variablesApart ⟨0, some 2⟩ "z" := by
    rw [← hides_iff_overtaken known]
    decide
  exact ⟨known, seen, (lookup?_assign_self known "z" (.int 5)).1 seen⟩

/-- The method gets a variable that the block has, and what the block assigns then is not what it reads. -/
theorem unread_after_method :
    let ops := [.new "method", .block "block" "method", .assign "block" "x" (.int 1),
      .assign "method" "x" (.int 2), .assign "block" "x" (.int 3), .lookup "block" "x"]
    (empty.runAll ops).getLast? = some (.value (some (.int 1))) := by decide

/-! ### Blocks -/

theorem blockVars_enterBlock (scopes : Scopes) (s : Scope) :
    (scopes.enterBlock s).2.blockVars (scopes.enterBlock s).1 = [] := by
  simp only [enterBlock, blockVars, read_push, read_size]

theorem methodVars_enterBlock (scopes : Scopes) (s : Scope) :
    (scopes.enterBlock s).2.methodVars (scopes.enterBlock s).1 = scopes.methodVars s := by
  simp only [enterBlock, methodVars, read_push]

theorem reveals_enterBlock {scopes : Scopes} {s : Scope} (reveals : scopes.Reveals s name) :
    (scopes.enterBlock s).2.Reveals s name ∧
      (scopes.enterBlock s).2.Reveals (scopes.enterBlock s).1 name := by
  have old (cell : Nat) : (scopes.enterBlock s).2.read cell = scopes.read cell := read_push scopes cell
  constructor
  · rw [Reveals, blockVars_congr old, methodVars, old]
    exact reveals
  · rw [Reveals, blockVars_enterBlock, methodVars_enterBlock]
    exact ⟨rfl, reveals.2⟩

theorem shared_after {s b : Scope} (sound : table.Sound) (known : table.Known s) (known' : table.Known b)
    (same : b.methodCell = s.methodCell) (reveals : table.scopes.Reveals s name)
    (reveals' : table.scopes.Reveals b name) (later : List ScopeOp) :
    let scopes := (table.after later).scopes
    scopes.lookup? b name = scopes.lookup? s name ∧
      ∀ value, (scopes.assign b name value).lookup? s name = some value ∧
        (scopes.assign s name value).lookup? b name = some value := by
  have reveals := reveals_after sound known reveals later
  have reveals' := reveals_after sound known' reveals' later
  have last := sound_after sound later
  have known := known_after known later
  have known' := known_after known' later
  refine ⟨?_, fun value => ⟨?_, ?_⟩⟩
  · rw [lookup?_of_reveals reveals, lookup?_of_reveals reveals', methodVars, methodVars, same]
  · exact lookup?_assign_of_reveals (last.has known') (last.apart known known') same.symm reveals reveals' value
  · exact lookup?_assign_of_reveals (last.has known) (last.apart known' known) same reveals' reveals value

/-- A block that is entered sees the variables of the method, and none of the block that it is entered in. From
then on the two scopes see the same variable of each name that the outer one sees in the method, and see each
other's assignments to it. -/
theorem block_shares_method {ops : List ScopeOp} {outer : String} {s : Scope}
    (found : (empty.after ops).names.lookup outer = some s) (inner : String) :
    let table := empty.after ops
    let entered := (table.run (.block inner outer)).2
    ∃ b, entered.names.lookup inner = some b ∧
      (∀ name, entered.scopes.lookup? b name = (table.scopes.methodVars s).get? name) ∧
      ∀ name value, table.scopes.lookup? s name = some value → (table.scopes.blockVars s).get? name = none →
        entered.scopes.lookup? b name = some value ∧ ∀ later,
          let scopes := (entered.after later).scopes
          scopes.lookup? b name = scopes.lookup? s name ∧
          ∀ value, (scopes.assign b name value).lookup? s name = some value ∧
            (scopes.assign s name value).lookup? b name = some value := by
  intro table entered
  have run : entered = ⟨(table.scopes.enterBlock s).2, (inner, (table.scopes.enterBlock s).1) :: table.names⟩ := by
    simp only [entered, table, ScopeTable.run, onScope, found]
  have sees (name : String) : entered.scopes.lookup? (table.scopes.enterBlock s).1 name =
      (table.scopes.methodVars s).get? name := by
    rw [run, lookup?, blockVars_enterBlock, methodVars_enterBlock]
    rfl
  have named : entered.names.lookup inner = some (table.scopes.enterBlock s).1 := by
    rw [run, List.lookup_cons_self]
  have step : table.Steps (.block inner outer) entered := steps_run table (.block inner outer)
  refine ⟨_, named, sees, fun name value read unhidden => ?_⟩
  rw [lookup?, unhidden, Option.none_or] at read
  have reveals : table.scopes.Reveals s name := ⟨unhidden, by rw [read]; rfl⟩
  obtain ⟨outer', inner'⟩ := reveals_enterBlock reveals
  exact ⟨(sees name).trans read, shared_after (step.sound (sound_after sound_empty ops))
    (step.known (known_of_lookup found)) (known_of_lookup named) rfl (run ▸ outer') (run ▸ inner')⟩

theorem shared_by_inner_block :
    let ops := [.new "method", .assign "method" "x" (.int 1), .block "block" "method",
      .assign "block" "y" (.int 2)]
    (empty.after ops).names.lookup "block" = some ⟨0, some 1⟩ ∧
    (empty.after ops).scopes.lookup? ⟨0, some 1⟩ "x" = some (.int 1) ∧
    ((empty.after ops).scopes.blockVars ⟨0, some 1⟩).get? "x" = none ∧
    ∃ b, ∀ later,
      let scopes := (((empty.after ops).run (.block "inner" "block")).2.after later).scopes
      (scopes.assign b "x" (.int 3)).lookup? ⟨0, some 1⟩ "x" = some (.int 3) := by
  intro ops
  have found : (empty.after ops).names.lookup "block" = some ⟨0, some 1⟩ := by decide
  have read : (empty.after ops).scopes.lookup? ⟨0, some 1⟩ "x" = some (.int 1) := by decide
  have unhidden : ((empty.after ops).scopes.blockVars ⟨0, some 1⟩).get? "x" = none := by decide
  obtain ⟨b, -, -, shared⟩ := block_shares_method found "inner"
  exact ⟨found, read, unhidden, b, fun later =>
    (((shared "x" (.int 1) read unhidden).2 later).2 (.int 3)).1⟩

/-- A block does not see the variable of the block around it, and assigns one of its own. -/
theorem outer_block_unseen :
    let ops := [.new "method", .block "block" "method", .assign "block" "x" (.int 1), .lookup "block" "x",
      .block "inner" "block", .lookup "inner" "x", .assign "inner" "x" (.int 2), .lookup "block" "x"]
    empty.runAll ops = [.ok, .slots [] [], .slots [] [("x", .int 1)], .value (some (.int 1)), .slots [] [],
      .value none, .slots [] [("x", .int 2)], .value (some (.int 1))] := by decide

end ScopeTable

end EventDebugger
