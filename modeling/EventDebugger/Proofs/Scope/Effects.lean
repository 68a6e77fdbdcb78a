import EventDebugger.Proofs.Scope.Visibility

/-!
# What an assignment reaches

The scopes that come from one fresh scope by entering blocks, in a tree of any shape, share the variables of
their method, and each of their blocks has a cell of its own. An assignment writes one variable of one of these
cells. What it writes to a block only the scope of this block ever reads, whatever happens later.

* `ScopeTable.Apart.after`: the variables of a block do not influence any others.
* `ScopeTable.assign_reaches`: the scopes that see an assignment.
-/

namespace EventDebugger

namespace Scopes

variable {scopes : Scopes} {s t : Scope} {name other : String}

theorem lookup?_assign_of_ne (has : scopes.Has s) (ne : other ≠ name) (value : Value) (t : Scope) :
    (scopes.assign s name value).lookup? t other = scopes.lookup? t other := by
  simp [lookup?, get?_blockVars_assign has, get?_methodVars_assign has, ne]

theorem lookup?_assign_method (has : scopes.Has s) (same : t.methodCell = s.methodCell)
    (apart : t.blockCell ≠ some s.methodCell) (assigned : scopes.assignedCell s name = s.methodCell)
    (value : Value) : (scopes.assign s name value).lookup? t name =
      if ((scopes.blockVars t).get? name).isSome then scopes.lookup? t name else some value := by
  have method : ((scopes.assign s name value).methodVars t).get? name = some value := by
    rw [get?_methodVars_assign has, assigned, if_pos ⟨same, rfl⟩]
  have block : ((scopes.assign s name value).blockVars t).get? name = (scopes.blockVars t).get? name := by
    rw [get?_blockVars_assign has, assigned, if_neg fun here => apart here.1]
  rw [lookup?, method, block, lookup?]
  cases (scopes.blockVars t).get? name <;> simp

theorem lookup?_assign_block (has : scopes.Has s) (assigned : s.blockCell = some (scopes.assignedCell s name))
    (value : Value) : (scopes.assign s name value).lookup? s name = some value := by
  rw [lookup?, get?_blockVars_assign has, if_pos ⟨assigned, rfl⟩, Option.some_or]

end Scopes

namespace ScopeTable

open Scopes

variable {ops : List ScopeOp} {root s t : Scope} {name : String} {table table' : ScopeTable} {cell : Nat}

/-! ### Families -/

/-- A fresh scope, and the scopes that come from it by entering blocks in scopes of the family. -/
inductive Family (ops : List ScopeOp) (root : Scope) : Scope → Prop
  | fresh {before later : List ScopeOp} {name : String} (made : ops = before ++ .new name :: later)
      (fresh : root = (empty.after before).scopes.enterMethod.1) : Family ops root root
  | block {before later : List ScopeOp} {inner outer : String} {scope : Scope}
      (made : ops = before ++ .block inner outer :: later)
      (found : (empty.after before).names.lookup outer = some scope) (member : Family ops root scope) :
      Family ops root ((empty.after before).scopes.enterBlock scope).1

theorem known_of_made {before later : List ScopeOp} {op : ScopeOp}
    (known : ((empty.after before).run op).2.Known s) : (empty.after (before ++ op :: later)).Known s := by
  rw [after_append]
  exact known_after known later

theorem Family.known (family : Family ops root s) : (empty.after ops).Known s := by
  cases family with
  | @fresh before later name made fresh =>
      rw [made]
      apply known_of_made
      exact known_cons.mpr (.inl fresh)
  | @block before later inner outer scope made found member =>
      rw [made]
      apply known_of_made
      simp only [run, onScope, found]
      exact known_cons.mpr (.inl rfl)

theorem Family.methodCell_eq (family : Family ops root s) : s.methodCell = root.methodCell := by
  induction family with
  | fresh => rfl
  | block made found member ih => exact ih

/-! ### Variables of a block -/

structure Apart (cell : Nat) (table table' : ScopeTable) : Prop where
  names : table'.names = table.names
  size : table'.scopes.cells.size = table.scopes.cells.size
  read : ∀ other, other ≠ cell → table'.scopes.read other = table.scopes.read other

theorem Apart.known (apart : Apart cell table table') : table'.Known s ↔ table.Known s := by
  simp only [Known, apart.names]

theorem Apart.methodVars_eq (apart : Apart cell table table') (ne : s.methodCell ≠ cell) :
    table'.scopes.methodVars s = table.scopes.methodVars s := apart.read _ ne

theorem Apart.blockVars_eq (apart : Apart cell table table') (ne : s.blockCell ≠ some cell) :
    table'.scopes.blockVars s = table.scopes.blockVars s := by
  obtain ⟨methodCell, blockCell⟩ := s
  cases blockCell with
  | none => rfl
  | some own =>
      apply apart.read
      rintro rfl
      exact ne rfl

theorem Apart.assignedCell_eq (apart : Apart cell table table') (ne : s.methodCell ≠ cell) (name : String) :
    table'.scopes.assignedCell s name = table.scopes.assignedCell s name := by
  simp only [assignedCell, apart.methodVars_eq ne]

theorem Apart.enter (apart : Apart cell table table') (name : String) (new : Scope) :
    Apart cell ⟨⟨table.scopes.cells.push []⟩, (name, new) :: table.names⟩
      ⟨⟨table'.scopes.cells.push []⟩, (name, new) :: table'.names⟩ where
  names := by rw [apart.names]
  size := by simp [apart.size]
  read := fun other ne => by
    rw [read_push, read_push]
    exact apart.read other ne

theorem Apart.write (apart : Apart cell table table') {target : Nat} (bound : target < table.scopes.cells.size)
    (name : String) (value : Value) :
    Apart cell ⟨table.scopes.write target name value, table.names⟩
      ⟨table'.scopes.write target name value, table'.names⟩ where
  names := apart.names
  size := by simp [Scopes.write, apart.size]
  read := fun other ne => by
    rw [read_write _ _ _ _ _ bound, read_write _ _ _ _ _ (apart.size ▸ bound)]
    split
    · next here => rw [apart.read target (here ▸ ne)]
    · exact apart.read other ne

theorem Apart.run (apart : Apart cell table table') (sound : table.Sound)
    (ne : ∀ {s}, table.Known s → s.methodCell ≠ cell) (op : ScopeOp) :
    Apart cell (table.run op).2 (table'.run op).2 := by
  cases op with
  | new name =>
      simp only [ScopeTable.run, enterMethod, apart.size]
      exact apart.enter name _
  | block name outer =>
      cases found : table.names.lookup outer with
      | none => simpa only [ScopeTable.run, onScope, apart.names, found] using apart
      | some scope =>
          have entered := apart.enter name ⟨scope.methodCell, some table.scopes.cells.size⟩
          simpa only [ScopeTable.run, onScope, apart.names, found, enterBlock, apart.size] using entered
  | assign name key value =>
      cases found : table.names.lookup name with
      | none => simpa only [ScopeTable.run, onScope, apart.names, found] using apart
      | some scope =>
          have known := known_of_lookup found
          have written := apart.write (assignedCell_lt (sound.has known) key) key value
          simpa only [ScopeTable.run, onScope, apart.names, found, assign, apart.assignedCell_eq (ne known)]
            using written
  | lookup name key | slots name =>
      cases found : table.names.lookup name <;>
        simpa only [ScopeTable.run, onScope, apart.names, found] using apart

theorem Apart.after (apart : Apart cell table table') (sound : table.Sound) (known : table.Known s)
    (block : s.blockCell = some cell) (later : List ScopeOp) :
    Apart cell (table.after later) (table'.after later) := by
  induction later generalizing table table' with
  | nil => exact apart
  | cons op later ih =>
      have step := steps_run table op
      have ne {t : Scope} (known' : table.Known t) : t.methodCell ≠ cell := by
        rintro rfl
        exact sound.apart known known' block
      exact ih (apart.run sound ne op) (step.sound sound) (step.known known)

theorem Apart.lookup?_eq (apart : Apart cell table table') (sound : table.Sound) (known : table.Known s)
    (block : s.blockCell = some cell) (known' : table.Known t) (ne : t ≠ s) (name : String) :
    table'.scopes.lookup? t name = table.scopes.lookup? t name := by
  have method : t.methodCell ≠ cell := by
    rintro rfl
    exact sound.apart known known' block
  have other : t.blockCell ≠ some cell := by
    intro block'
    apply ne
    have same := sound.home known known' block block'
    cases s
    cases t
    simp_all
  rw [lookup?, lookup?, apart.blockVars_eq other, apart.methodVars_eq method]

/-- An assignment on a scope, whether or not a name still stands for it. -/
def assigned (table : ScopeTable) (s : Scope) (name : String) (value : Value) : ScopeTable :=
  { table with scopes := table.scopes.assign s name value }

theorem apart_assigned (table : ScopeTable) (s : Scope) (name : String) (value : Value) :
    Apart (table.scopes.assignedCell s name) table (table.assigned s name value) where
  names := rfl
  size := size_assign _ _ _ _
  read := fun _ ne => read_write_ne _ _ _ ne

/-! ### Assignments -/

/-- An assignment changes no variable but the one it names. A variable of the method changes in all scopes of
the family whose block has no variable of the name, and in no others. Any other variable becomes one of the
block: it changes in the scope of this block, and no other scope ever reads anything else than it would without
the assignment. -/
theorem assign_reaches (family : Family ops root s) (name : String) (value : Value) :
    let table := empty.after ops
    let assigned := table.assigned s name value
    (∀ t, Family ops root t → ∀ other, other ≠ name →
      assigned.scopes.lookup? t other = table.scopes.lookup? t other) ∧
    (((table.scopes.methodVars root).get? name).isSome ∨ s.blockCell = none → ∀ t, Family ops root t →
      assigned.scopes.lookup? t name =
        if ((table.scopes.blockVars t).get? name).isSome then table.scopes.lookup? t name else some value) ∧
    ((table.scopes.methodVars root).get? name = none → s.blockCell.isSome →
      assigned.scopes.lookup? s name = some value ∧
      ∀ later t, (assigned.after later).Known t → t ≠ s → ∀ other,
        (assigned.after later).scopes.lookup? t other = (table.after later).scopes.lookup? t other) := by
  intro table assigned
  have sound : table.Sound := sound_after sound_empty ops
  have known : table.Known s := family.known
  have has : table.scopes.Has s := sound.has known
  have method : table.scopes.methodVars s = table.scopes.methodVars root := by
    rw [methodVars, methodVars, family.methodCell_eq]
  rw [← method]
  refine ⟨fun t _ other ne => lookup?_assign_of_ne has ne value t, ?_, ?_⟩
  · intro here t family'
    have target : table.scopes.assignedCell s name = s.methodCell := by
      rcases table.scopes.assignedCell_cases s name with ⟨cell, -⟩ | ⟨cell, new⟩
      · exact cell
      · simp [new, cell] at here
    have same : t.methodCell = s.methodCell := family'.methodCell_eq.trans family.methodCell_eq.symm
    exact lookup?_assign_method has same (sound.apart family'.known known) target value
  · intro new inside
    have target : s.blockCell = some (table.scopes.assignedCell s name) := by
      rcases table.scopes.assignedCell_cases s name with ⟨-, outside | old⟩ | ⟨cell, -⟩
      · simp [outside] at inside
      · simp [new] at old
      · exact cell
    refine ⟨lookup?_assign_block has target value, fun later t known' ne other => ?_⟩
    have apart := (apart_assigned table s name value).after sound known target later
    exact apart.lookup?_eq (sound_after sound later) (known_after known later) target (apart.known.mp known') ne other

def nestedBlocks : List ScopeOp :=
  [.new "method", .assign "method" "x" (.int 1), .block "block" "method", .assign "block" "y" (.int 2),
    .block "inner" "block"]

theorem family_nestedBlocks : Family nestedBlocks ⟨0, none⟩ ⟨0, some 1⟩ ∧
    Family nestedBlocks ⟨0, none⟩ ⟨0, some 2⟩ := by
  have made : nestedBlocks = [] ++ .new "method" :: nestedBlocks.drop 1 := rfl
  have entered : nestedBlocks = nestedBlocks.take 2 ++ .block "block" "method" :: nestedBlocks.drop 3 := rfl
  have entered' : nestedBlocks = nestedBlocks.take 4 ++ .block "inner" "block" :: [] := rfl
  have method : Family nestedBlocks ⟨0, none⟩ ⟨0, none⟩ := .fresh made rfl
  have named : (empty.after (nestedBlocks.take 2)).names.lookup "method" = some ⟨0, none⟩ := by decide
  have block : Family nestedBlocks ⟨0, none⟩ ⟨0, some 1⟩ := .block entered named method
  have named' : (empty.after (nestedBlocks.take 4)).names.lookup "block" = some ⟨0, some 1⟩ := by decide
  exact ⟨block, .block entered' named' block⟩

theorem inner_block_assigns :
    let table := empty.after nestedBlocks
    (Family nestedBlocks ⟨0, none⟩ ⟨0, some 2⟩ ∧ (table.scopes.methodVars ⟨0, none⟩).get? "y" = none) ∧
    (table.assigned ⟨0, some 2⟩ "x" (.int 3)).scopes.lookup? ⟨0, some 1⟩ "x" = some (.int 3) ∧
    (table.assigned ⟨0, some 2⟩ "y" (.int 3)).scopes.lookup? ⟨0, some 1⟩ "y" = some (.int 2) ∧
    (table.assigned ⟨0, some 2⟩ "y" (.int 3)).scopes.lookup? ⟨0, some 2⟩ "y" = some (.int 3) := by
  intro table
  obtain ⟨block, inner⟩ := family_nestedBlocks
  have new : (table.scopes.methodVars ⟨0, none⟩).get? "y" = none := by decide
  obtain ⟨-, shared, -⟩ := assign_reaches inner "x" (.int 3)
  obtain ⟨-, -, own⟩ := assign_reaches inner "y" (.int 3)
  obtain ⟨here, elsewhere⟩ := own new rfl
  have seen := shared (.inl (by decide)) _ block
  have unseen := elsewhere [] ⟨0, some 1⟩ block.known (by decide) "y"
  exact ⟨⟨inner, new⟩, seen.trans (by decide), unseen.trans (by decide), here⟩

end ScopeTable

end EventDebugger
