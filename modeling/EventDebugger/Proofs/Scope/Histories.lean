import EventDebugger.Script.Scopes
import Mathlib.Data.List.Nodup

/-!
# Histories of scopes

Methods and blocks are entered and variables assigned, in any order and through any of the scopes. The cells
of variables that come into being that way belong to one method or to one block of one method, and hold each
name once.

* `ScopeTable.Steps.sound`: what one operation keeps.
* `ScopeTable.sound_after`: what holds after any operations.
-/

namespace EventDebugger

namespace Vars

def Distinct (vars : Vars) : Prop := (vars.map Prod.fst).Nodup

theorem names_assign (vars : Vars) (name : String) (value : Value) :
    (vars.assign name value).map Prod.fst =
      if name ∈ vars.map Prod.fst then vars.map Prod.fst else vars.map Prod.fst ++ [name] := by
  induction vars with
  | nil => rfl
  | cons slot rest ih =>
      obtain ⟨n, v⟩ := slot
      by_cases same : n = name
      · simp [assign, same]
      · by_cases mem : name ∈ rest.map Prod.fst <;> simp [assign, same, Ne.symm same, ih, mem]

theorem Distinct.assign {vars : Vars} (h : vars.Distinct) (name : String) (value : Value) :
    (vars.assign name value).Distinct := by
  rw [Distinct, names_assign]
  split
  · exact h
  · next new => exact List.Nodup.append h (List.nodup_singleton name) (by simpa using new)

end Vars

namespace Scopes

variable {scopes : Scopes} {scope : Scope}

theorem assignedCell_lt (has : scopes.Has scope) (name : String) :
    scopes.assignedCell scope name < scopes.cells.size := by
  obtain ⟨methodCell, blockCell⟩ := scope
  cases blockCell with
  | none => exact has.1
  | some cell =>
      simp only [assignedCell]
      split
      · exact has.1
      · exact has.2 cell rfl

theorem get?_read_assign (has : scopes.Has scope) (name other : String) (value : Value) (cell : Nat) :
    ((scopes.assign scope name value).read cell).get? other =
      if cell = scopes.assignedCell scope name ∧ other = name then some value
      else (scopes.read cell).get? other := by
  rw [assign, read_write _ _ _ _ _ (assignedCell_lt has name)]
  by_cases here : cell = scopes.assignedCell scope name
  · by_cases same : other = name
    · simp [here, same, Vars.get?_assign_self]
    · simp [here, same, Vars.get?_assign_of_ne]
  · simp [here]

theorem has_enter {other : Scope} (has : scopes.Has other) : (⟨scopes.cells.push []⟩ : Scopes).Has other := by
  simp only [Has, Array.size_push]
  exact ⟨Nat.lt_succ_of_lt has.1, fun cell mem => Nat.lt_succ_of_lt (has.2 cell mem)⟩

end Scopes

namespace ScopeTable

def after (table : ScopeTable) (ops : List ScopeOp) : ScopeTable :=
  ops.foldl (fun table op => (table.run op).2) table

theorem after_append (table : ScopeTable) (ops later : List ScopeOp) :
    table.after (ops ++ later) = (table.after ops).after later := List.foldl_append

/-- The scope came into being, whether or not its name stands for another one by now. -/
def Known (table : ScopeTable) (scope : Scope) : Prop := ∃ name, (name, scope) ∈ table.names

theorem known_of_lookup {table : ScopeTable} {name : String} {scope : Scope}
    (found : table.names.lookup name = some scope) : table.Known scope := by
  obtain ⟨before, after, split, -⟩ := List.lookup_eq_some_iff.mp found
  exact ⟨name, by simp [split]⟩

inductive Steps (table : ScopeTable) : ScopeOp → ScopeTable → Prop
  | idle (op : ScopeOp) : Steps table op table
  | method (name : String) :
      Steps table (.new name) ⟨table.scopes.enterMethod.2, (name, table.scopes.enterMethod.1) :: table.names⟩
  | block (name : String) {outer : String} {scope : Scope} (found : table.names.lookup outer = some scope) :
      Steps table (.block name outer)
        ⟨(table.scopes.enterBlock scope).2, (name, (table.scopes.enterBlock scope).1) :: table.names⟩
  | assign {name : String} {scope : Scope} (found : table.names.lookup name = some scope) (key : String)
      (value : Value) : Steps table (.assign name key value) ⟨table.scopes.assign scope key value, table.names⟩

theorem steps_run (table : ScopeTable) (op : ScopeOp) : table.Steps op (table.run op).2 := by
  cases op with
  | new name => exact .method name
  | block name outer =>
      cases found : table.names.lookup outer with
      | none => simpa only [run, onScope, found] using .idle _
      | some scope => simpa only [run, onScope, found] using .block name found
  | assign name key value =>
      cases found : table.names.lookup name with
      | none => simpa only [run, onScope, found] using .idle _
      | some scope => simpa only [run, onScope, found] using .assign found key value
  | lookup name key | slots name =>
      cases found : table.names.lookup name <;> simpa only [run, onScope, found] using .idle _

/-- Scopes whose cells are there and hold each name once. A block's cell is the cell of no method, and of no
block of another method. -/
structure Sound (table : ScopeTable) : Prop where
  has : ∀ {scope}, table.Known scope → table.scopes.Has scope
  distinct : ∀ cell, (table.scopes.read cell).Distinct
  home : ∀ {s s' cell}, table.Known s → table.Known s' → s.blockCell = some cell → s'.blockCell = some cell →
    s'.methodCell = s.methodCell
  apart : ∀ {s s'}, table.Known s → table.Known s' → s.blockCell ≠ some s'.methodCell

theorem known_cons {scopes : Scopes} {names : List (String × Scope)} {name : String} {new scope : Scope} :
    (⟨scopes, (name, new) :: names⟩ : ScopeTable).Known scope ↔
      scope = new ∨ (⟨scopes, names⟩ : ScopeTable).Known scope := by
  simp only [Known, List.mem_cons, Prod.mk.injEq, exists_or, exists_eq_left]

theorem sound_empty : empty.Sound where
  has := fun ⟨_, mem⟩ => nomatch mem
  distinct := fun _ => List.nodup_nil
  home := fun ⟨_, mem⟩ => nomatch mem
  apart := fun ⟨_, mem⟩ => nomatch mem

variable {table table' : ScopeTable} {op : ScopeOp}

theorem Sound.enter (sound : table.Sound) {name : String} {new : Scope}
    (has : (⟨table.scopes.cells.push []⟩ : Scopes).Has new)
    (fresh : (new.blockCell = none ∧ new.methodCell = table.scopes.cells.size) ∨
      (new.blockCell = some table.scopes.cells.size ∧ ∃ s, table.Known s ∧ new.methodCell = s.methodCell)) :
    (⟨⟨table.scopes.cells.push []⟩, (name, new) :: table.names⟩ : ScopeTable).Sound := by
  have later {s : Scope} {cell : Nat} (known : table.Known s) (block : s.blockCell = some cell) :
      new.blockCell ≠ some cell := by
    intro same
    have old : cell < table.scopes.cells.size := (sound.has known).2 cell block
    rcases fresh with ⟨none, -⟩ | ⟨cell, -⟩ <;> simp_all
  refine ⟨fun h => ?_, fun cell => ?_, fun h h' block block' => ?_, fun h h' => ?_⟩
  · rcases known_cons.mp h with rfl | old
    · exact has
    · exact Scopes.has_enter (sound.has old)
  · rw [Scopes.read_push]
    exact sound.distinct cell
  · rcases known_cons.mp h with rfl | old <;> rcases known_cons.mp h' with rfl | old'
    · rfl
    · exact absurd block (later old' block')
    · exact absurd block' (later old block)
    · exact sound.home old old' block block'
  · rcases known_cons.mp h with rfl | old <;> rcases known_cons.mp h' with rfl | old'
    · rcases fresh with ⟨none, -⟩ | ⟨block, s, known, method⟩
      · simp [none]
      · have := (sound.has known).1
        simp [block, method]
        omega
    · have := (sound.has old').1
      rcases fresh with ⟨none, -⟩ | ⟨block, -⟩
      · simp [none]
      · simp [block]
        omega
    · rcases fresh with ⟨-, method⟩ | ⟨-, s, known, method⟩
      · intro block
        have := (sound.has old).2 _ block
        omega
      · rw [method]
        exact sound.apart old known
    · exact sound.apart old old'

theorem Steps.sound (step : table.Steps op table') (sound : table.Sound) : table'.Sound := by
  cases step with
  | idle => exact sound
  | method name => exact sound.enter (Scopes.has_enterMethod _) (.inl ⟨rfl, rfl⟩)
  | block name found =>
      have known := known_of_lookup found
      exact sound.enter (Scopes.has_enterBlock (sound.has known)) (.inr ⟨rfl, _, known, rfl⟩)
  | assign found key value =>
      have known := known_of_lookup found
      refine ⟨fun h => ?_, fun cell => ?_, sound.home, sound.apart⟩
      · have := sound.has h
        rwa [Scopes.Has, Scopes.size_assign]
      · rw [Scopes.assign, Scopes.read_write _ _ _ _ _ (Scopes.assignedCell_lt (sound.has known) key)]
        split
        · exact (sound.distinct _).assign key value
        · exact sound.distinct cell

theorem sound_after (sound : table.Sound) (ops : List ScopeOp) : (table.after ops).Sound := by
  induction ops generalizing table with
  | nil => exact sound
  | cons op ops ih => exact ih ((steps_run table op).sound sound)

end ScopeTable

end EventDebugger
