import EventDebugger.Vars

/-!
# Scopes

The variables that code can see. All blocks of a method share the variables of the method, and each
block may add variables of its own. The variables live in cells; a scope names the cell of its method
and, inside a block, the cell of the block.
-/

namespace EventDebugger

/-- A place where code runs: the cell of its method and, inside a block, the cell of the block. -/
structure Scope where
  methodCell : Nat
  blockCell : Option Nat
deriving DecidableEq, Repr, Inhabited

/-- All cells of variables, addressed by the order of their creation. -/
structure Scopes where
  cells : Array Vars
deriving DecidableEq, Repr, Inhabited

namespace Scopes

/-- No cell yet. -/
def empty : Scopes := ⟨#[]⟩

/-- The variables of a cell. -/
def read (scopes : Scopes) (cell : Nat) : Vars := scopes.cells.getD cell []

/-- Assigns a variable of a cell. -/
def write (scopes : Scopes) (cell : Nat) (name : String) (value : Value) : Scopes :=
  ⟨scopes.cells.modify cell (·.assign name value)⟩

/-- The scope of a method that is entered, without variables. -/
def enterMethod (scopes : Scopes) : Scope × Scopes :=
  (⟨scopes.cells.size, none⟩, ⟨scopes.cells.push []⟩)

/-- The scope of a block that runs within a scope: it shares the variables of the method and starts
without variables of its own. -/
def enterBlock (scopes : Scopes) (scope : Scope) : Scope × Scopes :=
  (⟨scope.methodCell, some scopes.cells.size⟩, ⟨scopes.cells.push []⟩)

/-- The variables of the method. -/
def methodVars (scopes : Scopes) (scope : Scope) : Vars := scopes.read scope.methodCell

/-- The variables of the block, none outside of a block. -/
def blockVars (scopes : Scopes) (scope : Scope) : Vars :=
  match scope.blockCell with
  | some cell => scopes.read cell
  | none => []

/-- The cell that an assignment changes: the method's if the variable is there or there is no block,
else the block's. -/
def assignedCell (scopes : Scopes) (scope : Scope) (name : String) : Nat :=
  match scope.blockCell with
  | none => scope.methodCell
  | some cell => if ((scopes.methodVars scope).get? name).isSome then scope.methodCell else cell

/-- Assigns a variable. -/
def assign (scopes : Scopes) (scope : Scope) (name : String) (value : Value) : Scopes :=
  scopes.write (scopes.assignedCell scope name) name value

/-- Reads a variable: a variable of the block hides one of the method. -/
def lookup? (scopes : Scopes) (scope : Scope) (name : String) : Option Value :=
  ((scopes.blockVars scope).get? name).or ((scopes.methodVars scope).get? name)

/-- The cells that a scope names exist. -/
def Has (scopes : Scopes) (scope : Scope) : Prop :=
  scope.methodCell < scopes.cells.size ∧ ∀ cell ∈ scope.blockCell, cell < scopes.cells.size

theorem read_write (scopes : Scopes) (cell other : Nat) (name : String) (value : Value)
    (h : cell < scopes.cells.size) :
    (scopes.write cell name value).read other =
      if other = cell then (scopes.read cell).assign name value else scopes.read other := by
  simp only [read, write, Array.getD_eq_getD_getElem?, Array.getElem?_modify]
  split
  · next heq =>
      subst heq
      simp [h]
  · next hne => rw [if_neg fun e => hne e.symm]

theorem read_write_ne (scopes : Scopes) (name : String) (value : Value) {cell other : Nat}
    (ne : other ≠ cell) : (scopes.write cell name value).read other = scopes.read other := by
  simp [read, write, Array.getD_eq_getD_getElem?, Array.getElem?_modify, Ne.symm ne]

theorem read_size (scopes : Scopes) : scopes.read scopes.cells.size = [] := by
  simp [read, Array.getD_eq_getD_getElem?]

/-- A new cell is empty, and so is one that does not exist. -/
theorem read_push (scopes : Scopes) (cell : Nat) :
    (⟨scopes.cells.push []⟩ : Scopes).read cell = scopes.read cell := by
  simp only [read, Array.getD_eq_getD_getElem?, Array.getElem?_push]
  split
  · next last => simp [last]
  · rfl

theorem has_enterMethod (scopes : Scopes) :
    (scopes.enterMethod).2.Has (scopes.enterMethod).1 := by
  simp [enterMethod, Has]

theorem has_enterBlock {scopes : Scopes} {scope : Scope} (h : scopes.Has scope) :
    (scopes.enterBlock scope).2.Has (scopes.enterBlock scope).1 := by
  simp only [enterBlock, Has, Array.size_push, Option.mem_def, Option.some.injEq, forall_eq']
  exact ⟨Nat.lt_succ_of_lt h.1, Nat.lt_succ_self _⟩

theorem size_assign (scopes : Scopes) (scope : Scope) (name : String) (value : Value) :
    (scopes.assign scope name value).cells.size = scopes.cells.size := by
  simp [assign, write]

end Scopes

end EventDebugger
