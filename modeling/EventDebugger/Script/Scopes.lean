import EventDebugger.Scope

/-!
# Scripts over scopes

Operations on scopes that are known by names, each with what it shows.
-/

namespace EventDebugger

/-- An operation on named scopes. -/
inductive ScopeOp where
  | new (scope : String)
  | block (scope outer : String)
  | assign (scope name : String) (value : Value)
  | lookup (scope name : String)
  | slots (scope : String)
deriving DecidableEq, Repr

/-- What an operation on scopes shows. -/
inductive ScopeAnswer where
  | ok
  | value (value : Option Value)
  | slots (method block : Vars)
  /-- There is no scope of the name. -/
  | unknown
deriving DecidableEq, Repr

/-- Named scopes, the latest name first. -/
structure ScopeTable where
  scopes : Scopes
  names : List (String × Scope)

namespace ScopeTable

/-- No scope yet. -/
def empty : ScopeTable := ⟨.empty, []⟩

/-- The variables that a scope shows. -/
def slots (table : ScopeTable) (scope : Scope) : ScopeAnswer :=
  .slots (table.scopes.methodVars scope) (table.scopes.blockVars scope)

/-- Carries out an operation on a scope that is there. -/
def onScope (table : ScopeTable) (name : String)
    (f : Scope → ScopeAnswer × ScopeTable) : ScopeAnswer × ScopeTable :=
  match table.names.lookup name with
  | some scope => f scope
  | none => (.unknown, table)

/-- Carries out an operation. -/
def run (table : ScopeTable) : ScopeOp → ScopeAnswer × ScopeTable
  | .new name =>
      let (scope, scopes) := table.scopes.enterMethod
      (.ok, ⟨scopes, (name, scope) :: table.names⟩)
  | .block name outer => table.onScope outer fun scope =>
      let (block, scopes) := table.scopes.enterBlock scope
      let table : ScopeTable := ⟨scopes, (name, block) :: table.names⟩
      (table.slots block, table)
  | .assign name key value => table.onScope name fun scope =>
      let table := { table with scopes := table.scopes.assign scope key value }
      (table.slots scope, table)
  | .lookup name key => table.onScope name fun scope =>
      (.value (table.scopes.lookup? scope key), table)
  | .slots name => table.onScope name fun scope => (table.slots scope, table)

/-- Carries out operations one after the other. -/
def runAll (table : ScopeTable) : List ScopeOp → List ScopeAnswer
  | [] => []
  | op :: ops =>
      let (answer, table) := table.run op
      answer :: table.runAll ops

end ScopeTable

end EventDebugger
