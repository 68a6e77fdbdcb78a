import EventDebugger.Scope

/-!
# Bindings

What an expression is evaluated in: a receiver and variables, which are either those of a live scope
or a copy.
-/

namespace EventDebugger

/-- The variables of a binding. -/
inductive BindingVars where
  | live (scope : Scope)
  | copied (vars : Vars)
deriving DecidableEq, Repr

/-- A receiver and the variables that are visible to it. -/
structure Binding where
  receiver : Value
  vars : BindingVars
deriving DecidableEq, Repr

/-- Reads a variable of a binding. -/
def Binding.lookup? (binding : Binding) (scopes : Scopes) (name : String) : Option Value :=
  match binding.vars with
  | .live scope => scopes.lookup? scope name
  | .copied vars => vars.get? name

end EventDebugger
