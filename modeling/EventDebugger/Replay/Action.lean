import EventDebugger.Program

/-!
# Actions

The steps of a thread, laid out in the order in which they are executed. Whether a step raises does
not depend on the run, so the actions of a thread are known beforehand: those after a raise are left
out up to the end of the rescue around it, while the ends of calls, blocks and class bodies on the way
stay.
-/

namespace EventDebugger

/-- What a thread does at once. -/
inductive Action where
  | line (file : String) (line : Nat) (conditional : Bool)
  | call (method : String) (type file : Option String) (line : Option Nat)
  | callReturn
  | nativeCall (method : String) (type : Option String) (blockGiven : Bool)
  | nativeReturn (method : String) (type : Option String) (blockGiven : Bool)
  | enterBlock
  | leaveBlock
  | openClass (name : String) (line : Option Nat)
  | closeClass
  | bareReturn (method : String)
  | assign (name value : String)
  | fallAsleep
  | wakeUp
  | raise (className : String)
  /-- The exception that is on its way is caught. -/
  | rescue
deriving DecidableEq, Repr

/-- Actions, and whether an exception is on its way after them. -/
structure Actions where
  actions : List Action
  raised : Bool
deriving DecidableEq, Repr

namespace Actions

/-- No action. -/
def none : Actions := ⟨[], false⟩

/-- One action that raises nothing. -/
def one (action : Action) : Actions := ⟨[action], false⟩

/-- One after the other, as far as nothing is raised. -/
def andThen (first second : Actions) : Actions :=
  if first.raised then first else ⟨first.actions ++ second.actions, second.raised⟩

/-- Actions between others that are executed in any case. -/
def within (before : List Action) (body : Actions) (after : List Action) : Actions :=
  ⟨before ++ body.actions ++ after, body.raised⟩

/-- Catches what is raised. -/
def rescued (body : Actions) : Actions :=
  if body.raised then ⟨body.actions ++ [.rescue], false⟩ else body

/-- The same a number of times, as far as nothing is raised. -/
def times (body : Actions) (count : Nat) : Actions :=
  if count = 0 ∨ body.actions.isEmpty then none
  else if body.raised then body
  else ⟨(List.replicate count body.actions).flatten, false⟩

end Actions

namespace Step

mutual

/-- The actions of a step. A native call has a block if its body is not empty. -/
def toActions : Step → Actions
  | .line file number => .one (.line file number false)
  | .branch file number => .one (.line file number true)
  | .call method type file number body =>
      .within [.call method type file number] (toActionsAll body) [.callReturn]
  | .nativeCall method type [] =>
      ⟨[.nativeCall method type false, .nativeReturn method type false], false⟩
  | .nativeCall method type (step :: steps) =>
      .within [.nativeCall method type true, .enterBlock] (toActionsAll (step :: steps))
        [.leaveBlock, .nativeReturn method type true]
  | .classBody name number body =>
      .within [.openClass name number] (toActionsAll body) [.closeClass]
  | .bareReturn method => .one (.bareReturn method)
  | .assign name value => .one (.assign name value)
  | .sleep _ => ⟨[.fallAsleep, .wakeUp], false⟩
  | .pause _ => .none
  | .raise className => ⟨[.raise className], true⟩
  | .rescue body => (toActionsAll body).rescued
  | .repeat count body => (toActionsAll body).times count

/-- The actions of steps. -/
def toActionsAll : List Step → Actions
  | [] => .none
  | step :: steps => (toActions step).andThen (toActionsAll steps)

end

end Step

end EventDebugger
