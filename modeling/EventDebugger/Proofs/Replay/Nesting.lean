import EventDebugger.Replay.Action

/-!
# Actions are nested

The actions of a step open and close calls, class bodies, native calls and their blocks like brackets,
also where an exception leaves them early.

* `Step.nests_toActions`: the actions of a step end where they began.
-/

namespace EventDebugger

inductive Opener where
  | call (method : String)
  | body
  /-- A native call that did not enter its block yet. -/
  | native (method : String) (type : Option String) (blockGiven : Bool)
  /-- A native call in its block. -/
  | block (method : String) (type : Option String)
  /-- A native call that left its block. -/
  | left (method : String) (type : Option String)
deriving DecidableEq, Repr

def Settled : List Opener → Prop
  | .native _ _ _ :: _ | .left _ _ :: _ => False
  | _ => True

inductive Action.Nests : Action → List Opener → List Opener → Prop where
  | line {openers : List Opener} (file : String) (number : Nat) (conditional : Bool)
      (settled : Settled openers) : Nests (.line file number conditional) openers openers
  | call {openers : List Opener} {method : String} (type file : Option String) (number : Option Nat)
      (settled : Settled openers) (debugged : method ≠ "allocate") :
      Nests (.call method type file number) openers (.call method :: openers)
  | callReturn {openers : List Opener} (method : String) :
      Nests .callReturn (.call method :: openers) openers
  | nativeCall {openers : List Opener} {method : String} (type : Option String) (blockGiven : Bool)
      (settled : Settled openers) (debugged : method ≠ "allocate") :
      Nests (.nativeCall method type blockGiven) openers (.native method type blockGiven :: openers)
  | nativeReturn {openers : List Opener} (method : String) (type : Option String) (blockGiven : Bool) :
      Nests (.nativeReturn method type blockGiven) (.native method type blockGiven :: openers) openers
  | blockReturn {openers : List Opener} (method : String) (type : Option String) :
      Nests (.nativeReturn method type true) (.left method type :: openers) openers
  | enterBlock {openers : List Opener} (method : String) (type : Option String) :
      Nests .enterBlock (.native method type true :: openers) (.block method type :: openers)
  | leaveBlock {openers : List Opener} (method : String) (type : Option String) :
      Nests .leaveBlock (.block method type :: openers) (.left method type :: openers)
  | openClass {openers : List Opener} (name : String) (number : Option Nat) (settled : Settled openers) :
      Nests (.openClass name number) openers (.body :: openers)
  | closeClass {openers : List Opener} : Nests .closeClass (.body :: openers) openers
  | assign {openers : List Opener} (name value : String) : Nests (.assign name value) openers openers
  | fallAsleep {openers : List Opener} : Nests .fallAsleep openers openers
  | wakeUp {openers : List Opener} : Nests .wakeUp openers openers
  | raise {openers : List Opener} (className : String) (settled : Settled openers) :
      Nests (.raise className) openers openers
  | rescue {openers : List Opener} : Nests .rescue openers openers

inductive NestsAll : List Action → List Opener → List Opener → Prop where
  | nil (openers : List Opener) : NestsAll [] openers openers
  | cons {action : Action} {actions : List Action} {openers openers' openers'' : List Opener}
      (first : action.Nests openers openers') (rest : NestsAll actions openers' openers'') :
      NestsAll (action :: actions) openers openers''

namespace NestsAll

variable {first second : List Action} {openers openers' openers'' : List Opener}

theorem append (nests : NestsAll first openers openers') (nests' : NestsAll second openers' openers'') :
    NestsAll (first ++ second) openers openers'' := by
  induction nests with
  | nil => exact nests'
  | cons action _ ih => exact .cons action (ih nests')

theorem single {action : Action} (nests : action.Nests openers openers') :
    NestsAll [action] openers openers' := .cons nests (.nil _)

theorem replicate (nests : NestsAll first openers openers) (count : Nat) :
    NestsAll (List.replicate count first).flatten openers openers := by
  induction count with
  | zero => exact .nil _
  | succ count ih => exact nests.append ih

end NestsAll

namespace Step

mutual

def isPlain : Step → Bool
  | .call method _ _ _ body => method != "allocate" && allPlain body
  | .nativeCall method _ body => method != "allocate" && allPlain body
  | .classBody _ _ body => allPlain body
  | .bareReturn _ => false
  | .rescue body => allPlain body
  | .repeat _ body => allPlain body
  | .line .. | .branch .. | .assign .. | .sleep _ | .pause _ | .raise _ => true

/-- Steps without bare returns and without calls of the method that allocates objects. -/
def allPlain : List Step → Bool
  | [] => true
  | step :: steps => step.isPlain && allPlain steps

end

mutual

theorem nests_toActions {openers : List Opener} (settled : Settled openers) :
    (step : Step) → step.isPlain → NestsAll step.toActions.actions openers openers
  | .line file number, _ => .single (.line file number false settled)
  | .branch file number, _ => .single (.line file number true settled)
  | .call method type file number body, plain => by
      simp only [isPlain, Bool.and_eq_true, bne_iff_ne] at plain
      have inside : Settled (.call method :: openers) := trivial
      have opened := NestsAll.single (.call type file number settled plain.1)
      exact (opened.append (nests_toActionsAll inside body plain.2)).append (.single (.callReturn method))
  | .nativeCall method type [], plain => by
      simp only [isPlain, Bool.and_eq_true, bne_iff_ne] at plain
      exact .cons (.nativeCall type false settled plain.1) (.single (.nativeReturn method type false))
  | .nativeCall method type (step :: steps), plain => by
      simp only [isPlain, Bool.and_eq_true, bne_iff_ne] at plain
      have inside : Settled (.block method type :: openers) := trivial
      have opened : NestsAll [.nativeCall method type true, .enterBlock] openers
          (.block method type :: openers) :=
        .cons (.nativeCall type true settled plain.1) (.single (.enterBlock method type))
      have closed : NestsAll [.leaveBlock, .nativeReturn method type true]
          (.block method type :: openers) openers :=
        .cons (.leaveBlock method type) (.single (.blockReturn method type))
      exact (opened.append (nests_toActionsAll inside (step :: steps) plain.2)).append closed
  | .classBody name number body, plain => by
      have inside : Settled (.body :: openers) := trivial
      have opened := NestsAll.single (.openClass name number settled)
      exact (opened.append (nests_toActionsAll inside body plain)).append (.single .closeClass)
  | .bareReturn _, plain => by cases plain
  | .assign name value, _ => .single (.assign name value)
  | .sleep _, _ => .cons .fallAsleep (.single .wakeUp)
  | .pause _, _ => .nil openers
  | .raise className, _ => .single (.raise className settled)
  | .rescue body, plain => by
      have nests := nests_toActionsAll settled body plain
      simp only [toActions, Actions.rescued]
      split
      · exact nests.append (.single .rescue)
      · exact nests
  | .repeat count body, plain => by
      have nests := nests_toActionsAll settled body plain
      simp only [toActions, Actions.times]
      split
      · exact .nil openers
      · split
        · exact nests
        · exact nests.replicate count

theorem nests_toActionsAll {openers : List Opener} (settled : Settled openers) :
    (steps : List Step) → allPlain steps → NestsAll (toActionsAll steps).actions openers openers
  | [], _ => .nil openers
  | step :: steps, plain => by
      simp only [allPlain, Bool.and_eq_true] at plain
      have first := nests_toActions settled step plain.1
      simp only [toActionsAll, Actions.andThen]
      split
      · exact first
      · exact first.append (nests_toActionsAll settled steps plain.2)

end

end Step

end EventDebugger
