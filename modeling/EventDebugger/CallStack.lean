import EventDebugger.Binding
import EventDebugger.Event
import EventDebugger.Text.Letter

/-!
# Call stacks

The shadow of the call stack of a thread. A frame is opened by a call, a class body or a native call,
and follows the position of the code that runs in it. Frames are listed from the innermost one on.
-/

namespace EventDebugger

/-- Whether a variable is shown to the user: its name starts with an underscore or a lower case
letter, and goes on with underscores, letters and digits. -/
def isUserVisible (name : String) : Bool :=
  match name.toList with
  | [] => false
  | c :: cs =>
      (c == '_' || Text.isLowercase c) && (c :: cs).all fun c => c == '_' || Text.isAlphanumeric c

/-- A copy of the user's variables of a scope: those of the method, then those of the block. -/
def Scopes.copyVisible (scopes : Scopes) (scope : Scope) : Vars :=
  Vars.ofAssignments
    ((scopes.methodVars scope ++ scopes.blockVars scope).filter fun slot => isUserVisible slot.1)

/-- Where the local variables of a frame are. -/
inductive FrameLocals where
  | live (scope : Option Scope)
  | frozen (vars : Vars)
deriving DecidableEq, Repr

/-- An activation of a method, a block or a class body. -/
structure Frame where
  /-- The method that runs now. -/
  method : Option String
  /-- The method that the frame was opened for. -/
  openedFor : Option String
  position : Position
  binding : Option Binding
  receiver : Option Value
  enclosingType : Option TypeRef
  locals : FrameLocals
deriving DecidableEq, Repr

namespace Frame

/-- The user's variables of a frame. -/
def visibleLocals (frame : Frame) (scopes : Scopes) : Vars :=
  match frame.locals with
  | .live (some scope) => scopes.copyVisible scope
  | .live none => []
  | .frozen vars => vars

/-- The frame with a copy of its variables in place of their live scope. -/
def freeze (scopes : Scopes) (frame : Frame) : Frame :=
  { frame with locals := .frozen (frame.visibleLocals scopes) }

end Frame

/-- The frames of a thread, the innermost one first. -/
abbrev CallStack := List Frame

namespace CallStack

/-- Drops the frames up to the innermost one that was opened for a method, with that frame. If no
frame was, all of them are dropped. -/
def popMatching (stack : CallStack) (method : Option String) : CallStack :=
  (stack.dropWhile fun frame => frame.openedFor != method).drop 1

/-- Changes the innermost frame. -/
def modifyTop (stack : CallStack) (f : Frame → Frame) : CallStack :=
  match stack with
  | [] => []
  | frame :: rest => f frame :: rest

/-- The stack with copies of all variables. -/
def freeze (scopes : Scopes) (stack : CallStack) : CallStack := stack.map (Frame.freeze scopes)

theorem length_modifyTop (stack : CallStack) (f : Frame → Frame) :
    (stack.modifyTop f).length = stack.length := by
  cases stack <;> rfl

theorem length_freeze (stack : CallStack) (scopes : Scopes) :
    (stack.freeze scopes).length = stack.length := List.length_map _

theorem popMatching_cons_self (frame : Frame) (rest : CallStack) :
    popMatching (frame :: rest) frame.openedFor = rest := by
  simp [popMatching]

end CallStack

end EventDebugger
