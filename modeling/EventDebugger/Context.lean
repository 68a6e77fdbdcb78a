import EventDebugger.Breakpoint
import EventDebugger.CallStack
import EventDebugger.Context.Countdown
import EventDebugger.Error
import EventDebugger.Host

/-!
# Contexts

What the debugger knows about a thread: its call stack, the steps that are armed, its temporary
breakpoint, the position and reason of its last halt. A dead context is the copy of a context that a
raised exception keeps.

The commands of this file check their arguments first: one that fails yields no context, so nothing
changes.
-/

namespace EventDebugger

/-- Why a context halted last. -/
inductive StopReason where
  /-- It never halted. -/
  | initial
  | step
  | breakpoint
  | catchpoint
  /-- It is the copy that an exception keeps. -/
  | postMortem
deriving DecidableEq, Repr

/-- The debug context of a thread. -/
structure Context where
  thread : Thread
  /-- The number of the context, counted over all contexts of a debugger. -/
  number : Nat
  suspended : Bool
  tracing : Bool
  /-- Inside a section that is not debugged. -/
  skipped : Bool
  /-- The thread belonged to the front-end when the context was made. -/
  ignored : Bool
  dead : Bool
  /-- Whether the thread has to be woken up when the context is resumed. -/
  wasRunning : Bool
  /-- Whether an event had another position than the last halt since then. -/
  moved : Bool
  /-- Whether something else than a line happened since the last halt. -/
  stepped : Bool
  /-- Whether steps count lines at the same position too. -/
  forced : Bool
  reason : StopReason
  /-- The lines that remain before a halt. -/
  stopNext : Countdown
  /-- The lines that remain before a halt in the frame of a step over. -/
  stopLine : Countdown
  /-- The depth at which the two countdowns run. -/
  targetDepth : Option Nat
  /-- The depth whose return arms a single step. -/
  finishDepth : Option Nat
  lastPosition : Option Position
  temporary : Option Breakpoint
  /-- How many temporary breakpoints the context was given, which tells equal ones apart. -/
  temporaryCount : Nat
  stack : CallStack
deriving DecidableEq, Repr

namespace Context

/-- The context of a thread that was not seen before. -/
def initial (thread : Thread) (number : Nat) (ignored : Bool) : Context where
  thread := thread
  number := number
  suspended := false
  tracing := false
  skipped := false
  ignored := ignored
  dead := false
  wasRunning := false
  moved := false
  stepped := false
  forced := false
  reason := .initial
  stopNext := .off
  stopLine := .off
  targetDepth := none
  finishDepth := none
  lastPosition := none
  temporary := none
  temporaryCount := 0
  stack := []

/-- The number of frames. -/
def depth (context : Context) : Nat := context.stack.length

/-- The reason of the last halt, as it is reported. -/
def stopReason (context : Context) : StopReason :=
  if context.dead then .postMortem else context.reason

/-- The dead copy of a context. -/
def freeze (scopes : Scopes) (context : Context) : Context :=
  { initial context.thread context.number false with
    dead := true
    reason := context.reason
    lastPosition := context.lastPosition
    stack := context.stack.freeze scopes }

/-- Remembers the position of the innermost frame as that of the last halt. -/
def savePosition (context : Context) : Context :=
  match context.stack with
  | [] => context
  | frame :: _ =>
      { context with
        lastPosition := some frame.position, moved := false, stepped := false, forced := false }

/-- Turns off all steps but the pending return of a frame. -/
def clearSteps (context : Context) : Context :=
  { context with stopNext := .off, stopLine := .off, targetDepth := none }

/-! ## Frames -/

/-- Checks the index of a frame, counted from the innermost one, against the size of a stack. -/
def checkFrame (index : Int) (size : Nat) : Except Error Nat :=
  if index < 0 then .error (.invalidFrame index)
  else if (size : Int) ≤ index then .error (.frameOutOfRange index size)
  else .ok index.toNat

/-- The frame with an index. -/
def frame (context : Context) (index : Int) : Except Error Frame := do
  let i ← checkFrame index context.depth
  match context.stack[i]? with
  | some frame => .ok frame
  | none => .error (.frameOutOfRange index context.depth)

/-- The binding of a frame: the captured one, or else a copy of its variables. -/
def frameBinding (context : Context) (scopes : Scopes) (index : Int) : Except Error Binding := do
  let frame ← context.frame index
  return frame.binding.getD ⟨frame.receiver.getD .nil, .copied (frame.visibleLocals scopes)⟩

/-- The class or module of the method of a frame; dead contexts have none. -/
def frameType (context : Context) (index : Int) : Except Error (Option TypeRef) := do
  let frame ← context.frame index
  if context.dead then return none
  return (frame.enclosingType.map TypeRef.unwrap).filter TypeRef.isNamespace

/-! ## Commands -/

/-- The number of steps that a command may ask for. -/
def checkSteps (n : Int) : Except Error Nat :=
  if 0 ≤ n ∧ n < 4294967296 then .ok n.toNat else .error .negativeSteps

/-- Halts after a number of lines. Only lines at a new position count, unless `force` is set. -/
def step (context : Context) (n : Int) (force : Bool) : Except Error Context := do
  let n ← checkSteps n
  return { context with stopNext := .armed n, forced := force }

/-- Halts on the next line. -/
def interrupt (context : Context) : Except Error Context := context.step 1 false

/-- Halts after a number of lines in a frame, the innermost one if none is given, or once the frame
is left. -/
def stepOver (context : Context) (n : Int) (frame : Option Int) (force : Bool) :
    Except Error Context := do
  let n ← checkSteps n
  if context.stack.isEmpty then throw .noFrames
  let i ← match frame with
    | some index => checkFrame index context.depth
    | none => pure 0
  return { context with
    stopLine := .armed n, stepped := false, targetDepth := some (context.depth - i), forced := force }

/-- Halts in the caller of a frame, once the frame has returned. -/
def stopFrame (context : Context) (index : Int) : Except Error Context := do
  let i ← checkFrame index context.depth
  return { context with finishDepth := some (context.depth - i) }

end Context

end EventDebugger
