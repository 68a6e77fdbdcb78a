import EventDebugger.Condition
import EventDebugger.Debugger.Dispatch

/-!
# Reports

What a script shows: the answer of each step, the calls of the front-end during the step with what
they did themselves, and the jobs that finished.
-/

namespace EventDebugger.Script

/-- Why a command failed. -/
inductive Failure where
  | debugger (error : Error)
  | frontEnd (message : String)
  | condition (error : ConditionError)
  /-- There is no such post-mortem. -/
  | noPostMortem
  /-- There is no such context. -/
  | noContext
  | malformedProgram
  /-- Nothing has this name. -/
  | unknown (name : String)
deriving DecidableEq, Repr

/-- The failure of an event. -/
def Failure.ofHook : HookError String → Failure
  | .frontEnd message => .frontEnd message
  | .debugger error => .debugger error

/-! ## Views -/

/-- A context at a glance. -/
structure Summary where
  number : Nat
  depth : Nat
  reason : StopReason
  /-- The innermost frames. -/
  frames : List String
deriving DecidableEq, Repr

/-- A summary, if the debugger is active. -/
abbrev Glance := Except Error Summary

/-- The state of a context. -/
structure ContextInfo where
  number : Nat
  thread : Thread
  depth : Nat
  reason : StopReason
  suspended : Bool
  ignored : Bool
  dead : Bool
  tracing : Bool
  temporary : Option Breakpoint
deriving DecidableEq, Repr

/-- The variables of a binding. -/
inductive VarsView where
  | live (method block : Vars)
  | copied (vars : Vars)
deriving DecidableEq, Repr

/-- A binding with its variables. -/
structure BindingView where
  receiver : Value
  vars : VarsView
deriving DecidableEq, Repr

/-- What is known about a frame. -/
structure FrameView where
  position : Position
  method : Option String
  receiver : Option Value
  /-- The class or module of the method, with its shape. -/
  enclosingType : Option (TypeRef × TypeShape)
  locals : Vars
  binding : BindingView
deriving DecidableEq, Repr

/-- The state of a thread. -/
structure ThreadInfo where
  thread : Thread
  alive : Bool
  status : ThreadStatus
  ofDebugger : Bool
deriving DecidableEq, Repr

/-- A post-mortem with its context at a glance. -/
structure PostMortemView where
  position : Position
  binding : Option BindingView
  context : Glance

/-- A context in a list of contexts. -/
structure ContextEntry where
  number : Nat
  thread : Thread
  suspended : Bool
deriving DecidableEq, Repr

/-- A call of the front-end, with its context at a glance. -/
inductive CallbackView where
  /-- A halt, with the user's variables of the innermost frame. -/
  | line (position : Position) (locals : Except Error Vars) (context : Glance)
  | breakpoint (id : Nat) (context : Glance)
  | catchpoint (exception : Value) (context : Glance)
  | tracing (position : Position) (context : Glance)

/-- The context of a call at a glance. -/
def CallbackView.context : CallbackView → Glance
  | .line _ _ context | .breakpoint _ context | .catchpoint _ context | .tracing _ context => context

/-- The number of the context of a call, zero if the debugger was not active. -/
def CallbackView.number (view : CallbackView) : Nat :=
  match view.context with
  | .ok summary => summary.number
  | .error _ => 0

/-! ## Replies and reports -/

/-- The reply to a command. -/
inductive Reply where
  | done
  | spawned
  | nothing
  | flag (b : Bool)
  | number (n : Nat)
  | text (s : String)
  | value (value : Value)
  | thread (thread : Thread)
  | threads (threads : List Thread)
  | threadInfo (info : ThreadInfo)
  | breakpoint (bp : Breakpoint)
  | breakpoints (bps : List Breakpoint)
  | settings (settings : Settings)
  | contexts (entries : List ContextEntry)
  | contextInfo (info : ContextInfo)
  | summary (summary : Summary)
  | frame (view : FrameView)
  | postMortem (view : PostMortemView)
  | postMortems (views : List PostMortemView)
  | failed (failure : Failure)

/-- The reply that an optional part of it makes. -/
def Reply.ofOption {α : Type} (reply : α → Reply) : Option α → Reply
  | some a => reply a
  | none => .nothing

/-- How a job ended. -/
structure JobReport where
  label : String
  result : Except Failure Unit

/-- The report of a step. -/
structure StepReport where
  /-- The reply, or the steps of a section. -/
  answer : Reply ⊕ List StepReport
  /-- The calls of the front-end, with the steps of the script that they executed if they did. -/
  callbacks : List (CallbackView × Option (List StepReport))
  /-- The jobs that finished, in the order of their creation. -/
  jobs : List JobReport
  /-- The current context after an event. -/
  context : Option Glance

/-- The report of a call of the front-end. -/
abbrev CallbackReport := CallbackView × Option (List StepReport)

end EventDebugger.Script
