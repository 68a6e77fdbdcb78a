import EventDebugger.Context
import EventDebugger.Program
import EventDebugger.Settings

/-!
# Commands

What a script can ask for: of the host, of the debugger and of contexts, sections that run other
commands, and events that threads notify. Threads, scopes, exceptions and contexts are known to a
script by names.
-/

namespace EventDebugger.Script

/-! ## References -/

/-- A value, or the exception with a label. -/
inductive ValueRef where
  | given (value : Value)
  | exception (label : String)
deriving DecidableEq, Repr

/-- A post-mortem: by its index among all of them, or that of the exception with a label. -/
inductive PostMortemRef where
  | numbered (index : Nat)
  | ofException (label : String)
deriving DecidableEq, Repr

/-- A context. -/
inductive ContextRef where
  /-- The context that the front-end was called about, and outside of a call the current one. -/
  | own
  | current
  /-- The context that halted last. -/
  | last
  /-- The dead context of a post-mortem. -/
  | dead (ref : PostMortemRef)
  /-- A context that was kept under a name. -/
  | kept (name : String)
  /-- The context of a thread. -/
  | ofThread (name : String)
deriving DecidableEq, Repr

/-- What is raised: a new exception of a class, or a value. -/
inductive RaisedRef where
  | new (className : String)
  | value (ref : ValueRef)
deriving DecidableEq, Repr

/-- The kind of an event that is to be notified. -/
inductive EventKindRef where
  | plain (kind : EventKind)
  | raise (raised : RaisedRef)
deriving DecidableEq, Repr

/-- An event that is to be notified. -/
structure EventRef where
  kind : EventKindRef
  position : Option Position
  receiver : Option ValueRef
  method : Option String
  enclosingType : Option String
  scope : Option String
  /-- Whether the scope is entered before. -/
  enters : Bool
  /-- The thread to which the system thread is bound before. -/
  thread : Option String
deriving DecidableEq, Repr

/-- A program, or the text of one. -/
inductive ProgramRef where
  | given (program : Program)
  | written (text : String)
deriving Repr

/-- What is done to the context of a replayed thread before it starts. -/
structure Preparation where
  step : Option Int
  force : Bool
  tracing : Option Bool
deriving DecidableEq, Repr

/-! ## Commands -/

/-- What is asked of the host. -/
inductive HostCommand where
  | declare (program : Program)
  /-- Registers a thread under a label. -/
  | spawn (name label : String)
  | bind (thread : String)
  | exit (thread : String)
  | makeDebuggerThread (thread : String)
  | setStatus (thread : String) (status : ThreadStatus)
  | currentThread
  | threads
  | describe (thread : String)
  | find (name : String)
  /-- Makes a scope, which is a block of another one if one is given. -/
  | newScope (scope : String) (outer : Option String)
  | assign (scope name : String) (value : ValueRef)
  | enterScope (scope : String)
  | newException (className label : String)
deriving Repr

/-- What is asked of the debugger. -/
inductive DebuggerCommand where
  | start
  | stop
  | forceStop
  | isStarted
  | addBreakpoint (source : String) (target : BreakpointTarget) (guard : Option String)
  | removeBreakpoint (id : Nat)
  | breakpoints
  | catchpoint
  | setCatchpoint (className : Option String)
  | setPostMortem (on : Bool)
  | setTracing (on : Bool)
  | setKeepFrameBinding (on : Bool)
  | setDebug (on : Bool)
  | settings
  | contexts
  | lastContext
  | interrupt
  | interruptLast
  | suspendAll
  | resumeAll
deriving DecidableEq, Repr

/-- What is asked of a context. -/
inductive ContextCommand where
  | suspend
  | resume
  | describe
  | summarize
  | frame (index : Int)
  | evaluate (index : Int) (condition : String)
  | step (n : Int) (force : Bool)
  | stepOver (n : Int) (frame : Option Int) (force : Bool)
  | stopFrame (index : Int)
  | interrupt
  | setTracing (on : Bool)
  | setTemporary (source : String) (target : BreakpointTarget) (guard : Option String)
  | temporary
  | clearTemporary
deriving DecidableEq, Repr

/-- A command of a script. -/
inductive Command where
  /-- Ends the script with a failure of the front-end. -/
  | fail (message : String)
  | host (command : HostCommand)
  | debugger (command : DebuggerCommand)
  | context (ref : ContextRef) (command : ContextCommand)
  /-- Keeps a context under a name. -/
  | keep (ref : ContextRef) (name : String)
  /-- Compares two contexts. -/
  | same (first second : ContextRef)
  | postMortems
  | postMortem (ref : PostMortemRef)
  | handlePostMortem (ref : PostMortemRef)
  | event (event : EventRef)
  /-- Notifies an event on a new system thread, which may have to wait. -/
  | job (label : String) (event : EventRef)
  /-- Replays a program. Its callbacks are listed by the number of their context if wanted. -/
  | replay (program : ProgramRef) (prepared : List (Option Preparation)) (byContext : Bool)
  | run (commands : List Command)
  | load (stop : Bool) (commands : List Command)
  | skip (commands : List Command)
  | withPostMortem (commands : List Command)
  | repeat (count : Nat) (commands : List Command)
deriving Repr

namespace Command

mutual

/-- How many commands are executed for a command at most, scripts of the front-end apart. -/
def size : Command → Nat
  | .run commands | .load _ commands | .skip commands | .withPostMortem commands =>
      sizeAll commands + 1
  | .repeat count commands => count * sizeAll commands + 1
  | _ => 1

/-- How many commands are executed for commands at most, scripts of the front-end apart. -/
def sizeAll : List Command → Nat
  | [] => 0
  | command :: commands => size command + sizeAll commands

end

end Command

end EventDebugger.Script
