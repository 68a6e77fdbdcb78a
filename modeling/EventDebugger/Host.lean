import EventDebugger.Binding
import EventDebugger.Program
import EventDebugger.TypeRef

/-!
# The host

The runtime whose events are debugged: its threads, the variables of its scopes, the modules and
exception classes that programs declare. Every thread of the host runs on a thread of the operating
system, which is addressed by a number; a system thread that asks for its host thread before it was
bound to one is registered as a new thread.
-/

namespace EventDebugger

/-- A thread of the host. Its number is its own, its name need not be. -/
structure Thread where
  id : Nat
  name : String
deriving DecidableEq, Repr, Inhabited

/-- How a thread is shown. -/
def Thread.text (thread : Thread) : String :=
  "#<Thread:" ++ String.ofList (Text.Decimal.render thread.id) ++ " " ++ thread.name ++ ">"

/-- What the host knows about the scheduling of a thread. -/
inductive ThreadStatus where
  | running
  | sleeping
  | other
deriving DecidableEq, Repr

/-- The state of a thread. -/
structure ThreadRecord where
  thread : Thread
  systemThread : Option Nat
  status : ThreadStatus
  alive : Bool
  /-- Whether the thread belongs to the front-end of the debugger. -/
  ofDebugger : Bool
  /-- The scope that new bindings of the thread capture. -/
  scope : Scope
deriving DecidableEq, Repr

/-- The state of the host. -/
structure Host where
  /-- All threads, in the order of their registration. -/
  threads : List ThreadRecord
  /-- The host thread of each bound system thread. -/
  bound : List (Nat × Thread)
  /-- The number of the thread registered last. -/
  threadCount : Nat
  /-- The names of the declared modules. -/
  modules : List String
  /-- The parents of the declared exception classes, the latest declaration first. -/
  parents : List (String × Option String)
  /-- The number of the exception raised last. -/
  raiseCount : Nat
  scopes : Scopes
deriving DecidableEq, Repr

namespace Host

/-- The exception classes that every program knows, with their parents. -/
def builtinExceptions : List (String × Option String) :=
  [("Exception", none), ("StandardError", some "Exception"), ("RuntimeError", some "StandardError"),
    ("ArgumentError", some "StandardError"), ("SystemExit", some "Exception"),
    ("Interrupt", some "Exception")]

/-- The ancestors of every object. -/
def rootAncestors : List String := ["Object", "Kernel", "BasicObject"]

/-- A host without threads that knows the builtin modules and exceptions. -/
def initial : Host where
  threads := []
  bound := []
  threadCount := 0
  modules := ["Kernel", "Comparable", "Enumerable"]
  parents := builtinExceptions
  raiseCount := 0
  scopes := .empty

/-! ## Declarations -/

/-- Declares a type: modules are remembered, other kinds need not be. -/
def declareType (host : Host) (decl : TypeDecl) : Host :=
  if decl.kind = some "module" ∧ ¬ host.modules.contains decl.name then
    { host with modules := host.modules ++ [decl.name] }
  else host

/-- Declares an exception class, under `StandardError` if no parent is given. -/
def declareException (host : Host) (decl : ExceptionDecl) : Host :=
  { host with parents := (decl.name, some (decl.parent.getD "StandardError")) :: host.parents }

/-- Declares the types and the exception classes of a program. -/
def declare (host : Host) (program : Program) : Host :=
  program.exceptions.foldl declareException (program.types.foldl declareType host)

/-! ## Threads -/

/-- The state of a thread. -/
def record? (host : Host) (thread : Thread) : Option ThreadRecord :=
  host.threads.find? fun record => record.thread == thread

/-- Changes the state of a thread. -/
def updateThread (host : Host) (thread : Thread) (f : ThreadRecord → ThreadRecord) : Host :=
  { host with
    threads := host.threads.map fun record => if record.thread = thread then f record else record }

/-- Registers a new live thread that is not bound to a system thread. -/
def register (host : Host) (name : String) : Thread × Host :=
  let thread : Thread := ⟨host.threadCount + 1, name⟩
  let (scope, scopes) := host.scopes.enterMethod
  (thread, { host with
    threads := host.threads ++ [⟨thread, none, .running, true, false, scope⟩]
    threadCount := host.threadCount + 1
    scopes })

/-- Binds a system thread to a host thread. -/
def bind (host : Host) (system : Nat) (thread : Thread) : Host :=
  let host := host.updateThread thread fun record => { record with systemThread := some system }
  { host with bound := (system, thread) :: host.bound.filter fun entry => entry.1 != system }

/-- The name of a thread that registers itself. -/
def selfRegisteredName (host : Host) : String :=
  if host.threads.isEmpty then "main"
  else "thread-" ++ String.ofList (Text.Decimal.render (host.threadCount + 1))

/-- The host thread of a system thread, which is registered if it is not bound. -/
def currentThread (host : Host) (system : Nat) : Thread × Host :=
  match host.bound.lookup system with
  | some thread => (thread, host)
  | none =>
      let (thread, host) := host.register host.selfRegisteredName
      (thread, host.bind system thread)

/-- Marks a thread as exited and unbinds the system thread that it was last bound to. -/
def exitThread (host : Host) (thread : Thread) : Host :=
  match host.record? thread with
  | none => host
  | some record =>
      let exited := host.updateThread thread fun record =>
        { record with alive := false, systemThread := none }
      match record.systemThread with
      | some system => { exited with bound := exited.bound.filter fun entry => entry.1 != system }
      | none => exited

/-- Sets the scheduling status of a thread. -/
def setStatus (host : Host) (thread : Thread) (status : ThreadStatus) : Host :=
  host.updateThread thread fun record => { record with status }

/-- Marks a thread as belonging to the front-end of the debugger. -/
def setDebuggerThread (host : Host) (thread : Thread) : Host :=
  host.updateThread thread fun record => { record with ofDebugger := true }

/-- Sets the scope that new bindings of the current thread capture. -/
def enterScope (host : Host) (system : Nat) (scope : Scope) : Host :=
  let (thread, host) := host.currentThread system
  host.updateThread thread fun record => { record with scope }

/-- The first thread with a name. -/
def threadNamed? (host : Host) (name : String) : Option Thread :=
  (host.threads.find? fun record => record.thread.name == name).map (·.thread)

/-- The live threads, in the order of their registration. -/
def liveThreads (host : Host) : List Thread :=
  (host.threads.filter (·.alive)).map (·.thread)

/-- Whether a thread is alive. -/
def isAlive (host : Host) (thread : Thread) : Bool :=
  match host.record? thread with
  | some record => record.alive
  | none => false

/-- The scheduling status of a live thread; threads that exited have none of their own. -/
def status (host : Host) (thread : Thread) : ThreadStatus :=
  match host.record? thread with
  | some record => if record.alive then record.status else .other
  | none => .other

/-- Whether a thread belongs to the front-end of the debugger. -/
def isDebuggerThread (host : Host) (thread : Thread) : Bool :=
  match host.record? thread with
  | some record => record.ofDebugger
  | none => false

/-- A binding of a receiver in the current scope of the current thread. -/
def createBinding (host : Host) (system : Nat) (receiver : Value) : Binding × Host :=
  let (thread, host) := host.currentThread system
  match host.record? thread with
  | some record => (⟨receiver, .live record.scope⟩, host)
  | none => (⟨receiver, .copied []⟩, host)

/-- A binding for each receiver that is there. -/
def createBinding? (host : Host) (system : Nat) : Option Value → Option Binding × Host
  | none => (none, host)
  | some receiver =>
      let (binding, host) := host.createBinding system receiver
      (some binding, host)

/-! ## Types, methods and exceptions -/

/-- The shape of a type. -/
def shape (host : Host) (type : TypeRef) : TypeShape := type.shape host.modules

/-- The method that allocates objects, whose events are of no interest. -/
def isAllocator (method : Option String) : Bool := method == some "allocate"

/-- An exception of a class, different from all made before. -/
def newException (host : Host) (className : String) : Value × Host :=
  (.exception className (host.raiseCount + 1), { host with raiseCount := host.raiseCount + 1 })

/-- The declared parent of an exception class. -/
def parent? (host : Host) (className : String) : Option String :=
  (host.parents.lookup className).join

/-- The classes from `className` on along the declared parents, up to one that has no parent or
whose parent is already in the chain. At most `n` classes are followed. -/
def chain (host : Host) (seen : List String) (className : String) : Nat → List String
  | 0 => []
  | n + 1 =>
      if seen.contains className then []
      else
        className :: match host.parent? className with
          | some parent => host.chain (className :: seen) parent n
          | none => []

/-- The ancestors of an exception or an instance, its class first. The chain has one class more than
there are declarations at most. -/
def ancestors (host : Host) (value : Value) : List String :=
  match value with
  | .exception className _ | .object className =>
      host.chain [] className (host.parents.length + 1) ++ rootAncestors
  | _ => rootAncestors

/-- Whether a value is the exception that ends the program. -/
def isExit : Value → Bool
  | .exception className _ => className == "SystemExit"
  | _ => false

end Host

end EventDebugger
