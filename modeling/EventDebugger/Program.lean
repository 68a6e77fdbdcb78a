/-!
# Programs

Scripted programs of several threads: declarations of types and exception classes, and for each
thread the steps that it executes.
-/

namespace EventDebugger

/-- Declares a type. -/
structure TypeDecl where
  name : String
  /-- `module` for a module, anything else for a class. -/
  kind : Option String
deriving DecidableEq, Repr

/-- Declares an exception class. -/
structure ExceptionDecl where
  name : String
  parent : Option String
deriving DecidableEq, Repr

/-- A step of a thread. -/
inductive Step where
  /-- Executes a line. -/
  | line (file : String) (line : Nat)
  /-- Evaluates the condition of a control structure on a line. -/
  | branch (file : String) (line : Nat)
  /-- Calls a method. Its type, file and line are the caller's unless given. -/
  | call (method : String) (type file : Option String) (line : Option Nat) (body : List Step)
  /-- Calls a native method, with its body as a block if there is one. -/
  | nativeCall (method : String) (type : Option String) (body : List Step)
  /-- Executes the body of a class. -/
  | classBody (name : String) (line : Option Nat) (body : List Step)
  /-- Notifies the return of a method without leaving the current one. -/
  | bareReturn (method : String)
  /-- Assigns a variable the value of a text. -/
  | assign (name value : String)
  | sleep (millis : Nat)
  | pause (millis : Nat)
  | raise (className : String)
  /-- Catches what its body raises. -/
  | rescue (body : List Step)
  | repeat (count : Nat) (body : List Step)
deriving Repr, Inhabited

/-- A thread of a program. -/
structure ThreadDecl where
  name : String
  /-- `debugger` for a thread of the front-end. -/
  role : Option String
  steps : List Step
deriving Repr

/-- Whether a thread belongs to the front-end of the debugger. -/
def ThreadDecl.isDebugger (decl : ThreadDecl) : Bool := decl.role == some "debugger"

/-- A program: declarations and threads. -/
structure Program where
  types : List TypeDecl
  exceptions : List ExceptionDecl
  threads : List ThreadDecl
deriving Repr

end EventDebugger
