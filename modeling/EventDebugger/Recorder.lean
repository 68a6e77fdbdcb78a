import EventDebugger.Config
import EventDebugger.Debugger.Handling
import EventDebugger.Kdl.Writer

/-!
# The recorder

A front-end that needs no user: it records every halt and every traced line, and resumes a halted
context with the command of a mode. What announces a halt, a breakpoint or an exception, comes before
the halt and is kept until then.
-/

namespace EventDebugger

/-- What is recorded of a halt. -/
structure HaltRecord where
  /-- The name of the thread. -/
  thread : String
  /-- The number of the context. -/
  number : Nat
  position : Position
  reason : StopReason
  depth : Nat
  /-- The method of the innermost frame. -/
  method : Option String
  breakpoint : Option Nat
  exception : Option String
  /-- The user's variables of the innermost frame, with their texts. -/
  locals : List (String × String)
deriving DecidableEq, Repr

/-- What is recorded of a traced line. -/
structure TraceRecord where
  number : Nat
  position : Position
  depth : Nat
deriving DecidableEq, Repr

/-- What is recorded. -/
inductive Record where
  | halt (record : HaltRecord)
  | trace (record : TraceRecord)
deriving DecidableEq, Repr

/-- What announces a halt. -/
inductive Announcement where
  | breakpoint (id : Nat)
  | exception (className : String)
deriving DecidableEq, Repr

namespace Announcement

/-- The announced breakpoint. -/
def breakpoint? : Announcement → Option Nat
  | .breakpoint id => some id
  | .exception _ => none

/-- The announced exception class. -/
def exception? : Announcement → Option String
  | .breakpoint _ => none
  | .exception className => some className

/-- Announces an exception: by its class, and any other value by its text. -/
def ofException : Value → Announcement
  | .exception className _ => .exception className
  | value => .exception value.text

end Announcement

/-- The state of the recorder. -/
structure Recorder where
  mode : ResumeMode
  /-- In the order of their occurrence. -/
  records : Array Record
  announced : Option Announcement
deriving DecidableEq, Repr

/-- The command of a mode for a halted context. -/
def ResumeMode.command : ResumeMode → Context → Except Error Context
  | .continue, context => .ok context
  | .step, context => context.step 1 false
  | .next, context => context.stepOver 1 none false
  | .finish, context => context.stopFrame 0

namespace Recorder

/-- A recorder without records. -/
def initial (mode : ResumeMode) : Recorder := ⟨mode, #[], none⟩

/-- Adds a record. -/
def add (recorder : Recorder) (record : Record) : Recorder :=
  { recorder with records := recorder.records.push record }

/-- What is recorded of a context that halts at a position. -/
def haltRecord (scopes : Scopes) (position : Position) (announced : Option Announcement)
    (context : Context) : Except Error HaltRecord := do
  let frame ← context.frame 0
  return {
    thread := context.thread.name
    number := context.number
    position
    reason := context.stopReason
    depth := context.depth
    method := frame.method
    breakpoint := announced.bind Announcement.breakpoint?
    exception := announced.bind Announcement.exception?
    locals := (frame.visibleLocals scopes).map fun slot => (slot.1, slot.2.text) }

/-- Records a halt and resumes its context. -/
def onHalt (id : ContextId) (position : Position) : Run Recorder (Except Error Unit) := do
  let announced ← Run.onFront fun recorder =>
    (recorder.announced, { recorder with announced := none })
  let d ← Run.debugger
  match d.inspect id (haltRecord d.host.scopes position announced) with
  | .error error => return .error error
  | .ok record =>
      Run.modifyFront fun recorder => recorder.add (.halt record)
      let mode := (← Run.front).mode
      Run.perform fun d => d.command id mode.command

/-- Records a traced line. -/
def onTrace (id : ContextId) (position : Position) : Run Recorder (Except Error Unit) := do
  let d ← Run.debugger
  match d.inspect id fun context => .ok ⟨context.number, position, context.depth⟩ with
  | .error error => return .error error
  | .ok record =>
      Run.modifyFront fun recorder => recorder.add (.trace record)
      return .ok ()

/-- Keeps what announces a halt. -/
def announce (announcement : Announcement) : Run Recorder (Except Error Unit) := do
  Run.modifyFront fun recorder => { recorder with announced := some announcement }
  return .ok ()

/-- The recorder as a front-end. -/
def frontEnd : FrontEnd Recorder Error := fun _ callback =>
  match callback with
  | .line id position => onHalt id position
  | .tracing id position => onTrace id position
  | .breakpoint _ bp => announce (.breakpoint bp.id)
  | .catchpoint _ exception => announce (.ofException exception)

end Recorder

/-! ## Written records -/

/-- The name of a reason. -/
def StopReason.name : StopReason → String
  | .initial => "initial"
  | .step => "step"
  | .breakpoint => "breakpoint"
  | .catchpoint => "catchpoint"
  | .postMortem => "post-mortem"

open Kdl (Entry Node)

namespace HaltRecord

/-- The properties of a written halt. -/
def properties (record : HaltRecord) : List Entry :=
  [.textProperty "thread" record.thread, .natProperty "thnum" record.number,
    .textProperty "reason" record.reason.name, .natProperty "depth" record.depth] ++
  (record.method.map (Entry.textProperty "method")).toList ++
  (record.breakpoint.map (Entry.natProperty "breakpoint")).toList ++
  (record.exception.map (Entry.textProperty "exception")).toList

/-- A halt as a node, its variables as child nodes. -/
def toNode (record : HaltRecord) : Node :=
  .mk none "halt"
    ([.textArgument record.position.file, .natArgument record.position.line] ++ record.properties)
    (record.locals.map fun slot =>
      .mk none "local" [.textArgument slot.1, .textArgument slot.2] [])

end HaltRecord

/-- A traced line as a node. -/
def TraceRecord.toNode (record : TraceRecord) : Node :=
  .mk none "trace"
    [.textArgument record.position.file, .natArgument record.position.line,
      .natProperty "thnum" record.number, .natProperty "depth" record.depth] []

namespace Record

/-- A record as a node. -/
def toNode : Record → Node
  | .halt record => record.toNode
  | .trace record => record.toNode

/-- Records as a text. -/
def dump (records : List Record) : String := Kdl.Writer.writeDocument (records.map toNode)

end Record

end EventDebugger
