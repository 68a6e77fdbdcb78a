import EventDebugger.Debugger.Tracking
import EventDebugger.Script.Report

/-!
# Inspection

How contexts, frames, bindings and threads are shown.
-/

namespace EventDebugger

open Script

/-- A frame at a glance: its position, and its method if it has one. -/
def Frame.text (frame : Frame) : String :=
  let place := frame.position.file ++ ":" ++ String.ofList (Text.Decimal.render frame.position.line)
  match frame.method with
  | some method => place ++ "#" ++ method
  | none => place

/-- A context at a glance: its six innermost frames. -/
def Context.summary (context : Context) : Summary :=
  ⟨context.number, context.depth, context.stopReason, (context.stack.take 6).map Frame.text⟩

/-- The state of a context. -/
def Context.info (context : Context) : ContextInfo where
  number := context.number
  thread := context.thread
  depth := context.depth
  reason := context.stopReason
  suspended := context.suspended
  ignored := context.ignored
  dead := context.dead
  tracing := context.tracing
  temporary := context.temporary

/-- A binding with its variables. -/
def Binding.view (binding : Binding) (scopes : Scopes) : BindingView :=
  match binding.vars with
  | .live scope => ⟨binding.receiver, .live (scopes.methodVars scope) (scopes.blockVars scope)⟩
  | .copied vars => ⟨binding.receiver, .copied vars⟩

namespace Debugger

/-- A context at a glance, if the debugger is active. -/
def glance (d : Debugger) (id : ContextId) : Glance := d.inspect id fun context => .ok context.summary

/-- The user's variables of the innermost frame of a context. -/
def innermostLocals (d : Debugger) (id : ContextId) : Except Error Vars :=
  d.inspect id fun context => do return (← context.frame 0).visibleLocals d.host.scopes

/-- What is known about a frame of a context. -/
def frameView (d : Debugger) (id : ContextId) (index : Int) : Except Error FrameView :=
  d.inspect id fun context => do
    let frame ← context.frame index
    let type ← context.frameType index
    let binding ← context.frameBinding d.host.scopes index
    return {
      position := frame.position
      method := frame.method
      receiver := frame.receiver
      enclosingType := type.map fun type => (type, d.host.shape type)
      locals := frame.visibleLocals d.host.scopes
      binding := binding.view d.host.scopes }

/-- Evaluates a condition in the binding of a frame. -/
def evaluateIn (d : Debugger) (id : ContextId) (index : Int) (condition : String) :
    Except Failure Bool := do
  let binding ← (d.inspect id (·.frameBinding d.host.scopes index)).mapError .debugger
  (Condition.evaluate (d.readVariable (some binding)) condition).mapError .condition

/-- The state of a thread. -/
def threadInfo (d : Debugger) (thread : Thread) : ThreadInfo :=
  ⟨thread, d.host.isAlive thread, d.host.status thread, d.host.isDebuggerThread thread⟩

/-- A context in a list of contexts. -/
def contextEntry (d : Debugger) (id : ContextId) : ContextEntry :=
  let context := d.context id
  ⟨context.number, context.thread, context.suspended⟩

/-- A post-mortem with its context at a glance. -/
def postMortemView (d : Debugger) (postMortem : PostMortem) : PostMortemView :=
  ⟨postMortem.position, postMortem.binding.map (·.view d.host.scopes), d.glance postMortem.context⟩

/-- A call of the front-end, with its context at a glance. -/
def callbackView (d : Debugger) : Callback → CallbackView
  | .line id position => .line position (d.innermostLocals id) (d.glance id)
  | .breakpoint id bp => .breakpoint bp.id (d.glance id)
  | .catchpoint id exception => .catchpoint exception (d.glance id)
  | .tracing id position => .tracing position (d.glance id)

end Debugger

end EventDebugger
