import EventDebugger.Debugger.Activation
import EventDebugger.Debugger.Sections
import EventDebugger.Debugger.Suspension
import EventDebugger.Script.State

/-!
# Primitive commands

The commands that never call the front-end: those of the host, of the debugger and of contexts, and
those that name or compare what a script has seen.
-/

namespace EventDebugger.Script

open Attempt

/-- Carries out a command of the host on a system thread. -/
def HostCommand.perform (system : Nat) : HostCommand → Attempt Reply
  | .declare program => do
      modifyHost (·.declare program)
      return .done
  | .spawn name label => do
      let thread ← onHost (·.register name)
      modifyState fun state => { state with threads := (label, thread) :: state.threads }
      return .thread thread
  | .bind name => do
      let thread ← thread name
      modifyHost (·.bind system thread)
      return .done
  | .exit name => do
      let thread ← thread name
      modifyHost (·.exitThread thread)
      return .done
  | .makeDebuggerThread name => do
      let thread ← thread name
      modifyHost (·.setDebuggerThread thread)
      return .done
  | .setStatus name status => do
      let thread ← thread name
      modifyHost (·.setStatus thread status)
      return .done
  | .currentThread => return .thread (← onHost (·.currentThread system))
  | .threads => return .threads (← debugger).host.liveThreads
  | .describe name => do
      let thread ← thread name
      return .threadInfo ((← debugger).threadInfo thread)
  | .find name => return .ofOption .thread ((← debugger).host.threadNamed? name)
  | .newScope name outer => do
      let scope ← match outer with
        | none => onHost fun host =>
            let (scope, scopes) := host.scopes.enterMethod
            (scope, { host with scopes })
        | some outer => do
            let outer ← scope outer
            onHost fun host =>
              let (scope, scopes) := host.scopes.enterBlock outer
              (scope, { host with scopes })
      modifyState fun state => { state with scopes := (name, scope) :: state.scopes }
      return .done
  | .assign scopeName name ref => do
      let scope ← scope scopeName
      let value ← value ref
      modifyHost fun host => { host with scopes := host.scopes.assign scope name value }
      return .done
  | .enterScope name => do
      let scope ← scope name
      modifyHost (·.enterScope system scope)
      return .done
  | .newException className label => do
      let exception ← onHost (·.newException className)
      modifyState fun state => { state with exceptions := (label, exception) :: state.exceptions }
      return .value exception

/-- Changes the settings. -/
def changeSettings (f : Settings → Settings) : Attempt Reply := do
  perform fun d => .ok { d with settings := f d.settings }
  return .done

/-- Carries out a command of the debugger on a system thread. -/
def DebuggerCommand.perform (system : Nat) : DebuggerCommand → Attempt Reply
  | .start => return .flag (← change fun d => .ok d.start)
  | .stop => return .flag (← change Debugger.stop)
  | .forceStop => do
      Attempt.perform fun d => .ok d.forceStop
      return .done
  | .isStarted => return .flag (← debugger).isStarted
  | .addBreakpoint source target guard =>
      return .breakpoint (← change fun d => d.addBreakpoint source target guard)
  | .removeBreakpoint id =>
      return .ofOption .breakpoint (← change fun d => d.removeBreakpoint id)
  | .breakpoints => return .breakpoints (← query Debugger.breakpoints)
  | .catchpoint => return .ofOption .text (← query Debugger.activeCatchpoint)
  | .setCatchpoint className => do
      Attempt.perform fun d => d.setCatchpoint className
      return .done
  | .setPostMortem on => do
      Attempt.perform fun d => d.setPostMortem on
      return .done
  | .setTracing on => changeSettings ({ · with tracing := on })
  | .setKeepFrameBinding on => changeSettings ({ · with keepFrameBinding := on })
  | .setDebug on => changeSettings ({ · with debug := on })
  | .settings => return .settings (← debugger).settings
  | .contexts => do
      let ids ← change Debugger.liveContexts
      let d ← debugger
      return .contexts (ids.map d.contextEntry)
  | .lastContext => do
      let id ← query Debugger.lastContext
      let d ← debugger
      return .ofOption .number (id.map fun id => (d.context id).number)
  | .interrupt => do
      onDebugger fun d => d.interrupt system
      return .done
  | .interruptLast => do
      let id ← change Debugger.interruptLast
      let d ← debugger
      return .ofOption .number (id.map fun id => (d.context id).number)
  | .suspendAll => do
      Attempt.perform fun d => d.suspendAll system
      return .done
  | .resumeAll => do
      Attempt.perform fun d => d.resumeAll system
      return .done

/-- Commands a context. -/
def commandContext (id : ContextId) (f : Context → Except Error Context) : Attempt Reply := do
  perform fun d => d.command id f
  return .done

/-- Carries out a command of a context. -/
def ContextCommand.perform (id : ContextId) : ContextCommand → Attempt Reply
  | .suspend => do
      Attempt.perform fun d => d.suspend id
      return .done
  | .resume => do
      Attempt.perform fun d => d.resume id
      return .done
  | .describe => return .contextInfo (← query fun d => d.inspect id fun context => .ok context.info)
  | .summarize => return .summary (← query fun d => d.glance id)
  | .frame index => return .frame (← query fun d => d.frameView id index)
  | .evaluate index condition => do
      match (← debugger).evaluateIn id index condition with
      | .ok holds => return .flag holds
      | .error failure => throw failure
  | .step n force => commandContext id (·.step n force)
  | .stepOver n index force => commandContext id (·.stepOver n index force)
  | .stopFrame index => commandContext id (·.stopFrame index)
  | .interrupt => commandContext id Context.interrupt
  | .setTracing on => commandContext id fun context => .ok { context with tracing := on }
  | .setTemporary source target guard =>
      return .breakpoint (← change fun d => d.setTemporary id source target guard)
  | .temporary =>
      return .ofOption .breakpoint
        (← query fun d => d.inspect id fun context => .ok context.temporary)
  | .clearTemporary => return .ofOption .breakpoint (← change fun d => d.clearTemporary id)

/-- Keeps a context under a name. -/
def keepContext (place : Place) (ref : ContextRef) (name : String) : Attempt Reply := do
  let id ← Attempt.context place ref
  modifyState fun state => { state with contexts := (name, id) :: state.contexts }
  return .number ((← debugger).context id).number

/-- Compares two contexts. -/
def sameContext (place : Place) (first second : ContextRef) : Attempt Reply := do
  let first ← Attempt.context place first
  let second ← Attempt.context place second
  return .flag (first == second)

/-- Shows all post-mortems. -/
def listPostMortems : Attempt Reply := do
  let d ← debugger
  return .postMortems (d.postMortems.map fun entry => d.postMortemView entry.2)

/-- Shows a post-mortem. -/
def describePostMortem (ref : PostMortemRef) : Attempt Reply := do
  let postMortem ← postMortem ref
  return .postMortem ((← debugger).postMortemView postMortem)

end EventDebugger.Script
