import EventDebugger.Proofs.Schedule.Recording

/-!
# What observation leaves behind

Three settings only observe: whether a frame keeps its binding, whether something is printed, and how often
exited threads are forgotten. So does tracing, but for its records. A bare debugger is one without what these
settings leave behind, and if traces do not matter, one that traces nothing.

* `Debugger.Shares`: a debugger, and another one that is the same but for what observation leaves behind.
* `Debugger.Shares.updateContext`: the same change of a context in two debuggers.
-/

namespace EventDebugger

/-! ## Contexts -/

def Frame.bare (frame : Frame) : Frame := { frame with binding := none }

namespace Context

def bare (traces : Bool) (context : Context) : Context :=
  { context with tracing := traces && context.tracing, stack := context.stack.map Frame.bare }

def Bares (traces : Bool) (f g : Context → Context) : Prop :=
  ∀ context, (f context).bare traces = g (context.bare traces)

variable {traces : Bool}

theorem bare_initial (thread : Thread) (number : Nat) (ignored : Bool) :
    (initial thread number ignored).bare traces = initial thread number ignored := by
  cases traces <;> rfl

theorem depth_bare (context : Context) : (context.bare traces).depth = context.depth := List.length_map _

theorem isEmpty_bare (context : Context) : (context.bare traces).stack.isEmpty = context.stack.isEmpty :=
  List.isEmpty_map

theorem map_modifyTop (stack : CallStack) {f g : Frame → Frame}
    (hf : ∀ frame, (f frame).bare = g frame.bare) :
    (stack.modifyTop f).map Frame.bare = CallStack.modifyTop (stack.map Frame.bare) g := by
  cases stack with
  | nil => rfl
  | cons frame rest => exact congrArg (· :: rest.map Frame.bare) (hf frame)

theorem map_popMatching (stack : CallStack) (method : Option String) :
    (stack.popMatching method).map Frame.bare = CallStack.popMatching (stack.map Frame.bare) method := by
  unfold CallStack.popMatching
  rw [List.map_drop, List.dropWhile_map]
  rfl

namespace Bares

theorem noteEvent (position : Option Position) (isLine : Bool) :
    Bares traces (·.noteEvent position isLine) (·.noteEvent position isLine) := fun _ => rfl

theorem clearSteps : Bares traces clearSteps clearSteps := fun _ => rfl

theorem push (frame : Frame) : Bares traces (·.push frame) (·.push frame.bare) := fun _ => rfl

theorem modifyTop {f g : Frame → Frame} (hf : ∀ frame, (f frame).bare = g frame.bare) :
    Bares traces (fun context => { context with stack := context.stack.modifyTop f })
      fun context => { context with stack := context.stack.modifyTop g } :=
  fun context => congrArg (fun stack => { context.bare traces with stack }) (map_modifyTop context.stack hf)

theorem moveTop (event : Event) (position : Position) (native : Bool) :
    Bares traces (·.moveTop event position native) (·.moveTop event position native) :=
  modifyTop fun _ => rfl

theorem setTopBinding (binding : Option Binding) : Bares traces (·.setTopBinding binding) id := by
  intro context
  have kept : (context.bare traces).stack.modifyTop id = (context.bare traces).stack := by
    cases (context.bare traces).stack <;> rfl
  refine (modifyTop (f := fun frame => { frame with binding }) (g := id) (fun _ => rfl) context).trans ?_
  exact congrArg (fun stack => { context.bare traces with stack }) kept

theorem captured (binding : Option Binding) :
    Bares traces (fun context => { context.setTopBinding binding with reason := .step })
      fun context => { context with reason := .step } := fun context =>
  congrArg (fun context : Context => { context with reason := .step }) (setTopBinding binding context)

theorem countLine (moved : Bool) : Bares traces (·.countLine moved) (·.countLine moved) := by
  intro context
  have target : (context.bare traces).targetDepth = context.targetDepth := rfl
  simp only [Context.countLine, target, depth_bare]
  split
  · rfl
  · split
    · rfl
    · split <;> rfl

theorem savePosition : Bares traces savePosition savePosition := by
  intro context
  cases framed : context.stack <;> simp [Context.savePosition, Context.bare, framed, Frame.bare]

theorem returnFrom (method : Option String) : Bares traces (·.returnFrom method) (·.returnFrom method) := by
  intro context
  have finish : (context.bare traces).finishDepth = context.finishDepth := rfl
  simp only [Context.returnFrom, finish, depth_bare]
  have popped := map_popMatching context.stack method
  split <;> exact congrArg (fun stack => ({ bare traces _ with stack } : Context)) popped

theorem freeze (scopes : Scopes) : Bares traces (·.freeze scopes) (·.freeze scopes) := by
  intro context
  have same : (context.stack.freeze scopes).map Frame.bare =
      CallStack.freeze scopes (context.stack.map Frame.bare) := by
    simp only [CallStack.freeze, List.map_map]
    rfl
  have off : (traces && false) = false := Bool.and_false traces
  exact congrArg₂ (fun (stack : CallStack) tracing => { context.freeze scopes with stack, tracing }) same off

end Bares

end Context

/-! ## Debuggers -/

def Settings.bare (traces : Bool) (settings : Settings) : Settings :=
  { settings with
    tracing := traces && settings.tracing, keepFrameBinding := false, debug := false, pruneInterval := 0 }

namespace Debugger

def bare (traces : Bool) (d : Debugger) : Debugger :=
  { d with
    settings := d.settings.bare traces, contexts := d.contexts.map (Context.bare traces), prunedAt := 0 }

def Shares (traces : Bool) (d e : Debugger) : Prop := e.bare true = d.bare traces

structure Both {α : Type} (traces : Bool) (x y : α × Debugger) : Prop where
  same : y.1 = x.1
  shares : x.2.Shares traces y.2

variable {traces : Bool} {d e : Debugger}

theorem bare_initial (settings : Settings) : (initial settings).bare traces = initial (settings.bare traces) :=
  congrArg (fun contexts => { initial (settings.bare traces) with contexts }) Array.map_empty

theorem context_bare (d : Debugger) (id : ContextId) :
    (d.bare traces).context id = (d.context id).bare traces := by
  simp only [context, bare, Array.getD_eq_getD_getElem?, Array.getElem?_map]
  cases d.contexts[id]? with
  | none => exact (Context.bare_initial ..).symm
  | some context => rfl

theorem bare_updateContext (d : Debugger) (id : ContextId) {f g : Context → Context}
    (hf : Context.Bares traces f g) :
    (d.updateContext id f).bare traces = (d.bare traces).updateContext id g := by
  have contexts : (d.contexts.modify id f).map (Context.bare traces) =
      (d.contexts.map (Context.bare traces)).modify id g := by
    apply Array.ext
    · simp
    · intro i inside inside'
      simp only [Array.getElem_map, Array.getElem_modify]
      split
      · exact hf _
      · rfl
  exact congrArg (fun contexts => { d.bare traces with contexts }) contexts

namespace Shares

variable (h : d.Shares traces e)
include h

theorem host : e.host = d.host := congrArg (·.host) h

theorem session : e.session = d.session := congrArg (·.session) h

theorem catchpoint : e.catchpoint = d.catchpoint := congrArg (·.catchpoint) h

theorem postMortems : e.postMortems = d.postMortems := congrArg (·.postMortems) h

theorem size : e.contexts.size = d.contexts.size := by
  have sizes : (e.contexts.map (Context.bare true)).size = (d.contexts.map (Context.bare traces)).size :=
    congrArg (·.contexts.size) h
  simpa only [Array.size_map] using sizes

theorem isStarted : e.isStarted = d.isStarted := congrArg (·.isStarted) h

theorem postMortem : e.settings.postMortem = d.settings.postMortem := congrArg (·.settings.postMortem) h

theorem tracing : e.settings.tracing = (traces && d.settings.tracing) := congrArg (·.settings.tracing) h

theorem opensNativeFrame : e.opensNativeFrame = d.opensNativeFrame := by
  have types : e.settings.blockHostTypes = d.settings.blockHostTypes := congrArg (·.settings.blockHostTypes) h
  funext type blockGiven
  simp only [Debugger.opensNativeFrame, types]

theorem context (id : ContextId) : (e.context id).bare true = (d.context id).bare traces := by
  rw [← context_bare, ← context_bare, h]

theorem tracing_context (id : ContextId) : (e.context id).tracing = (traces && (d.context id).tracing) :=
  congrArg (·.tracing) (h.context id)

theorem reads {α : Type} (id : ContextId) (f : Context → α)
    (hf : ∀ (traces : Bool) context, f (context.bare traces) = f context) :
    f (e.context id) = f (d.context id) := by
  rw [← hf true, h.context, hf]

theorem change (f : Debugger → Debugger) (hf : ∀ (traces : Bool) d, (f d).bare traces = f (d.bare traces)) :
    (f d).Shares traces (f e) := by
  rw [Shares, hf, hf, h]

theorem updateContext (id : ContextId) {f f' g : Context → Context} (hf : Context.Bares traces f g)
    (hf' : Context.Bares true f' g) : (d.updateContext id f).Shares traces (e.updateContext id f') := by
  rw [Shares, bare_updateContext e id hf', bare_updateContext d id hf, h]

theorem addContext {context context' : Context} (same : context'.bare true = context.bare traces) :
    Both traces (d.addContext context) (e.addContext context') := by
  have added {traces : Bool} (d : Debugger) (context : Context) :
      (d.addContext context).2.bare traces = ((d.bare traces).addContext (context.bare traces)).2 :=
    congrArg (fun contexts => { d.bare traces with contexts }) Array.map_push
  refine ⟨h.size, ?_⟩
  rw [Shares, added, added, h, same]

end Shares

end Debugger

end EventDebugger
