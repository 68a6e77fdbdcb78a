import EventDebugger.Proofs.Dispatch.Locality
import EventDebugger.Script.Inspection

/-!
# What a raised exception keeps

An exception that is raised while post-mortems are turned on keeps a copy of its context. The variables of a
copied frame live in no scope any more, so the copy is read as its context was, whatever is assigned later.

* `Context.reading_of_copied`: what is read of a copy.
* `Debugger.attached_dispatch`: the copy that a raise attaches to its exception.
-/

namespace EventDebugger

/-- What is read of a frame, but for its type and its binding. -/
structure Frame.Reading where
  position : Position
  method : Option String
  receiver : Option Value
  locals : Vars
deriving DecidableEq

def Frame.reading (frame : Frame) (scopes : Scopes) : Frame.Reading :=
  ⟨frame.position, frame.method, frame.receiver, frame.visibleLocals scopes⟩

def Script.FrameView.reading (view : FrameView) : Frame.Reading :=
  ⟨view.position, view.method, view.receiver, view.locals⟩

def Context.reading (context : Context) (scopes : Scopes) (index : Int) : Except Error Frame.Reading := do
  return (← context.frame index).reading scopes

theorem Context.reading_of_copied {dead live : Context} {scopes : Scopes}
    (copied : dead.stack = live.stack.freeze scopes) (later : Scopes) (index : Int) :
    dead.reading later index = live.reading scopes index := by
  have depth : dead.depth = live.depth := by rw [Context.depth, copied, CallStack.length_freeze, Context.depth]
  have frames (i : Nat) : dead.stack[i]? = live.stack[i]?.map (Frame.freeze scopes) := by
    rw [copied, CallStack.freeze, List.getElem?_map]
  simp only [reading, frame, depth, frames]
  cases checkFrame index live.depth with
  | error error => rfl
  | ok i =>
      simp only [bind, Except.bind]
      cases live.stack[i]? <;> rfl

namespace Debugger

theorem reading_frameView (d : Debugger) (id : ContextId) (index : Int) :
    (d.frameView id index).map (·.reading) = d.inspect id (·.reading d.host.scopes index) := by
  simp only [frameView, inspect]
  split
  · simp only [Context.reading, Context.frameType, Context.frameBinding]
    cases (d.context id).frame index with
    | error error => rfl
    | ok frame =>
        cases (d.context id).dead <;> rfl
  · rfl

theorem reading_of_frame {d : Debugger} {id : ContextId} {i : Nat} {frame : Frame} (started : d.isStarted)
    (is : (d.context id).stack[i]? = some frame) :
    (d.frameView id i).map (·.reading) = .ok (frame.reading d.host.scopes) := by
  have below : ¬ (d.context id).depth ≤ i := fun above => by
    cases is.symm.trans (List.getElem?_eq_none above)
  have checked : Context.checkFrame i (d.context id).depth = .ok i := by
    rw [Context.checkFrame, if_neg (by omega), if_neg (by omega), Int.toNat_natCast]
  simp only [reading_frameView, inspect, started, if_true, Context.reading, Context.frame, checked, is, bind,
    Except.bind, pure, Except.pure]

/-- While the debugger is active, a context is read as another one was in some scopes, and otherwise not at all. -/
structure ReadsAs (d : Debugger) (id : ContextId) (live : Context) (scopes : Scopes) : Prop where
  depth : d.isStarted → (d.inspect id fun context => .ok context.depth) = .ok live.depth
  frames : d.isStarted → ∀ index, (d.frameView id index).map (·.reading) = live.reading scopes index
  depthless : d.isStarted = false → (d.inspect id fun context => .ok context.depth) = .error .notStarted
  frameless : d.isStarted = false → ∀ index, d.frameView id index = .error .notStarted

theorem readsAs_of_copied {d : Debugger} {id : ContextId} {live : Context} {scopes : Scopes}
    (copied : (d.context id).stack = live.stack.freeze scopes) : ReadsAs d id live scopes := by
  refine ⟨fun active => ?_, fun active index => ?_, fun inactive => ?_, fun inactive index => ?_⟩
  · rw [inspect, if_pos active, Context.depth, copied, CallStack.length_freeze, Context.depth]
  · rw [reading_frameView, inspect, if_pos active, Context.reading_of_copied copied]
  · rw [inspect, inactive]
    rfl
  · rw [frameView, inspect, inactive]
    rfl

/-! ## Capture -/

/-- An event raises an exception at a position, which is to be kept. -/
structure Captures (d : Debugger) (id : ContextId) (event : Event) (position : Position) (exception : Value) :
    Prop where
  kind : event.kind = .raise exception
  object : ∃ className number, exception = .exception className number
  placed : event.position = some position
  received : event.receiver.isSome
  heeded : (d.context id).skipped = false
  on : d.settings.postMortem

structure Attached (d : Debugger) (id : ContextId) (stack : CallStack) (exception : Value) (kept : PostMortem)
    (d' : Debugger) : Prop where
  keeps : d'.postMortem? exception = some kept
  new : kept.context = d.contexts.size
  known : kept.context < d'.contexts.size
  live : (d'.context id).stack = stack
  copied : (d'.context kept.context).stack = stack.freeze d'.host.scopes

theorem lookup_replaced (entries : List (Nat × PostMortem)) {number : Nat} (kept : PostMortem)
    (present : entries.any fun entry => entry.1 == number) :
    (entries.map fun entry => if entry.1 = number then (number, kept) else entry).lookup number = some kept := by
  induction entries with
  | nil => cases present
  | cons entry rest ih =>
      rw [List.map_cons]
      by_cases same : entry.1 = number
      · rw [if_pos same, List.lookup_cons, beq_self_eq_true]
      · rw [List.any_cons, beq_eq_false_iff_ne.mpr same, Bool.false_or] at present
        rw [if_neg same, List.lookup_cons, beq_eq_false_iff_ne.mpr (Ne.symm same)]
        exact ih present

theorem lookup_added (entries : List (Nat × PostMortem)) {number : Nat} (kept : PostMortem)
    (absent : ¬ entries.any fun entry => entry.1 == number) :
    (entries ++ [(number, kept)]).lookup number = some kept := by
  induction entries with
  | nil => simp only [List.nil_append, List.lookup_cons, beq_self_eq_true]
  | cons entry rest ih =>
      rw [List.any_cons, Bool.or_eq_true, not_or, beq_iff_eq] at absent
      rw [List.cons_append, List.lookup_cons, beq_eq_false_iff_ne.mpr (Ne.symm absent.1)]
      exact ih absent.2

theorem postMortem?_attachPostMortem (d : Debugger) (className : String) (number : Nat) (kept : PostMortem) :
    (d.attachPostMortem (.exception className number) kept).postMortem? (.exception className number) =
      some kept := by
  simp only [attachPostMortem]
  split
  · next present => exact lookup_replaced d.postMortems kept present
  · next absent => exact lookup_added d.postMortems kept absent

theorem host_attachPostMortem (d : Debugger) (exception : Value) (kept : PostMortem) :
    (d.attachPostMortem exception kept).host = d.host := by
  obtain ⟨_, attached⟩ := d.attachPostMortem_eq exception kept
  rw [attached]

variable {d d' : Debugger} {id : ContextId} {stack : CallStack} {exception : Value} {kept : PostMortem}

theorem Attached.forceStop (h : Attached d id stack exception kept d') :
    Attached d id stack exception kept d'.forceStop := by
  obtain ⟨keeps, new, known, live, copied⟩ := h
  simp only [Debugger.forceStop]
  split <;> exact ⟨keeps, new, known, live, copied⟩

theorem Attached.explained (h : Attached d id stack exception kept d') (known : id < d.contexts.size)
    (reason : StopReason) :
    Attached d id stack exception kept (d'.updateContext id fun context => { context with reason }) := by
  have older : id < kept.context := h.new.symm ▸ known
  refine ⟨h.keeps, h.new, ?_, ?_, ?_⟩
  · rw [size_updateContext]
    exact h.known
  · rw [context_updateContext_self _ _ (Nat.lt_trans older h.known)]
    exact h.live
  · rw [context_updateContext_ne _ _ (Nat.ne_of_gt older)]
    exact h.copied

theorem attached_keepPostMortem (known : id < d.contexts.size) (system : Nat) (event : Event)
    (position : Position) (className : String) (number : Nat) (received : event.receiver.isSome)
    (on : d.settings.postMortem) :
    ∃ kept, kept.position = position ∧ Attached d id (d.context id).stack (.exception className number) kept
      (d.keepPostMortem system id event position (.exception className number)).2 := by
  have same := context_keepPostMortem known system event position (.exception className number)
  simp only [keepPostMortem, on, received, Bool.and_true, if_true] at same ⊢
  have contexts : (d.captureBinding system event.receiver).2.contexts = d.contexts := rfl
  generalize d.captureBinding system event.receiver = captured at contexts same ⊢
  refine ⟨_, rfl, postMortem?_attachPostMortem .., congrArg Array.size contexts, ?_, congrArg _ same, ?_⟩
  · rw [contexts_attachPostMortem]
    exact (Array.size_push _).symm ▸ Nat.lt_succ_self _
  · rw [context_attachPostMortem, host_attachPostMortem]
    have copy := captured.2.context_addContext_new ((captured.2.context id).freeze captured.2.host.scopes)
    have unchanged : captured.2.context id = d.context id := by rw [context, contexts, context]
    rw [← unchanged]
    exact congrArg (·.stack) copy

theorem attaches_dispatch {event : Event} {position : Position} (known : id < d.contexts.size)
    (system : Nat) (captures : d.Captures id event position exception) :
    ∃ kept, kept.position = position ∧ Attached d id ((d.context id).moveTop event position false).stack exception
      kept (d.dispatch system id event).2 := by
  obtain ⟨kind, ⟨className, number, rfl⟩, placed, received, heeded, on⟩ := captures
  simp only [dispatch, heeded, placed, kind, dispatchAt, onRaise, Bool.false_eq_true, if_false]
  generalize moved : (d.updateContext id _).updateContext id (·.moveTop event position false) = d'
  have size : d'.contexts.size = d.contexts.size := by rw [← moved, size_updateContext, size_updateContext]
  have on' : d'.settings.postMortem := by
    rw [← moved]
    exact on
  have stack : (d'.context id).stack = ((d.context id).moveTop event position false).stack := by
    rw [← moved, context_updateContext_self, context_updateContext_self _ _ known]
    · rfl
    · rw [size_updateContext]
      exact known
  obtain ⟨kept, at', keeps, new, known', live, copied⟩ :=
    attached_keepPostMortem (size.symm ▸ known) system event position className number received on'
  rw [stack] at live copied
  have attached : Attached d id _ (.exception className number) kept _ := ⟨keeps, new.trans size, known', live, copied⟩
  refine ⟨kept, at', ?_⟩
  split
  · exact attached.forceStop
  · split
    · exact attached
    · split
      · exact attached.explained known .catchpoint
      · exact attached

theorem attached_dispatch {event : Event} {position : Position} (known : id < d.contexts.size)
    (system : Nat) (captures : d.Captures id event position exception) :
    ∃ kept, Attached d id ((d.context id).moveTop event position false).stack exception kept
      (d.dispatch system id event).2 :=
  have ⟨kept, _, attached⟩ := attaches_dispatch known system captures
  ⟨kept, attached⟩

end Debugger

end EventDebugger
