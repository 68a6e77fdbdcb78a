import EventDebugger.Proofs.Dispatch.Locality

/-!
# Outlines of call stacks

Which frames an event closes depends on the methods that the frames were opened for, and what the user
sees of the stack first are the positions of its frames. The rest of a frame has no influence on
either.

* `Debugger.leaves_dispatch`: what an event makes of the outline of its context.
* `Debugger.leaves_run`: what comes after a call of the front-end leaves the outline alone.
-/

namespace EventDebugger

/-- The positions of frames and the methods that they were opened for, the innermost frame first. -/
abbrev Outline := List (Position × Option String)

def Context.outline (context : Context) : Outline :=
  context.stack.map fun frame => (frame.position, frame.openedFor)

namespace Outline

def moveTop (position : Position) : Outline → Outline
  | [] => []
  | entry :: rest => (position, entry.2) :: rest

def popMatching (outline : Outline) (method : Option String) : Outline :=
  (outline.dropWhile fun entry => entry.2 != method).drop 1

theorem popMatching_cons_self (entry : Position × Option String) (outline : Outline) :
    popMatching (entry :: outline) entry.2 = outline := by
  simp [popMatching]

end Outline

def Event.effect (event : Event) (opens : Option TypeRef → Bool → Bool) (position : Position)
    (outline : Outline) : Outline :=
  match event.kind with
  | .line _ => if outline.isEmpty then [(position, event.method)] else outline.moveTop position
  | .call | .classOpen => (position, event.method) :: outline
  | .return | .classClose => outline.popMatching event.method
  | .nativeCall blockGiven =>
      if opens event.enclosingType blockGiven then (position, event.method) :: outline
      else outline.moveTop position
  | .nativeReturn blockGiven =>
      if opens event.enclosingType blockGiven then outline.popMatching event.method else outline
  | .raise _ => outline.moveTop position

theorem Event.effect_close {event : Event} (closes : event.kind = .return ∨ event.kind = .classClose)
    (opens : Option TypeRef → Bool → Bool) (position : Position) (entry : Position × Option String)
    (outline : Outline) (same : event.method = entry.2) :
    event.effect opens position (entry :: outline) = outline := by
  rcases closes with kind | kind <;> simp only [effect, kind, same, Outline.popMatching_cons_self]

theorem Event.effect_nativeCall {event : Event} {blockGiven : Bool} (kind : event.kind = .nativeCall blockGiven)
    (opens : Option TypeRef → Bool → Bool) {position : Position} {outline : Outline}
    (stays : outline.moveTop position = outline) :
    event.effect opens position outline =
      if opens event.enclosingType blockGiven then (position, event.method) :: outline else outline := by
  simp only [effect, kind, stays]

theorem Event.effect_nativeReturn {event : Event} {blockGiven : Bool}
    (kind : event.kind = .nativeReturn blockGiven) (opens : Option TypeRef → Bool → Bool)
    (position position' : Position) (outline : Outline) :
    event.effect opens position
        (if opens event.enclosingType blockGiven then (position', event.method) :: outline else outline) =
      outline := by
  simp only [effect, kind]
  split
  · exact Outline.popMatching_cons_self (position', event.method) outline
  · rfl

def EventKind.mayCall : EventKind → Bool
  | .line _ | .call | .raise _ => true
  | _ => false

namespace Context

theorem outline_modifyTop (stack : CallStack) (f : Frame → Frame)
    (hf : ∀ frame, (f frame).openedFor = frame.openedFor ∧ (f frame).position = frame.position) :
    (stack.modifyTop f).map (fun frame => (frame.position, frame.openedFor)) =
      stack.map fun frame => (frame.position, frame.openedFor) := by
  cases stack with
  | nil => rfl
  | cons frame rest => simp only [CallStack.modifyTop, List.map_cons, (hf frame).1, (hf frame).2]

theorem outline_setTopBinding (context : Context) (binding : Option Binding) :
    (context.setTopBinding binding).outline = context.outline :=
  outline_modifyTop context.stack _ fun _ => ⟨rfl, rfl⟩

theorem outline_moveTop (context : Context) (event : Event) (position : Position) (native : Bool) :
    (context.moveTop event position native).outline = context.outline.moveTop position := by
  cases stack : context.stack with
  | nil => simp only [outline, moveTop, stack, CallStack.modifyTop, List.map_nil, Outline.moveTop]
  | cons frame rest =>
      simp only [outline, moveTop, stack, CallStack.modifyTop, List.map_cons, Outline.moveTop]

theorem outline_returnFrom (context : Context) (method : Option String) :
    (context.returnFrom method).outline = context.outline.popMatching method := by
  have popped (stack : CallStack) :
      (stack.popMatching method).map (fun frame => (frame.position, frame.openedFor)) =
        Outline.popMatching (stack.map fun frame => (frame.position, frame.openedFor)) method := by
    simp only [CallStack.popMatching, Outline.popMatching, List.map_drop, List.dropWhile_map]
    rfl
  obtain ⟨_, _, eq⟩ := context.returnFrom_eq method
  rw [eq]
  exact popped _

theorem outline_savePosition (context : Context) : context.savePosition.outline = context.outline := by
  obtain ⟨_, _, _, _, eq⟩ := context.savePosition_eq
  rw [eq]
  rfl

theorem outline_countLine (moved : Bool) (context : Context) :
    (context.countLine moved).outline = context.outline := by
  obtain ⟨_, _, _, eq⟩ := context.countLine_eq moved
  rw [eq]
  rfl

end Context

namespace Debugger

structure Leaves (id : ContextId) (outline : Outline) (piece : Outcome × Debugger) : Prop where
  outline : (piece.2.context id).outline = outline
  about : ∀ {callback next}, piece.1 = .call callback next → callback.context = id

theorem leaves_done {d : Debugger} {id : ContextId} {outline : Outline}
    (h : (d.context id).outline = outline) : Leaves id outline (.done, d) :=
  ⟨h, fun call => by cases call⟩

variable {d : Debugger} {id : ContextId} (known : id < d.contexts.size)

include known

theorem outline_updateContext (f : Context → Context) :
    ((d.updateContext id f).context id).outline = (f (d.context id)).outline := by
  rw [d.context_updateContext_self f known]

/-! ## Halts -/

theorem leaves_halt (position : Position) : Leaves id (d.context id).outline (d.halt id position) := by
  have known' : id < { d with lastHalted := some (d.context id).number }.contexts.size := known
  refine ⟨?_, fun call => ?_⟩
  · exact (outline_updateContext known' Context.savePosition).trans (Context.outline_savePosition _)
  · cases call
    rfl

theorem leaves_haltAt (position : Position) (onLine : Bool) :
    Leaves id (d.context id).outline (d.haltAt id position onLine) := by
  simp only [haltAt]
  split
  · have known' : id < (d.updateContext id Context.clearSteps).contexts.size := by
      rw [size_updateContext]
      exact known
    have halted := leaves_halt known' position
    rw [outline_updateContext known] at halted
    exact halted
  · exact leaves_halt known position

theorem leaves_haltOnBreakpoint (found : Found) (position : Position) (onLine : Bool) :
    Leaves id (d.context id).outline (d.haltOnBreakpoint id found position onLine) := by
  simp only [haltOnBreakpoint]
  split
  · have known' : id < (d.updateContext id fun context =>
        { context with temporary := none }).contexts.size := by
      rw [size_updateContext]
      exact known
    have halted := leaves_haltAt known' position onLine
    rw [outline_updateContext known] at halted
    exact halted
  · refine ⟨outline_updateContext known _, fun call => ?_⟩
    cases call
    rfl

/-! ## Lines -/

theorem outline_captureLine (system : Nat) (receiver : Option Value) :
    ((d.captureLine system id receiver).2.context id).outline = (d.context id).outline := by
  have known' : id < (d.captureBinding system receiver).2.contexts.size := known
  exact (outline_updateContext known' _).trans (Context.outline_setTopBinding _ _)

theorem leaves_checkLine (system : Nat) (position : Position) (receiver : Option Value) (moved : Bool) :
    Leaves id (d.context id).outline (d.checkLine system id position receiver moved) := by
  have counted : ((d.updateContext id (·.countLine moved)).context id).outline =
      (d.context id).outline := (outline_updateContext known _).trans (Context.outline_countLine _ _)
  have known' : id < (d.updateContext id (·.countLine moved)).contexts.size := by
    rw [size_updateContext]
    exact known
  simp only [checkLine]
  generalize d.updateContext id (·.countLine moved) = d' at counted known'
  have captured := (outline_captureLine known' system receiver).trans counted
  have known'' : id < (d'.captureLine system id receiver).2.contexts.size :=
    Nat.lt_of_lt_of_le known' (d'.touches_captureLine system id receiver).size
  split
  · have halted := leaves_haltAt known'' position true
    rw [captured] at halted
    exact halted
  · split
    · exact leaves_done counted
    · next found _ =>
        split
        · have halted := leaves_haltOnBreakpoint known'' found position true
          rw [captured] at halted
          exact halted
        · exact leaves_done captured

/-! ## Events -/

theorem outline_openFrame (system : Nat) (event : Event) (position : Position) :
    ((d.openFrame system id event position).context id).outline =
      (position, event.method) :: (d.context id).outline := by
  have known' : id < (d.newFrame system event position).2.contexts.size := known
  exact outline_updateContext known' (·.push (d.newFrame system event position).1)

theorem leaves_onLine (system : Nat) (event : Event) (position : Position) (conditional moved : Bool) :
    Leaves id (if (d.context id).outline.isEmpty then [(position, event.method)]
        else (d.context id).outline.moveTop position)
      (d.onLine system id event position conditional moved) := by
  have isEmpty : (d.context id).outline.isEmpty = (d.context id).stack.isEmpty := List.isEmpty_map
  have placed : id < (if (d.context id).stack.isEmpty then d.openFrame system id event position
        else d.updateContext id (·.moveTop event position false)).contexts.size ∧
      ((if (d.context id).stack.isEmpty then d.openFrame system id event position
        else d.updateContext id (·.moveTop event position false)).context id).outline =
      if (d.context id).outline.isEmpty then [(position, event.method)]
        else (d.context id).outline.moveTop position := by
    rw [isEmpty]
    split
    · next empty =>
        refine ⟨Nat.lt_of_lt_of_le known (d.touches_openFrame system id event position).size, ?_⟩
        have none : (d.context id).outline = [] := by
          rw [← List.isEmpty_iff, isEmpty]
          exact empty
        rw [outline_openFrame known, none]
    · refine ⟨by rw [size_updateContext]; exact known, ?_⟩
      exact (outline_updateContext known _).trans (Context.outline_moveTop _ _ _ _)
  simp only [onLine]
  generalize (if (d.context id).stack.isEmpty then d.openFrame system id event position
    else d.updateContext id (·.moveTop event position false)) = d' at placed ⊢
  obtain ⟨known', outline⟩ := placed
  rw [← outline]
  split
  · exact leaves_done rfl
  · split
    · refine ⟨rfl, fun call => ?_⟩
      cases call
      rfl
    · exact leaves_checkLine known' system position event.receiver moved

theorem leaves_onCall (system : Nat) (event : Event) (position : Position) :
    Leaves id ((position, event.method) :: (d.context id).outline)
      (d.onCall system id event position) := by
  have opened := outline_openFrame known system event position
  have known' : id < (d.openFrame system id event position).contexts.size :=
    Nat.lt_of_lt_of_le known (d.touches_openFrame system id event position).size
  simp only [onCall]
  generalize d.openFrame system id event position = d' at opened known' ⊢
  rw [← opened]
  split
  · exact leaves_done rfl
  · next found _ =>
      have halts (d'' : Debugger) (same : d''.contexts = d'.contexts) (binding : Option Binding)
          (guarded : Bool) :
          Leaves id (d'.context id).outline
            (if guarded then (d''.updateContext id (·.setTopBinding binding)).haltOnBreakpoint id found
                position false
              else (.done, d''.updateContext id (·.setTopBinding binding))) := by
        have here : d''.context id = d'.context id := by rw [context, same, context]
        have known'' : id < d''.contexts.size := same ▸ known'
        have bound : ((d''.updateContext id (·.setTopBinding binding)).context id).outline =
            (d'.context id).outline := by
          rw [outline_updateContext known'', Context.outline_setTopBinding, here]
        split
        · rw [← bound]
          refine leaves_haltOnBreakpoint ?_ found position false
          rw [size_updateContext]
          exact known''
        · exact leaves_done bound
      split
      · exact halts d' rfl _ _
      · exact halts (d'.captureBinding system event.receiver).2 rfl _ _

theorem leaves_onRaise (system : Nat) (event : Event) (position : Position) (exception : Value) :
    Leaves id ((d.context id).outline.moveTop position)
      (d.onRaise system id event position exception) := by
  have moved : ((d.updateContext id (·.moveTop event position false)).context id).outline =
      (d.context id).outline.moveTop position :=
    (outline_updateContext known _).trans (Context.outline_moveTop _ _ _ _)
  have known' : id < (d.updateContext id (·.moveTop event position false)).contexts.size := by
    rw [size_updateContext]
    exact known
  simp only [onRaise]
  generalize d.updateContext id (·.moveTop event position false) = d' at moved known' ⊢
  have kept : ((d'.keepPostMortem system id event position exception).2.context id).outline = _ :=
    (congrArg _ (context_keepPostMortem known' system event position exception)).trans moved
  have known'' := Nat.lt_of_lt_of_le known'
    (d'.touches_keepPostMortem system id event position exception).size
  split
  · refine leaves_done ?_
    simp only [forceStop]
    split <;> exact kept
  · split
    · exact leaves_done kept
    · split
      · refine ⟨(outline_updateContext known'' _).trans kept, fun call => ?_⟩
        cases call
        rfl
      · exact leaves_done kept

theorem leaves_dispatchAt (system : Nat) (event : Event) (position : Position) (moved : Bool) :
    Leaves id (event.effect d.opensNativeFrame position (d.context id).outline)
        (d.dispatchAt system id event position moved) ∧
      ((d.dispatchAt system id event position moved).1 ≠ .done → event.kind.mayCall) := by
  have closes (method : Option String) := leaves_done (d := d.updateContext id (·.returnFrom method))
    ((outline_updateContext known _).trans (Context.outline_returnFrom _ method))
  cases kind : event.kind with
  | line conditional =>
      simp only [dispatchAt, Event.effect, kind]
      exact ⟨leaves_onLine known system event position conditional moved, fun _ => rfl⟩
  | call =>
      simp only [dispatchAt, Event.effect, kind]
      exact ⟨leaves_onCall known system event position, fun _ => rfl⟩
  | «return» | classClose =>
      simp only [dispatchAt, Event.effect, kind]
      exact ⟨closes event.method, fun calls => absurd rfl calls⟩
  | classOpen =>
      simp only [dispatchAt, Event.effect, kind]
      refine ⟨leaves_done ?_, fun calls => absurd rfl calls⟩
      rw [outline_openFrame, outline_updateContext known]
      · congr 1
        exact Context.outline_modifyTop _ _ fun _ => ⟨rfl, rfl⟩
      · rw [size_updateContext]
        exact known
  | nativeCall blockGiven =>
      simp only [dispatchAt, Event.effect, kind]
      split
      · exact ⟨leaves_done (outline_openFrame known system event position), fun calls => absurd rfl calls⟩
      · exact ⟨leaves_done ((outline_updateContext known _).trans (Context.outline_moveTop _ _ _ _)),
          fun calls => absurd rfl calls⟩
  | nativeReturn blockGiven =>
      simp only [dispatchAt, Event.effect, kind]
      split
      · exact ⟨closes event.method, fun calls => absurd rfl calls⟩
      · exact ⟨leaves_done rfl, fun calls => absurd rfl calls⟩
  | raise exception =>
      simp only [dispatchAt, Event.effect, kind]
      exact ⟨leaves_onRaise known system event position exception, fun _ => rfl⟩

theorem leaves_dispatch (system : Nat) {event : Event} {position : Position}
    (heeded : (d.context id).skipped = false) (placed : event.position = some position) :
    Leaves id (event.effect d.opensNativeFrame position (d.context id).outline)
        (d.dispatch system id event) ∧
      ((d.dispatch system id event).1 ≠ .done → event.kind.mayCall) := by
  have known' : id < (d.updateContext id (·.noteEvent event.position event.kind.isLine)).contexts.size := by
    rw [size_updateContext]
    exact known
  have dispatched := leaves_dispatchAt known' system event position
    (decide ((d.context id).lastPosition ≠ some position))
  rw [outline_updateContext known] at dispatched
  simp only [dispatch, heeded, placed, Bool.false_eq_true, if_false] at dispatched ⊢
  exact dispatched

theorem leaves_run (system : Nat) (next : Continuation) :
    Leaves id (d.context id).outline (next.run d system id) := by
  cases next with
  | lineTraced position receiver moved => exact leaves_checkLine known system position receiver moved
  | breakpointReported position onLine => exact leaves_haltAt known position onLine
  | exceptionReported position receiver binding =>
      have halts (d' : Debugger) (same : d'.contexts = d.contexts) (binding : Option Binding) :
          Leaves id (d.context id).outline
            ((d'.updateContext id (·.setTopBinding binding)).halt id position) := by
        have here : d'.context id = d.context id := by rw [context, same, context]
        have known' : id < d'.contexts.size := same ▸ known
        have bound : ((d'.updateContext id (·.setTopBinding binding)).context id).outline =
            (d.context id).outline := by
          rw [outline_updateContext known', Context.outline_setTopBinding, here]
        rw [← bound]
        refine leaves_halt ?_ position
        rw [size_updateContext]
        exact known'
      simp only [Continuation.run]
      split
      · exact halts d rfl _
      · exact halts (d.captureBinding system receiver).2 rfl _
  | resumed => exact leaves_done rfl

end Debugger

end EventDebugger
