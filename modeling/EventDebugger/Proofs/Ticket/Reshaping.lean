import EventDebugger.Proofs.Dispatch.Breakpoints
import EventDebugger.Proofs.Ticket.Preserved

/-!
# What events make of frames

An event opens a frame, closes frames, or changes the innermost one. What the front-end and the guards of
breakpoints need besides is the binding of the innermost frame, so up to that binding the frames after an
event are a function of those before.

* `Debugger.unbound_dispatch`: the frames after an event.
* `Debugger.unbound_run`: the frames after a call of the front-end.
-/

namespace EventDebugger

namespace CallStack

def unbound (stack : CallStack) : CallStack := stack.modifyTop fun frame => { frame with binding := none }

theorem unbound_setTop (stack : CallStack) (binding : Option Binding) :
    (stack.modifyTop fun frame => { frame with binding }).unbound = stack.unbound := by
  cases stack <;> rfl

end CallStack

namespace Event

def opened (event : Event) (position : Position) : Frame :=
  ⟨event.method, event.method, position, none, event.receiver, event.enclosingType, .live event.scope⟩

def moved (event : Event) (position : Position) (native : Bool) (frame : Frame) : Frame :=
  { frame with
    receiver := event.receiver
    position := position
    method := event.method
    locals := if !native && event.scope.isSome then .live event.scope else frame.locals }

def reshapeAt (event : Event) (opens : Option TypeRef → Bool → Bool) (position : Position)
    (stack : CallStack) : CallStack :=
  match event.kind with
  | .line _ =>
      if stack.isEmpty then [event.opened position] else stack.modifyTop (event.moved position false)
  | .call => event.opened position :: stack
  | .classOpen => event.opened position :: stack.modifyTop fun frame => { frame with method := none }
  | .return | .classClose => stack.popMatching event.method
  | .nativeCall blockGiven =>
      if opens event.enclosingType blockGiven then event.opened position :: stack
      else stack.modifyTop (event.moved position true)
  | .nativeReturn blockGiven =>
      if opens event.enclosingType blockGiven then stack.popMatching event.method else stack
  | .raise _ => stack.modifyTop (event.moved position false)

def reshape (event : Event) (opens : Option TypeRef → Bool → Bool) (stack : CallStack) : CallStack :=
  match event.position with
  | some position => event.reshapeAt opens position stack
  | none => if event.kind = .return then stack.popMatching event.method else stack

end Event

namespace Context

def Shaped (stack : CallStack) (context : Context) : Prop := context.stack.unbound = stack.unbound

structure Lasting (P : Context → Prop) : Prop where
  binds : ∀ {context}, P context → ∀ binding, P (context.setTopBinding binding)
  marks : ∀ {context}, P context → ∀ reason temporary, P { context with reason, temporary }
  counts : ∀ {context}, P context → ∀ moved, P (context.countLine moved)
  clears : ∀ {context}, P context → P context.clearSteps
  saves : ∀ {context}, P context → P context.savePosition

theorem lasting_shaped (stack : CallStack) : Lasting (Shaped stack) where
  binds {context} h binding := (context.stack.unbound_setTop binding).trans h
  marks h _ _ := h
  counts {context} h moved := by
    obtain ⟨_, _, _, counted⟩ := context.countLine_eq moved
    rw [counted]
    exact h
  clears h := h
  saves {context} h := by
    obtain ⟨_, _, _, _, saved⟩ := context.savePosition_eq
    rw [saved]
    exact h

end Context

namespace Debugger

open Context (Shaped Lasting lasting_shaped)

variable {id : ContextId} {stack : CallStack} (d : Debugger) (system : Nat)

/-! ## After the frames were changed -/

section

variable {P : Context → Prop} (lasting : Lasting P)

include lasting

theorem lasting_setTopBinding (binding : Option Binding) :
    Preserves P id d (d.updateContext id (·.setTopBinding binding)) :=
  d.preserves_updateContext id fun h => lasting.binds h binding

theorem lasting_halt (position : Position) : Preserves P id d (d.halt id position).2 := by
  have noted : Preserves P id d { d with lastHalted := some (d.context id).number } := .of_contexts rfl
  exact noted.trans (preserves_updateContext _ id lasting.saves)

theorem lasting_haltAt (position : Position) (onLine : Bool) :
    Preserves P id d (d.haltAt id position onLine).2 := by
  simp only [haltAt]
  split
  · have cleared : Preserves P id d (d.updateContext id Context.clearSteps) :=
      d.preserves_updateContext id lasting.clears
    exact cleared.trans (lasting_halt _ lasting position)
  · exact d.lasting_halt lasting position

theorem lasting_haltOnBreakpoint (found : Found) (position : Position) (onLine : Bool) :
    Preserves P id d (d.haltOnBreakpoint id found position onLine).2 := by
  simp only [haltOnBreakpoint]
  split
  · have spent : Preserves P id d (d.updateContext id fun context => { context with temporary := none }) :=
      d.preserves_updateContext id fun {context} h => lasting.marks h context.reason none
    exact spent.trans (lasting_haltAt _ lasting position onLine)
  · exact d.preserves_updateContext id fun {context} h => lasting.marks h .breakpoint context.temporary

theorem lasting_captureLine (receiver : Option Value) :
    Preserves P id d (d.captureLine system id receiver).2 := by
  have captured : Preserves P id d (d.captureBinding system receiver).2 := .of_contexts rfl
  exact captured.trans (preserves_updateContext _ id fun {context} h =>
    lasting.marks (lasting.binds h _) .step context.temporary)

theorem lasting_checkLine (position : Position) (receiver : Option Value) (moved : Bool) :
    Preserves P id d (d.checkLine system id position receiver moved).2 := by
  have counted : Preserves P id d (d.updateContext id (·.countLine moved)) :=
    d.preserves_updateContext id fun h => lasting.counts h moved
  simp only [checkLine]
  generalize d.updateContext id (·.countLine moved) = d' at counted ⊢
  have captured := counted.trans (d'.lasting_captureLine system lasting receiver)
  split
  · exact captured.trans (lasting_haltAt _ lasting position true)
  · split
    · exact counted
    · split
      · exact captured.trans (lasting_haltOnBreakpoint _ lasting _ position true)
      · exact captured

theorem lasting_run (next : Continuation) : Preserves P id d (next.run d system id).2 := by
  cases next with
  | lineTraced position receiver moved => exact d.lasting_checkLine system lasting position receiver moved
  | breakpointReported position onLine => exact d.lasting_haltAt lasting position onLine
  | exceptionReported position receiver binding =>
      simp only [Continuation.run]
      split
      · exact (d.lasting_setTopBinding lasting _).trans (lasting_halt _ lasting position)
      · have captured : Preserves P id d (d.captureBinding system receiver).2 := .of_contexts rfl
        exact (captured.trans (lasting_setTopBinding _ lasting _)).trans (lasting_halt _ lasting position)
  | resumed => exact refl_of _ d

end

theorem unbound_run (next : Continuation) :
    ((next.run d system id).2.context id).stack.unbound = (d.context id).stack.unbound :=
  d.lasting_run system (lasting_shaped (d.context id).stack) next rfl

/-! ## Events -/

variable {d} (known : id < d.contexts.size)

include known

theorem stack_updateContext (f : Context → Context) :
    ((d.updateContext id f).context id).stack = (f (d.context id)).stack := by
  rw [d.context_updateContext_self f known]

theorem unbound_openFrame (event : Event) (position : Position) :
    ((d.openFrame system id event position).context id).stack.unbound =
      CallStack.unbound (event.opened position :: (d.context id).stack) := by
  rw [context_openFrame known]
  rfl

theorem unbound_onLine (event : Event) (position : Position) (conditional moved : Bool) :
    ((d.onLine system id event position conditional moved).2.context id).stack.unbound =
      CallStack.unbound (if (d.context id).stack.isEmpty then [event.opened position]
        else (d.context id).stack.modifyTop (event.moved position false)) := by
  have placed : Shaped (if (d.context id).stack.isEmpty then [event.opened position]
      else (d.context id).stack.modifyTop (event.moved position false))
      ((if (d.context id).stack.isEmpty then d.openFrame system id event position
        else d.updateContext id (·.moveTop event position false)).context id) := by
    unfold Shaped
    split
    · next empty => rw [unbound_openFrame system known, List.isEmpty_iff.mp empty]
    · rw [stack_updateContext known]
      rfl
  simp only [onLine]
  generalize (if (d.context id).stack.isEmpty then d.openFrame system id event position
    else d.updateContext id (·.moveTop event position false)) = d' at placed ⊢
  split
  · exact placed
  · split
    · exact placed
    · exact d'.lasting_checkLine system (lasting_shaped _) position event.receiver moved placed

theorem unbound_onCall (event : Event) (position : Position) :
    ((d.onCall system id event position).2.context id).stack.unbound =
      CallStack.unbound (event.opened position :: (d.context id).stack) := by
  have opened : Shaped (event.opened position :: (d.context id).stack)
      ((d.openFrame system id event position).context id) := unbound_openFrame system known event position
  rw [onCall_eq]
  simp only
  generalize d.openFrame system id event position = d' at opened ⊢
  split
  · exact opened
  · next found _ =>
      have captured : Preserves (Shaped (event.opened position :: (d.context id).stack)) id d'
          (d'.callBinding system id event.receiver).2 := by
        simp only [callBinding]
        split <;> exact .of_contexts rfl
      have bound := captured.trans
        (lasting_setTopBinding _ (lasting_shaped _) (d'.callBinding system id event.receiver).1)
      split
      · exact bound.trans (lasting_haltOnBreakpoint _ (lasting_shaped _) found position false) opened
      · exact bound opened

theorem unbound_onRaise (event : Event) (position : Position) (exception : Value) :
    ((d.onRaise system id event position exception).2.context id).stack.unbound =
      ((d.context id).stack.modifyTop (event.moved position false)).unbound := by
  have moved : ((d.updateContext id (·.moveTop event position false)).context id).stack =
      (d.context id).stack.modifyTop (event.moved position false) := stack_updateContext known _
  have known' : id < (d.updateContext id (·.moveTop event position false)).contexts.size := by
    rw [size_updateContext]
    exact known
  simp only [onRaise]
  generalize d.updateContext id (·.moveTop event position false) = d' at moved known' ⊢
  have kept : Shaped ((d.context id).stack.modifyTop (event.moved position false))
      ((d'.keepPostMortem system id event position exception).2.context id) := by
    unfold Shaped
    rw [context_keepPostMortem known', moved]
  have marked (d : Debugger) : Preserves (Shaped ((d'.context id).stack)) id d
      (d.updateContext id fun context => { context with reason := .catchpoint }) :=
    d.preserves_updateContext id fun {context} h => (lasting_shaped _).marks h .catchpoint context.temporary
  rw [moved] at marked
  split
  · rw [context, contexts_forceStop]
    exact kept
  · split
    · exact kept
    · split
      · exact marked _ kept
      · exact kept

theorem unbound_dispatchAt (event : Event) (position : Position) (moved : Bool) :
    ((d.dispatchAt system id event position moved).2.context id).stack.unbound =
      (event.reshapeAt d.opensNativeFrame position (d.context id).stack).unbound := by
  have closed : ((d.updateContext id (·.returnFrom event.method)).context id).stack =
      (d.context id).stack.popMatching event.method := by
    rw [stack_updateContext known]
    obtain ⟨_, _, returned⟩ := (d.context id).returnFrom_eq event.method
    rw [returned]
  cases kind : event.kind with
  | line conditional =>
      simp only [dispatchAt, Event.reshapeAt, kind]
      exact unbound_onLine system known event position conditional moved
  | call =>
      simp only [dispatchAt, Event.reshapeAt, kind]
      exact unbound_onCall system known event position
  | «return» | classClose => simp only [dispatchAt, Event.reshapeAt, kind, closed]
  | classOpen =>
      let unnamed (context : Context) : Context :=
        { context with stack := context.stack.modifyTop fun frame => { frame with method := none } }
      have known' : id < (d.updateContext id unnamed).contexts.size := by
        rw [size_updateContext]
        exact known
      simp only [dispatchAt, Event.reshapeAt, kind]
      refine (unbound_openFrame system known' event position).trans ?_
      rw [stack_updateContext known]
  | nativeCall blockGiven =>
      simp only [dispatchAt, Event.reshapeAt, kind]
      split
      · exact unbound_openFrame system known event position
      · exact congrArg CallStack.unbound (stack_updateContext known (·.moveTop event position true))
  | nativeReturn blockGiven =>
      simp only [dispatchAt, Event.reshapeAt, kind]
      split
      · exact congrArg CallStack.unbound closed
      · rfl
  | raise exception =>
      simp only [dispatchAt, Event.reshapeAt, kind]
      exact unbound_onRaise system known event position exception

theorem unbound_dispatch (heeded : (d.context id).skipped = false) (event : Event) :
    ((d.dispatch system id event).2.context id).stack.unbound =
      (event.reshape d.opensNativeFrame (d.context id).stack).unbound := by
  have noted : ((d.updateContext id (·.noteEvent event.position event.kind.isLine)).context id).stack =
      (d.context id).stack := stack_updateContext known _
  have known' : id < (d.updateContext id (·.noteEvent event.position event.kind.isLine)).contexts.size := by
    rw [size_updateContext]
    exact known
  have opens : (d.updateContext id (·.noteEvent event.position event.kind.isLine)).opensNativeFrame =
      d.opensNativeFrame := rfl
  rw [← noted, ← opens]
  simp only [dispatch, heeded, Bool.false_eq_true, if_false, Event.reshape]
  generalize d.updateContext id (·.noteEvent event.position event.kind.isLine) = d' at known' ⊢
  cases event.position with
  | some position => exact unbound_dispatchAt system known' event position _
  | none =>
      dsimp only
      split
      · refine congrArg CallStack.unbound ((stack_updateContext known' _).trans ?_)
        obtain ⟨_, _, returned⟩ := (d'.context id).returnFrom_eq event.method
        rw [returned]
      · rfl

end Debugger

end EventDebugger
