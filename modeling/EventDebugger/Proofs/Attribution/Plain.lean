import EventDebugger.Proofs.Dispatch.Breakpoints
import EventDebugger.Proofs.Schedule.Events
import EventDebugger.Proofs.Ticket.Preserved

/-!
# Debuggers that nobody but the recorder commands

The recorder neither suspends contexts nor sets temporary breakpoints, and what exceptions keep are dead copies.
Events do not change this.

* `Debugger.Plain.dispatch`, `Debugger.Plain.drive`: an event with the recorder as the front-end.
-/

namespace EventDebugger

namespace Context

def Plain (context : Context) : Prop := context.suspended = false ∧ context.temporary = none

def Plainly (f : Context → Context) : Prop :=
  ∀ context, (f context).dead = context.dead ∧ (context.Plain → (f context).Plain)

theorem plain_initial (thread : Thread) (number : Nat) (ignored : Bool) : (initial thread number ignored).Plain :=
  ⟨rfl, rfl⟩

theorem plain_freeze (context : Context) (scopes : Scopes) : (freeze scopes context).Plain := ⟨rfl, rfl⟩

theorem plainly_countLine (moved : Bool) : Plainly (·.countLine moved) := by
  intro context
  obtain ⟨_, _, _, counted⟩ := context.countLine_eq moved
  dsimp only
  rw [counted]
  exact ⟨rfl, id⟩

theorem plainly_savePosition : Plainly savePosition := by
  intro context
  obtain ⟨_, _, _, _, saved⟩ := context.savePosition_eq
  rw [saved]
  exact ⟨rfl, id⟩

theorem plainly_returnFrom (method : Option String) : Plainly (·.returnFrom method) := by
  intro context
  obtain ⟨_, _, returned⟩ := context.returnFrom_eq method
  dsimp only
  rw [returned]
  exact ⟨rfl, id⟩

theorem plainly_command (mode : ResumeMode) {context context' : Context}
    (commanded : mode.command context = .ok context') :
    context'.dead = context.dead ∧ (context.Plain → context'.Plain) := by
  have traits := Recorder.traits_command mode commanded
  have temporary : context'.temporary = context.temporary := by
    cases mode with
    | «continue» =>
        cases commanded
        rfl
    | step =>
        obtain ⟨_, _, changed⟩ := except_bind_eq_ok commanded
        cases changed
        rfl
    | next =>
        obtain ⟨_, _, commanded⟩ := except_bind_eq_ok commanded
        simp only at commanded
        split at commanded
        · cases commanded
        · obtain ⟨_, _, changed⟩ := except_bind_eq_ok commanded
          cases changed
          rfl
    | finish =>
        obtain ⟨_, _, changed⟩ := except_bind_eq_ok commanded
        cases changed
        rfl
  have suspended : context'.suspended = context.suspended := congrArg (·.2.2.1) traits
  exact ⟨congrArg (·.2.2.2.2.2.2.1) traits, fun plain => ⟨suspended.trans plain.1, temporary.trans plain.2⟩⟩

end Context

namespace Debugger

open Context (Plainly)

structure Plain (d : Debugger) : Prop where
  contexts : ∀ id, (d.context id).Plain
  kept : ∀ entry ∈ d.postMortems, (d.context entry.2.context).dead

namespace Plain

variable {d d' : Debugger} (h : d.Plain)
include h

theorem of_same (contexts : d'.contexts = d.contexts) (kept : d'.postMortems = d.postMortems) : d'.Plain := by
  have same (id : ContextId) : d'.context id = d.context id := by rw [context, contexts, context]
  refine ⟨fun id => same id ▸ h.contexts id, fun entry member => ?_⟩
  rw [same]
  exact h.kept entry (kept ▸ member)

theorem updateContext (id : ContextId) {f : Context → Context} (hf : Plainly f) : (d.updateContext id f).Plain := by
  refine ⟨fun other => ?_, fun entry member => ?_⟩
  · exact d.preserves_updateContext id (fun {context} => (hf context).2) (h.contexts other)
  · exact d.preserves_updateContext (P := (·.dead)) id (fun {context} dead => (hf context).1.trans dead)
      (h.kept entry member)

theorem addContext {context : Context} (plain : context.Plain) : (d.addContext context).2.Plain := by
  refine ⟨fun id => d.preserves_addContext (fun _ => plain) (h.contexts id), fun entry member => ?_⟩
  exact d.preserves_addContext (P := (·.dead)) nofun (h.kept entry member)

theorem command {id : ContextId} {f : Context → Except Error Context}
    (keeps : ∀ {context context'}, f context = .ok context' →
      context'.dead = context.dead ∧ (context.Plain → context'.Plain))
    (commanded : d.command id f = .ok d') : d'.Plain := by
  have same : d'.postMortems = d.postMortems := by
    obtain ⟨_, _, changed⟩ := except_bind_eq_ok commanded
    cases changed
    rfl
  refine ⟨fun other => ?_, fun entry member => ?_⟩
  · exact preserves_command (fun is => (keeps is).2) commanded (h.contexts other)
  · exact preserves_command (P := (·.dead)) (fun is dead => (keeps is).1.trans dead) commanded
      (h.kept entry (same ▸ member))

/-! ## Parts of dispatch -/

variable (system : Nat) (id : ContextId)

theorem captureBinding (receiver : Option Value) : (d.captureBinding system receiver).2.Plain := h.of_same rfl rfl

theorem openFrame (event : Event) (position : Position) : (d.openFrame system id event position).Plain :=
  have captured : (d.newFrame system event position).2.Plain := h.of_same rfl rfl
  captured.updateContext id (f := (·.push _)) fun _ => ⟨rfl, fun plain => plain⟩

theorem moveTop (event : Event) (position : Position) (native : Bool) :
    (d.updateContext id (·.moveTop event position native)).Plain :=
  h.updateContext id fun _ => ⟨rfl, fun plain => plain⟩

theorem halt (position : Position) : (d.halt id position).2.Plain :=
  have noted : ({ d with lastHalted := some (d.context id).number } : Debugger).Plain := h.of_same rfl rfl
  noted.updateContext id Context.plainly_savePosition

theorem haltAt (position : Position) (onLine : Bool) : (d.haltAt id position onLine).2.Plain := by
  unfold Debugger.haltAt
  split
  · have cleared := h.updateContext id (f := Context.clearSteps) fun _ => ⟨rfl, fun plain => plain⟩
    exact cleared.halt id position
  · exact h.halt id position

theorem haltOnBreakpoint (found : Found) (position : Position) (onLine : Bool) :
    (d.haltOnBreakpoint id found position onLine).2.Plain := by
  unfold Debugger.haltOnBreakpoint
  split
  · have cleared := h.updateContext id (f := ({ · with temporary := none })) fun _ =>
      ⟨rfl, fun plain => ⟨plain.1, rfl⟩⟩
    exact cleared.haltAt id position onLine
  · exact h.updateContext id fun _ => ⟨rfl, fun plain => plain⟩

theorem captureLine (receiver : Option Value) : (d.captureLine system id receiver).2.Plain :=
  (h.captureBinding system receiver).updateContext id fun _ => ⟨rfl, fun plain => plain⟩

theorem checkLine (position : Position) (receiver : Option Value) (moved : Bool) :
    (d.checkLine system id position receiver moved).2.Plain := by
  have counted := h.updateContext id (Context.plainly_countLine moved)
  have captured := counted.captureLine system id receiver
  simp only [Debugger.checkLine]
  split
  · exact captured.haltAt id position true
  · split
    · exact counted
    · split
      · exact captured.haltOnBreakpoint id _ position true
      · exact captured

/-! ## Events -/

variable (event : Event) (position : Position)

theorem onLine (conditional moved : Bool) : (d.onLine system id event position conditional moved).2.Plain := by
  have placed : (if (d.context id).stack.isEmpty then d.openFrame system id event position
      else d.updateContext id (·.moveTop event position false)).Plain := by
    split
    · exact h.openFrame system id event position
    · exact h.moveTop id event position false
  simp only [Debugger.onLine]
  generalize (if (d.context id).stack.isEmpty then d.openFrame system id event position
    else d.updateContext id (·.moveTop event position false)) = d' at placed ⊢
  split
  · exact placed
  · split
    · exact placed
    · exact placed.checkLine system id position event.receiver moved

theorem onCall : (d.onCall system id event position).2.Plain := by
  have opened := h.openFrame system id event position
  rw [onCall_eq]
  dsimp only
  split
  · exact opened
  · next found _ =>
      generalize d.openFrame system id event position = d' at opened ⊢
      have captured : (d'.callBinding system id event.receiver).2.Plain := by
        unfold callBinding
        split
        · exact opened
        · exact opened.captureBinding system event.receiver
      generalize d'.callBinding system id event.receiver = bound at captured ⊢
      have bound := captured.updateContext id (f := (·.setTopBinding bound.1)) fun _ => ⟨rfl, fun plain => plain⟩
      split
      · exact bound.haltOnBreakpoint id found position false
      · exact bound

theorem attachPostMortem (exception : Value) {postMortem : PostMortem} (dead : (d.context postMortem.context).dead) :
    (d.attachPostMortem exception postMortem).Plain := by
  have same (id : ContextId) := d.context_attachPostMortem exception postMortem id
  refine ⟨fun id => same id ▸ h.contexts id, fun entry member => ?_⟩
  rw [same]
  have either : entry ∈ d.postMortems ∨ entry.2 = postMortem := by
    unfold Debugger.attachPostMortem at member
    split at member
    · split at member
      · obtain ⟨old, was, rfl⟩ := List.mem_map.mp member
        split
        · exact .inr rfl
        · exact .inl was
      · rcases List.mem_append.mp member with old | new
        · exact .inl old
        · exact .inr (List.mem_singleton.mp new ▸ rfl)
    · exact .inl member
  rcases either with old | rfl
  · exact h.kept entry old
  · exact dead

theorem keepPostMortem (exception : Value) :
    (d.keepPostMortem system id event position exception).2.Plain := by
  simp only [Debugger.keepPostMortem]
  split
  · have captured := h.captureBinding system event.receiver
    generalize d.captureBinding system event.receiver = bound at captured ⊢
    have added := captured.addContext ((bound.2.context id).plain_freeze bound.2.host.scopes)
    exact added.attachPostMortem exception (congrArg Context.dead (context_addContext_new _ _))
  · exact h

theorem forceStop : d.forceStop.Plain := by
  refine h.of_same d.contexts_forceStop ?_
  simp only [Debugger.forceStop]
  split <;> rfl

theorem onRaise (exception : Value) : (d.onRaise system id event position exception).2.Plain := by
  have kept := (h.moveTop id event position false).keepPostMortem system id event position exception
  simp only [Debugger.onRaise]
  split
  · exact kept.forceStop
  · split
    · exact kept
    · split
      · exact kept.updateContext id fun _ => ⟨rfl, fun plain => plain⟩
      · exact kept

theorem dispatchAt (moved : Bool) : (d.dispatchAt system id event position moved).2.Plain := by
  unfold Debugger.dispatchAt
  split
  · exact h.onLine system id event position _ moved
  · exact h.onCall system id event position
  · exact h.updateContext id (Context.plainly_returnFrom event.method)
  · exact h.updateContext id (Context.plainly_returnFrom event.method)
  · have closed := h.updateContext id (f := fun context =>
      { context with stack := context.stack.modifyTop fun frame => { frame with method := none } })
      fun _ => ⟨rfl, fun plain => plain⟩
    exact closed.openFrame system id event position
  · split
    · exact h.openFrame system id event position
    · exact h.moveTop id event position true
  · split
    · exact h.updateContext id (Context.plainly_returnFrom event.method)
    · exact h
  · exact h.onRaise system id event position _

theorem dispatch : (d.dispatch system id event).2.Plain := by
  have noted := h.updateContext id (f := (·.noteEvent event.position event.kind.isLine)) fun _ =>
    ⟨rfl, fun plain => plain⟩
  simp only [Debugger.dispatch]
  split
  · exact h
  · split
    · exact noted.dispatchAt system id event _ _
    · split
      · exact noted.updateContext id (Context.plainly_returnFrom event.method)
      · exact noted

omit event position in
theorem run (next : Continuation) : (next.run d system id).2.Plain := by
  cases next with
  | lineTraced position receiver moved => exact h.checkLine system id position receiver moved
  | breakpointReported position onLine => exact h.haltAt id position onLine
  | exceptionReported position receiver binding =>
      have bound {d : Debugger} (h : d.Plain) (binding : Option Binding) :
          (d.updateContext id (·.setTopBinding binding)).Plain :=
        h.updateContext id fun _ => ⟨rfl, fun plain => plain⟩
      cases binding with
      | some binding => exact (bound h _).halt id position
      | none => exact (bound (h.captureBinding system receiver) _).halt id position
  | resumed => exact h

/-! ## The recorder -/

variable (r : Recorder)

omit event system in
theorem onHalt : (Recorder.onHalt id position (d, r)).2.1.Plain := by
  rw [Recorder.onHalt_eq]
  split
  · exact h
  · dsimp only
    split
    · exact h
    · next commanded => exact h.command (Context.plainly_command r.mode) commanded

omit event system in
theorem onTrace : (Recorder.onTrace id position (d, r)).2.1.Plain := by
  rw [Recorder.onTrace_eq]
  split <;> exact h

omit id event position in
theorem frontEnd (callback : Callback) : (Recorder.frontEnd system callback (d, r)).2.1.Plain := by
  cases callback with
  | line id position => exact h.onHalt id position r
  | tracing id position => exact h.onTrace id position r
  | breakpoint id bp => exact h
  | catchpoint id exception => exact h

omit event position in
theorem drive (n : Nat) (o : Outcome) : (o.drive Recorder.frontEnd system id n (d, r)).2.1.Plain := by
  induction n generalizing o d r with
  | zero => cases o <;> exact h
  | succ n ih =>
      cases o with
      | done => exact h
      | call callback next =>
          have called := h.frontEnd system r callback
          rw [drive_call]
          generalize Recorder.frontEnd system callback (d, r) = x at called ⊢
          obtain ⟨_ | _, d', r'⟩ := x
          · exact called
          · exact ih (called.run system id next) r' _

/-! ## The way of an event -/

omit system id event position r

theorem track (session : Session) (thread : Thread) : (d.track session thread).2.Plain := by
  have counted : ({ d with contextCount := d.contextCount + 1 } : Debugger).Plain := h.of_same rfl rfl
  unfold Debugger.track
  split
  · exact h.of_same rfl rfl
  · exact (counted.addContext (Context.plain_initial _ _ _)).of_same rfl rfl

theorem release : d.release.Plain := by
  simp only [Debugger.release]
  split
  · exact h.of_same rfl rfl
  · simp only [pruneWhenDue]
    split <;> exact h.of_same rfl rfl

end Plain

end Debugger

end EventDebugger
