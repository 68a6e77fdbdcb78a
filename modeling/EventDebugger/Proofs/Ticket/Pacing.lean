import EventDebugger.Proofs.Ticket.Searching

/-!
# Steps that are due

Only a line makes an armed step due, and the line halts then, which turns the step off. Between two pieces of the
dispatch of an event no step is due therefore, unless a command has asked for a step over no line at all.

* `World.Acts.undue`: the steps without such commands.
-/

namespace EventDebugger

namespace Context

def Undue (context : Context) : Prop := context.isStepDue = false

variable {context context' : Context}

theorem Undue.congr (same : context'.steps = context.steps) (undue : context.Undue) : context'.Undue := by
  simp only [steps, Prod.mk.injEq] at same
  rw [Undue, isStepDue, same.1, same.2.1]
  exact undue

theorem undue_clearSteps (context : Context) : context.clearSteps.Undue := rfl

theorem Undue.seeing (undue : context.Undue) (opens : Option TypeRef → Bool → Bool) (event : Event) :
    (context.seeing opens event).Undue := by
  have returned (method : Option String) : (context.returnFrom method).Undue := by
    simp only [Undue, isStepDue, Bool.or_eq_false_iff, returnFrom] at undue ⊢
    split
    · exact ⟨rfl, undue.2⟩
    · exact undue
  unfold Context.seeing
  dsimp only
  split
  · have same := (context.noteEvent event.position event.kind.isLine).steps_returnFrom event.method
    exact Undue.congr (same.trans (context.steps_returnFrom event.method).symm) (returned event.method)
  · exact undue

end Context

open Context (Undue)

namespace Debugger

variable {d : Debugger} {id : ContextId} {event : Event} {system : Nat} {position : Position}
  {receiver : Option Value} {moved : Bool}

theorem undue_updateContext (undue : (d.context id).Undue) (f : Context → Context)
    (hf : ∀ context, (f context).steps = context.steps) : ((d.updateContext id f).context id).Undue :=
  d.preserves_updateContext id (fun {context} holds => Undue.congr (hf context) holds) undue

theorem undue_haltAt (undue : (d.context id).Undue) (position : Position) (onLine : Bool) :
    ((d.haltAt id position onLine).2.context id).Undue := by
  have halted {d : Debugger} (undue : (d.context id).Undue) : ((d.halt id position).2.context id).Undue :=
    undue_updateContext (d := { d with lastHalted := some (d.context id).number }) undue Context.savePosition
      Context.steps_savePosition
  cases onLine with
  | false => exact halted undue
  | true => exact halted (d.preserves_updateContext id (fun {context} _ => context.undue_clearSteps) undue)

theorem undue_haltOnBreakpoint (undue : (d.context id).Undue) (found : Found) (position : Position) (onLine : Bool) :
    ((d.haltOnBreakpoint id found position onLine).2.context id).Undue := by
  simp only [haltOnBreakpoint]
  split
  · have spent := undue_updateContext undue (fun context => { context with temporary := none }) fun _ => rfl
    exact undue_haltAt spent position onLine
  · exact undue_updateContext undue _ fun _ => rfl

theorem undue_checkLine (known : id < d.contexts.size) :
    ((d.checkLine system id position receiver moved).2.context id).Undue := by
  cases due : ((d.context id).countLine moved).isStepDue with
  | true =>
      have disarmed : ((d.checkLine system id position receiver moved).2.context id).steps =
          (d.context id).clearSteps.steps := (checkLine_due system position receiver known due).2.2
      exact Undue.congr disarmed (d.context id).undue_clearSteps
  | false =>
      have counted : ((d.updateContext id (·.countLine moved)).context id).Undue := by
        rw [d.context_updateContext_self _ known]
        exact due
      simp only [checkLine]
      generalize d.updateContext id (·.countLine moved) = d' at counted ⊢
      have captured : ((d'.captureLine system id receiver).2.context id).Undue :=
        undue_updateContext (d := (d'.captureBinding system receiver).2) counted
          (fun context => { context.setTopBinding _ with reason := .step }) fun _ => rfl
      split
      · next due => exact absurd due (counted ▸ Bool.false_ne_true)
      · split
        · exact counted
        · next found _ =>
            split
            · exact undue_haltOnBreakpoint captured found position true
            · exact captured

theorem undue_dispatch (known : id < d.contexts.size) (undue : (d.context id).Undue) :
    ((d.dispatch system id event).2.context id).Undue := by
  cases skipped : (d.context id).skipped with
  | true =>
      simp only [dispatch, skipped, if_true]
      exact undue
  | false =>
      have carried (unchecked : event.line? = none ∨ (d.settings.tracing || (d.context id).tracing) = true) :=
        Undue.congr (carries_dispatch known system skipped unchecked).1 (undue.seeing d.opensNativeFrame event)
      cases line : event.line? with
      | none => exact carried (.inl line)
      | some position =>
          cases traced : d.settings.tracing || (d.context id).tracing with
          | true => exact carried (.inr traced)
          | false =>
              rw [dispatch_checks known skipped traced line]
              exact undue_checkLine (Nat.lt_of_lt_of_le known (d.touches_placed system id event position).size)

theorem undue_run (known : id < d.contexts.size) (undue : (d.context id).Undue) (next : Continuation) :
    ((next.run d system id).2.context id).Undue := by
  cases next with
  | lineTraced => exact undue_checkLine known
  | breakpointReported position onLine => exact undue_haltAt undue position onLine
  | exceptionReported position receiver binding =>
      have halted {d : Debugger} (undue : (d.context id).Undue) (binding : Option Binding) :
          (((d.updateContext id (·.setTopBinding binding)).halt id position).2.context id).Undue :=
        undue_haltAt (undue_updateContext undue (·.setTopBinding binding) fun _ => rfl) position false
      cases binding with
      | some binding => exact halted undue (some binding)
      | none => exact halted (d := (d.captureBinding system receiver).2) undue _
  | resumed => exact undue

end Debugger

/-! ## Commands -/

def Request.isZeroStep : Request → Bool
  | .context _ (.step n _) | .context _ (.stepOver n _ _) => n == 0
  | _ => false

theorem Context.checkSteps_eq_ok {n : Int} {steps : Nat} (h : checkSteps n = .ok steps) (some : (n == 0) = false) :
    (Countdown.armed steps).isDue = false := by
  unfold checkSteps at h
  split at h
  · cases h
    rw [Countdown.isDue_armed]
    have positive := beq_eq_false_iff_ne.mp some
    exact beq_eq_false_iff_ne.mpr (by omega)
  · cases h

namespace Debugger

theorem step_undue {n : Int} {force : Bool} (some : (n == 0) = false) : Arming (·.step n force) Undue := by
  intro context context' h undue
  obtain ⟨steps, checked, stepped⟩ := except_bind_eq_ok h
  cases stepped
  simp only [Undue, Context.isStepDue, Bool.or_eq_false_iff] at undue ⊢
  exact ⟨Context.checkSteps_eq_ok checked some, undue.2⟩

theorem stepOver_undue {n : Int} {frame : Option Int} {force : Bool} (some : (n == 0) = false) :
    Arming (·.stepOver n frame force) Undue := by
  intro context context' h undue
  obtain ⟨steps, checked, h⟩ := except_bind_eq_ok h
  simp only [Undue, Context.isStepDue, Bool.or_eq_false_iff] at undue ⊢
  have armed := Context.checkSteps_eq_ok checked some
  simp only at h
  split at h
  · cases h
  · split at h
    · obtain ⟨_, _, stepped⟩ := except_bind_eq_ok h
      cases stepped
      exact ⟨undue.1, armed⟩
    · cases h
      exact ⟨undue.1, armed⟩

theorem stopFrame_undue {index : Int} : Arming (·.stopFrame index) Undue := by
  intro context context' h undue
  obtain ⟨_, _, stopped⟩ := except_bind_eq_ok h
  cases stopped
  exact undue

theorem interrupt_undue : Arming Context.interrupt Undue := fun _ _ h => step_undue rfl h

end Debugger

open Debugger

theorem Request.arms_undue (request : Request) (some : request.isZeroStep = false) : request.Arms Undue := by
  intro f arms
  cases request with
  | debugger command =>
      cases command with
      | interrupt | interruptLast =>
          cases arms
          exact interrupt_undue
      | _ => cases arms
  | context other command =>
      cases command with
      | step =>
          cases arms
          exact step_undue some
      | interrupt =>
          cases arms
          exact interrupt_undue
      | stepOver =>
          cases arms
          exact stepOver_undue some
      | stopFrame =>
          cases arms
          exact stopFrame_undue
      | _ => cases arms

/-! ## Runs -/

namespace World

variable {w w' : World} {s : Nat} {move : Move} {act : Act} {id : ContextId} {task : Task} {rest : List Task}
  {piece : Outcome × Debugger}

def Paced (_ : World) (_ : Nat) (act : Act) : Prop :=
  ∀ request, act = .move (.request request) → request.isZeroStep = false

theorem Paced.arms (paced : w.Paced s act) : act.Arms Undue := by
  cases act with
  | move move =>
      cases move with
      | request request => exact request.arms_undue (paced request rfl)
      | _ => trivial
  | load => exact interrupt_undue
  | meet | skip | keep => trivial

theorem Piece.undue (is : w.Piece s move task rest piece) (known : task.context < w.debugger.contexts.size) :
    Debugger.Preserves Undue id w.debugger piece.2 := by
  by_cases own : id = task.context
  · subst own
    intro undue
    cases is with
    | dispatch tasks stage => exact undue_dispatch known undue
    | answer tasks stage => exact undue_run known undue _
  · have spared : Context.Spared Undue id task.context := ⟨fun same => absurd same own, fun _ _ _ => rfl⟩
    cases is with
    | dispatch tasks stage => exact spared_dispatch spared w.debugger s _
    | answer tasks stage => exact spared_run spared w.debugger s _

theorem Acts.undue (acts : w.Acts s act w') (lodged : w.Lodged) (paced : w.Paced s act) :
    Debugger.Preserves Undue id w.debugger w'.debugger := by
  by_cases dispatches : ∃ move, act = .move move ∧ move.isDispatch
  · obtain ⟨move, rfl, dispatches⟩ := dispatches
    cases acts with
    | move step =>
        obtain ⟨task, rest, piece, is, rfl⟩ := step.piece dispatches
        have event := Stage.not_isInspecting_of_holds is.holds
        exact is.undue (lodged.home s task (mem_innermost is.tasks) event).1
  · have tolerant : Tolerant Undue := ⟨fun undue _ _ _ => undue, fun _ _ _ _ => rfl⟩
    refine acts.preserves tolerant (fun undue => undue) (fun undue _ => undue) (fun move is => ?_) paced.arms
      (.inl fun undue _ _ => undue)
    exact eq_false_of_ne_true fun is' => dispatches ⟨move, is, is'⟩

end World

end EventDebugger
