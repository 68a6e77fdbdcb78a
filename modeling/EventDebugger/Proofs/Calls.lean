import EventDebugger.Proofs.Handling

/-!
# The calls of the front-end

Which calls of the front-end are made while an event is handled with the ticket: a front-end that keeps
a log of its calls shows them, and is otherwise no different.

* `drive_logged`: the log is extended by the calls of the outcome, and nothing else changes.
* `Debugger.about_dispatch`, `Continuation.about_run`: which calls can be made, and what then remains.
-/

namespace EventDebugger

variable {σ ε : Type}

def FrontEnd.logged (front : FrontEnd σ ε) : FrontEnd (σ × List Callback) ε :=
  fun system callback (d, state, log) =>
    let (answer, d, state) := front system callback (d, state)
    (answer, d, state, log ++ [callback])

/-- The calls that are made while an event is handled with the ticket. -/
def callsOf (front : FrontEnd σ ε) (system : Nat) (id : ContextId) (event : Event) (d : Debugger)
    (state : σ) : List Callback :=
  (handleWithTicket front.logged system id event (d, state, [])).2.2.2

def Outcome.calls (front : FrontEnd σ ε) (system : Nat) (id : ContextId) :
    Nat → Outcome → Debugger → σ → List Callback
  | _, .done, _, _ => []
  | 0, .call _ _, _, _ => []
  | n + 1, .call callback next, d, state =>
      callback :: match front system callback (d, state) with
        | (.error _, _, _) => []
        | (.ok (), d, state) =>
            let piece := next.run d system id
            piece.1.calls front system id n piece.2 state

theorem drive_logged (front : FrontEnd σ ε) (system : Nat) (id : ContextId) (n : Nat) (outcome : Outcome)
    (d : Debugger) (state : σ) (log : List Callback) :
    outcome.drive front.logged system id n (d, state, log) =
      let driven := outcome.drive front system id n (d, state)
      (driven.1, driven.2.1, driven.2.2, log ++ outcome.calls front system id n d state) := by
  induction n generalizing outcome d state log with
  | zero => cases outcome <;> simp only [Outcome.calls, List.append_nil] <;> rfl
  | succ n ih =>
      cases outcome with
      | done => simp only [drive_done, Outcome.calls, List.append_nil]
      | call callback next =>
          have logged : front.logged system callback (d, state, log) =
            let (answer, d, state) := front system callback (d, state)
            (answer, d, state, log ++ [callback]) := rfl
          rw [drive_call, drive_call, Outcome.calls, logged]
          rcases front system callback (d, state) with ⟨_ | _, d, state⟩
          · rfl
          · simp only [ih, List.append_assoc, List.singleton_append]

theorem callsOf_eq (front : FrontEnd σ ε) (system : Nat) (id : ContextId) (event : Event) (d : Debugger)
    (state : σ) :
    callsOf front system id event d state =
      let piece := d.dispatch system id event
      piece.1.calls front system id piece.1.rank piece.2 state := by
  simp only [callsOf, handleWithTicket_eq, Outcome.complete, drive_logged, List.nil_append]

/-- A front-end that never fails. -/
def FrontEnd.Succeeds (front : FrontEnd σ ε) : Prop :=
  ∀ system callback run, (front system callback run).1 = .ok ()

theorem FrontEnd.Succeeds.calls {front : FrontEnd σ ε} (succeeds : front.Succeeds) (system : Nat)
    (id : ContextId) (n : Nat) (callback : Callback) (next : Continuation) (d : Debugger) (state : σ) :
    Outcome.calls front system id (n + 1) (.call callback next) d state =
      let answered := (front system callback (d, state)).2
      let piece := next.run answered.1 system id
      callback :: piece.1.calls front system id n piece.2 answered.2 := by
  have answer := succeeds system callback (d, state)
  rw [Outcome.calls]
  rcases eq : front system callback (d, state) with ⟨_ | _, d, state⟩
  · rw [eq] at answer
    cases answer
  · rfl

/-! ## What calls are about -/

/-- The ways in which a piece of dispatch can end: with a call on the context of the event, and after
an announcement with a halt. -/
inductive Outcome.About (id : ContextId) : Outcome → Prop
  | done : About id .done
  | traced (position : Position) (receiver : Option Value) (moved : Bool) :
      About id (.call (.tracing id position) (.lineTraced position receiver moved))
  | breakpoint (bp : Breakpoint) (position : Position) (onLine : Bool) :
      About id (.call (.breakpoint id bp) (.breakpointReported position onLine))
  | catchpoint (exception : Value) (position : Position) (receiver : Option Value)
      (binding : Option Binding) :
      About id (.call (.catchpoint id exception) (.exceptionReported position receiver binding))
  | halted (position : Position) : About id (.call (.line id position) .resumed)

namespace Debugger

open Outcome (About)

variable (d : Debugger) (system : Nat) (id : ContextId)

theorem outcome_haltAt (position : Position) (onLine : Bool) :
    (d.haltAt id position onLine).1 = .call (.line id position) .resumed := by
  cases onLine <;> rfl

theorem about_haltOnBreakpoint (found : Found) (position : Position) (onLine : Bool) :
    About id (d.haltOnBreakpoint id found position onLine).1 := by
  simp only [haltOnBreakpoint]
  split
  · rw [outcome_haltAt]
    exact .halted position
  · exact .breakpoint found.breakpoint position onLine

theorem about_checkLine (position : Position) (receiver : Option Value) (moved : Bool) :
    About id (d.checkLine system id position receiver moved).1 := by
  simp only [checkLine]
  split
  · exact .halted position
  · split
    · exact .done
    · split
      · exact about_haltOnBreakpoint _ id _ position true
      · exact .done

theorem about_onLine (event : Event) (position : Position) (conditional moved : Bool) :
    About id (d.onLine system id event position conditional moved).1 := by
  simp only [onLine]
  generalize (if (d.context id).stack.isEmpty then d.openFrame system id event position
    else d.updateContext id (·.moveTop event position false)) = d'
  split
  · exact .done
  · split
    · exact .traced position event.receiver moved
    · exact about_checkLine d' system id position event.receiver moved

theorem about_onCall (event : Event) (position : Position) :
    About id (d.onCall system id event position).1 := by
  simp only [onCall]
  split
  · exact .done
  · split
    all_goals
      split
      · exact about_haltOnBreakpoint _ id _ position false
      · exact .done

theorem about_onRaise (event : Event) (position : Position) (exception : Value) :
    About id (d.onRaise system id event position exception).1 := by
  simp only [onRaise]
  split
  · exact .done
  · split
    · exact .done
    · split
      · exact .catchpoint exception position event.receiver _
      · exact .done

theorem about_dispatch (event : Event) : About id (d.dispatch system id event).1 := by
  simp only [dispatch]
  split
  · exact .done
  · split
    · next position _ =>
        simp only [dispatchAt]
        split
        · exact about_onLine _ system id event position _ _
        · exact about_onCall _ system id event position
        · exact .done
        · exact .done
        · exact .done
        · split <;> exact .done
        · split <;> exact .done
        · exact about_onRaise _ system id event position _
    · split <;> exact .done

end Debugger

theorem Continuation.about_run (next : Continuation) (d : Debugger) (system : Nat) (id : ContextId) :
    Outcome.About id (next.run d system id).1 := by
  cases next with
  | lineTraced position receiver moved => exact d.about_checkLine system id position receiver moved
  | breakpointReported position onLine =>
      simp only [run, Debugger.outcome_haltAt]
      exact .halted position
  | exceptionReported position receiver binding => exact .halted position
  | resumed => exact .done

/-! ## Halts -/

/-- The outcome halts a context on a position: the front-end is called there, or a breakpoint is
announced before. -/
inductive Outcome.Halts (id : ContextId) (position : Position) : Outcome → Prop where
  | line : Halts id position (.call (.line id position) .resumed)
  | announced (bp : Breakpoint) (onLine : Bool) :
      Halts id position (.call (.breakpoint id bp) (.breakpointReported position onLine))

theorem Debugger.halts_haltOnBreakpoint (d : Debugger) (id : ContextId) (found : Debugger.Found)
    (position : Position) (onLine : Bool) :
    (d.haltOnBreakpoint id found position onLine).1.Halts id position := by
  simp only [Debugger.haltOnBreakpoint]
  split
  · rw [outcome_haltAt]
    exact .line
  · exact .announced found.breakpoint onLine

theorem Outcome.Halts.mem_calls {front : FrontEnd σ ε} (succeeds : front.Succeeds) (system : Nat)
    {id : ContextId} {position : Position} {outcome : Outcome} (halts : outcome.Halts id position) {n : Nat}
    (enough : outcome.rank ≤ n) (d : Debugger) (state : σ) :
    .line id position ∈ outcome.calls front system id n d state := by
  cases halts with
  | line =>
      obtain ⟨n, rfl⟩ := Nat.exists_eq_add_of_le' enough
      rw [Outcome.rank, Continuation.rank, succeeds.calls]
      exact List.mem_cons_self
  | announced bp onLine =>
      obtain ⟨n, rfl⟩ := Nat.exists_eq_add_of_le' enough
      rw [Outcome.rank, Continuation.rank, succeeds.calls]
      apply List.mem_cons_of_mem
      simp only [Continuation.run, Debugger.outcome_haltAt]
      rw [succeeds.calls]
      exact List.mem_cons_self

theorem Outcome.mem_calls_iff {front : FrontEnd σ ε} (succeeds : front.Succeeds) (system : Nat)
    {id : ContextId} {position : Position} {outcome : Outcome}
    (either : outcome = .done ∨ outcome.Halts id position) {n : Nat} (enough : outcome.rank ≤ n)
    (d : Debugger) (state : σ) :
    .line id position ∈ outcome.calls front system id n d state ↔ outcome.Halts id position := by
  constructor
  · intro called
    rcases either with rfl | halts
    · rw [Outcome.calls] at called
      cases called
    · exact halts
  · intro halts
    exact halts.mem_calls succeeds system enough d state

end EventDebugger
