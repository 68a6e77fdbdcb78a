import EventDebugger.Proofs.Calls

/-!
# The course of the calls of one event

An event calls the front-end a few times at most, in an order that depends on its kind: a line is traced first,
a breakpoint or an exception is announced before the halt. The first call that fails ends the event, which
fails with that error; nothing else makes it fail. This holds in every state of the debugger, and for every
front-end, whatever it does when it is called.

* `Debugger.scripts_dispatch`, `Continuation.scripts_run`: which calls can be made from here on.
* `drive_recorded`: the calls that are made, and the result.
* `handleEvent_records`, `continueEvent_records`: the calls of an event, from its arrival on or from a wait on.
-/

namespace EventDebugger

variable {σ ε : Type}

/-! ## Scripts -/

/-- What a call of the front-end tells. -/
inductive CallKind where
  | line
  | breakpoint
  | catchpoint
  | tracing
deriving DecidableEq, Repr

def Callback.kind : Callback → CallKind
  | .line _ _ => .line
  | .breakpoint _ _ => .breakpoint
  | .catchpoint _ _ => .catchpoint
  | .tracing _ _ => .tracing

/-- The calls that can follow once a call of the front-end has returned. -/
def Continuation.scripts : Continuation → List (List CallKind)
  | .lineTraced .. => [[], [.line], [.breakpoint, .line]]
  | .breakpointReported .. | .exceptionReported .. => [[.line]]
  | .resumed => [[]]

def Outcome.scripts : Outcome → List (List CallKind)
  | .done => [[]]
  | .call callback next => next.scripts.map (callback.kind :: ·)

/-- The calls that an event can make, by its kind. The conditions of control structures make none. -/
def EventKind.scripts : EventKind → List (List CallKind)
  | .line false =>
      [[], [.tracing], [.line], [.tracing, .line], [.breakpoint, .line], [.tracing, .breakpoint, .line]]
  | .call => [[], [.line], [.breakpoint, .line]]
  | .raise _ => [[], [.catchpoint, .line]]
  | _ => [[]]

theorem Outcome.scripts_done_subset {scripts : List (List CallKind)} (silent : [] ∈ scripts) :
    Outcome.done.scripts ⊆ scripts := List.cons_subset.mpr ⟨silent, List.nil_subset _⟩

theorem EventKind.nil_mem_scripts (kind : EventKind) : [] ∈ kind.scripts := by
  cases kind with
  | line conditional => cases conditional <;> exact List.mem_cons_self
  | _ => exact List.mem_cons_self

namespace Debugger

open Outcome (scripts_done_subset)

variable (d : Debugger) (system : Nat) (id : ContextId)

theorem scripts_haltAt (position : Position) (onLine : Bool) :
    (d.haltAt id position onLine).1.scripts = [[.line]] := by
  rw [outcome_haltAt]
  rfl

theorem scripts_haltOnBreakpoint (found : Found) (position : Position) (onLine : Bool) :
    (d.haltOnBreakpoint id found position onLine).1.scripts ⊆ [[], [.line], [.breakpoint, .line]] := by
  simp only [haltOnBreakpoint]
  split
  · rw [scripts_haltAt]
    decide
  · change [[CallKind.breakpoint, .line]] ⊆ _
    decide

theorem scripts_checkLine (position : Position) (receiver : Option Value) (moved : Bool) :
    (d.checkLine system id position receiver moved).1.scripts ⊆ [[], [.line], [.breakpoint, .line]] := by
  simp only [checkLine]
  split
  · change [[CallKind.line]] ⊆ _
    decide
  · split
    · exact scripts_done_subset (by decide)
    · split
      · exact scripts_haltOnBreakpoint _ id _ position true
      · exact scripts_done_subset (by decide)

theorem scripts_onLine (event : Event) (position : Position) (conditional moved : Bool) :
    (d.onLine system id event position conditional moved).1.scripts ⊆ (EventKind.line conditional).scripts := by
  simp only [onLine]
  generalize (if (d.context id).stack.isEmpty then d.openFrame system id event position
    else d.updateContext id (·.moveTop event position false)) = d'
  cases conditional with
  | true => exact scripts_done_subset (by decide)
  | false =>
      rw [if_neg Bool.false_ne_true]
      split
      · change [[CallKind.tracing], [.tracing, .line], [.tracing, .breakpoint, .line]] ⊆ _
        decide
      · have checked := d'.scripts_checkLine system id position event.receiver moved
        exact List.Subset.trans checked (by decide)

theorem scripts_onCall (event : Event) (position : Position) :
    (d.onCall system id event position).1.scripts ⊆ EventKind.call.scripts := by
  simp only [onCall]
  split
  · exact scripts_done_subset (by decide)
  · split
    all_goals
      split
      · exact scripts_haltOnBreakpoint _ id _ position false
      · exact scripts_done_subset (by decide)

theorem scripts_onRaise (event : Event) (position : Position) (exception : Value) :
    (d.onRaise system id event position exception).1.scripts ⊆ (EventKind.raise exception).scripts := by
  have silent : [] ∈ (EventKind.raise exception).scripts := EventKind.nil_mem_scripts _
  simp only [onRaise]
  split
  · exact scripts_done_subset silent
  · split
    · exact scripts_done_subset silent
    · split
      · exact List.cons_subset.mpr ⟨List.mem_cons_of_mem _ List.mem_cons_self, List.nil_subset _⟩
      · exact scripts_done_subset silent

theorem scripts_dispatch (event : Event) :
    (d.dispatch system id event).1.scripts ⊆ event.kind.scripts := by
  have done : Outcome.done.scripts ⊆ event.kind.scripts := scripts_done_subset event.kind.nil_mem_scripts
  simp only [dispatch]
  split
  · exact done
  · split
    · next position _ =>
        simp only [dispatchAt]
        split
        · next kind =>
            rw [kind]
            exact scripts_onLine _ system id event position _ _
        · next kind =>
            rw [kind]
            exact scripts_onCall _ system id event position
        · exact done
        · exact done
        · exact done
        · split <;> exact done
        · split <;> exact done
        · next kind =>
            rw [kind]
            exact scripts_onRaise _ system id event position _
    · split <;> exact done

end Debugger

theorem Continuation.scripts_run (next : Continuation) (d : Debugger) (system : Nat) (id : ContextId) :
    (next.run d system id).1.scripts ⊆ next.scripts := by
  cases next with
  | lineTraced position receiver moved => exact d.scripts_checkLine system id position receiver moved
  | breakpointReported position onLine =>
      rw [run, Debugger.scripts_haltAt]
      exact List.Subset.refl _
  | exceptionReported position receiver binding => exact List.Subset.refl _
  | resumed => exact List.Subset.refl _

/-! ## Calls and their answers -/

/-- A front-end that keeps its calls with their answers, in their order. -/
def FrontEnd.recorded (front : FrontEnd σ ε) : FrontEnd (σ × List (Callback × Except ε Unit)) ε :=
  fun system callback (d, state, log) =>
    let (answer, d, state) := front system callback (d, state)
    (answer, d, state, log ++ [(callback, answer)])

def kindsOf (log : List (Callback × Except ε Unit)) : List CallKind := log.map (·.1.kind)

/-- How calls with their answers come to a result: either all of them succeed and there is nothing left of a
script, or the last one fails, in the middle of a script perhaps, and the result is its error. -/
inductive Conducted (scripts : List (List CallKind)) : List (Callback × Except ε Unit) → HookResult ε → Prop where
  | completed {log : List (Callback × Except ε Unit)} (answers : ∀ call ∈ log, call.2 = .ok ())
      (whole : kindsOf log ∈ scripts) : Conducted scripts log (.ok ())
  | failed {log : List (Callback × Except ε Unit)} {callback : Callback} {error : ε} {script : List CallKind}
      (answers : ∀ call ∈ log, call.2 = .ok ()) (listed : script ∈ scripts)
      (part : kindsOf log ++ [callback.kind] <+: script) :
      Conducted scripts (log ++ [(callback, .error error)]) (.error (.frontEnd error))

namespace Conducted

variable {scripts scripts' : List (List CallKind)} {log : List (Callback × Except ε Unit)} {result : HookResult ε}

theorem mono (h : Conducted scripts log result) (subset : scripts ⊆ scripts') : Conducted scripts' log result := by
  cases h with
  | completed answers whole => exact .completed answers (subset whole)
  | failed answers listed part => exact .failed answers (subset listed) part

theorem cons {next : Continuation} (h : Conducted next.scripts log result) (callback : Callback) :
    Conducted (Outcome.call callback next).scripts ((callback, .ok ()) :: log) result := by
  cases h with
  | completed answers whole =>
      exact .completed (List.forall_mem_cons.mpr ⟨rfl, answers⟩) (List.mem_map_of_mem whole)
  | failed answers listed part =>
      rw [← List.cons_append]
      refine .failed (List.forall_mem_cons.mpr ⟨rfl, answers⟩) (List.mem_map_of_mem listed) ?_
      exact List.cons_prefix_cons.mpr ⟨rfl, part⟩

end Conducted

theorem Continuation.exists_script (next : Continuation) : ∃ script, script ∈ next.scripts := by
  cases next <;> exact ⟨_, List.mem_cons_self⟩

theorem drive_recorded (front : FrontEnd σ ε) (system : Nat) (id : ContextId) (n : Nat) (outcome : Outcome)
    (enough : outcome.rank ≤ n) (d : Debugger) (state : σ) (log : List (Callback × Except ε Unit)) :
    let driven := outcome.drive front system id n (d, state)
    ∃ calls, outcome.drive front.recorded system id n (d, state, log) =
        (driven.1, driven.2.1, driven.2.2, log ++ calls) ∧ Conducted outcome.scripts calls driven.1 := by
  induction n generalizing outcome d state log with
  | zero =>
      cases outcome with
      | done => exact ⟨[], by rw [List.append_nil]; rfl, .completed (List.forall_mem_nil _) List.mem_cons_self⟩
      | call callback next => cases next <;> cases enough
  | succ n ih =>
      cases outcome with
      | done => exact ⟨[], by rw [List.append_nil]; rfl, .completed (List.forall_mem_nil _) List.mem_cons_self⟩
      | call callback next =>
          have recorded : front.recorded system callback (d, state, log) =
            let (answer, d, state) := front system callback (d, state)
            (answer, d, state, log ++ [(callback, answer)]) := rfl
          simp only [drive_call, recorded]
          rcases front system callback (d, state) with ⟨error | _, d, state⟩
          · obtain ⟨script, listed⟩ := next.exists_script
            have part : kindsOf ([] : List (Callback × Except ε Unit)) ++ [callback.kind] <+: callback.kind :: script :=
              List.cons_prefix_cons.mpr ⟨rfl, List.nil_prefix⟩
            exact ⟨[(callback, .error error)], rfl,
              .failed (List.forall_mem_nil _) (List.mem_map_of_mem listed) part⟩
          · have later : (next.run d system id).1.rank ≤ n :=
              Nat.le_of_lt_succ (Nat.lt_of_lt_of_le (next.rank_run_lt d system id) enough)
            obtain ⟨calls, same, conducted⟩ := ih (next.run d system id).1 later (next.run d system id).2 state
              (log ++ [(callback, .ok ())])
            refine ⟨(callback, .ok ()) :: calls, ?_, ?_⟩
            · rw [List.append_assoc, List.singleton_append] at same
              exact same
            · exact (conducted.mono (next.scripts_run d system id)).cons callback

/-! ## Events -/

/-- How the calls that were made for an event go with how far it got: it waits before its first call. -/
def Progress.Conducted (event : Event) (log : List (Callback × Except ε Unit)) : Progress ε → Prop
  | .finished result => EventDebugger.Conducted event.kind.scripts log result
  | .waiting pending => log = [] ∧ pending.event = event

/-- With a front-end that keeps its calls, everything happens as with the front-end itself, and the calls are
those of an event. -/
def Records (event : Event) (run : Run σ (Progress ε))
    (recorded : Run (σ × List (Callback × Except ε Unit)) (Progress ε)) : Prop :=
  ∀ d state, ∃ log, recorded (d, state, []) =
      ((run (d, state)).1, (run (d, state)).2.1, (run (d, state)).2.2, log) ∧
    (run (d, state)).1.Conducted event log

theorem contendAndHandle_records (front : FrontEnd σ ε) (system : Nat) (thread : Thread) (id : ContextId)
    (event : Event) (granted : Bool) :
    Records event (contendAndHandle front system thread id event granted)
      (contendAndHandle front.recorded system thread id event granted) := by
  intro d state
  simp only [contendAndHandle_eq]
  rcases d.contend thread id granted with ⟨turn, d⟩
  cases turn with
  | ticket =>
      let piece := d.dispatch system id event
      obtain ⟨calls, same, conducted⟩ :=
        drive_recorded front system id piece.1.rank piece.1 (Nat.le_refl _) piece.2 state []
      refine ⟨calls, ?_, conducted.mono (d.scripts_dispatch system id event)⟩
      simp only [handleWithTicket_eq, Outcome.complete]
      rw [same]
      rfl
  | dropped => exact ⟨[], rfl, .completed (List.forall_mem_nil _) event.kind.nil_mem_scripts⟩
  | wait reason => exact ⟨[], rfl, rfl, rfl⟩

theorem handleEvent_records (front : FrontEnd σ ε) (system : Nat) (event : Event) :
    Records event (handleEvent front system event) (handleEvent front.recorded system event) := by
  intro d state
  simp only [handleEvent_eq]
  rcases d.arrive system event with ⟨_ | ⟨thread, id⟩, d⟩
  · exact ⟨[], rfl, .completed (List.forall_mem_nil _) event.kind.nil_mem_scripts⟩
  · exact contendAndHandle_records front system thread id event false d state

theorem continueEvent_records (front : FrontEnd σ ε) (pending : PendingEvent) :
    Records pending.event (continueEvent front pending) (continueEvent front.recorded pending) := by
  intro d state
  simp only [continueEvent_eq]
  split
  · exact contendAndHandle_records front pending.system pending.thread pending.context pending.event _ d state
  · exact ⟨[], rfl, rfl, rfl⟩

end EventDebugger
