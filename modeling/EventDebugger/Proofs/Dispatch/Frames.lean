import EventDebugger.Proofs.Calls
import EventDebugger.Proofs.Dispatch.Outline

/-!
# The frame of a halt

An event that may call the front-end puts the innermost frame of its context at its position before it
does, and a halt saves the position of that frame. A raise opens no frame: where there is none, the
exception is reported all the same.

* `Debugger.haltedAt_dispatch`, `Debugger.haltedAt_run`: a halt has a frame, which is at its position.
* `Debugger.ready_dispatch`: what is known of the frame while the front-end is called.
-/

namespace EventDebugger

def Continuation.position? : Continuation → Option Position
  | .lineTraced position _ _ | .breakpointReported position _ | .exceptionReported position _ _ =>
      some position
  | .resumed => none

/-- Whether the rest of an event follows the report of an exception. -/
def Continuation.isReport : Continuation → Bool
  | .exceptionReported .. => true
  | _ => false

namespace Context

def place? (context : Context) : Option Position := context.outline.head?.map (·.1)

/-- The context has a frame, which is at a position, and this is the position of its last halt. -/
structure HaltedAt (position : Position) (context : Context) : Prop where
  frame : context.stack.head?.map (·.position) = some position
  saved : context.lastPosition = some position

theorem place?_eq (context : Context) : context.place? = context.stack.head?.map (·.position) := by
  simp only [place?, outline, List.head?_map, Option.map_map]
  rfl

theorem place?_congr {context context' : Context} (same : context'.outline = context.outline) :
    context'.place? = context.place? := by rw [place?, same, place?]

def IsSaved (context : Context) : Prop :=
  ∀ position, context.place? = some position → context.lastPosition = some position

theorem isSaved_savePosition (context : Context) : context.savePosition.IsSaved := by
  intro position place
  rw [place?_congr context.outline_savePosition, place?_eq] at place
  cases stack : context.stack with
  | nil =>
      rw [stack] at place
      cases place
  | cons frame rest =>
      rw [stack] at place
      simpa only [savePosition, stack, List.head?_cons, Option.map_some] using place

end Context

/-- The rest of an event halts on the innermost frame, if it halts at all, unless it is the report of an
exception that was raised without any frame. -/
def Continuation.Ready (next : Continuation) (context : Context) : Prop :=
  ∀ position, next.position? = some position →
    context.place? = some position ∨ (context.stack = [] ∧ next.isReport)

theorem Continuation.Ready.congr {next : Continuation} {context context' : Context}
    (h : next.Ready context) (same : context'.stack = context.stack) : next.Ready context' := by
  intro position is
  have place : context'.place? = context.place? := by rw [context'.place?_eq, same, context.place?_eq]
  rw [place, same]
  exact h position is

theorem Event.head_effect {event : Event} (calls : event.kind.mayCall) (opens : Option TypeRef → Bool → Bool)
    (position : Position) (outline : Outline) :
    (event.effect opens position outline).head?.map (·.1) = some position ∨
      (event.effect opens position outline = [] ∧ ∃ exception, event.kind = .raise exception) := by
  cases kind : event.kind with
  | line conditional =>
      left
      cases outline <;> simp [effect, kind, Outline.moveTop]
  | call =>
      left
      simp [effect, kind]
  | raise exception =>
      cases outline with
      | nil => exact .inr ⟨by simp [effect, kind, Outline.moveTop], exception, rfl⟩
      | cons entry rest =>
          left
          simp [effect, kind, Outline.moveTop]
  | _ =>
      rw [kind] at calls
      cases calls

namespace Debugger

/-- A piece of dispatch that halts nowhere else than at a position, which is saved then, and leads to no
halt elsewhere. -/
structure Stands (id : ContextId) (position : Position) (piece : Outcome × Debugger) : Prop where
  halts : ∀ {place next}, piece.1 = .call (.line id place) next →
    place = position ∧ (piece.2.context id).IsSaved
  awaits : ∀ {callback next place}, piece.1 = .call callback next → next.position? = some place →
    place = position

theorem stands_done (id : ContextId) (position : Position) (d : Debugger) : Stands id position (.done, d) :=
  ⟨(fun call => by cases call), (fun call => by cases call)⟩

theorem stands_call {id : ContextId} {position : Position} {callback : Callback} {next : Continuation}
    (notLine : ∀ place, callback ≠ .line id place) (at' : next.position? = some position) (d : Debugger) :
    Stands id position (.call callback next, d) := by
  refine ⟨fun {place _} call => ?_, fun call is => ?_⟩
  · cases call
    exact absurd rfl (notLine place)
  · cases call
    exact Option.some.inj (is.symm.trans at')

variable {d : Debugger} {id : ContextId} (known : id < d.contexts.size)

include known

theorem stands_halt (position : Position) : Stands id position (d.halt id position) := by
  have known' : id < { d with lastHalted := some (d.context id).number }.contexts.size := known
  refine ⟨fun call => ?_, fun call is => ?_⟩
  · cases call
    refine ⟨rfl, ?_⟩
    simp only [halt]
    rw [context_updateContext_self _ _ known']
    exact Context.isSaved_savePosition _
  · cases call
    cases is

theorem stands_haltAt (position : Position) (onLine : Bool) :
    Stands id position (d.haltAt id position onLine) := by
  simp only [haltAt]
  split
  · refine stands_halt ?_ position
    rw [size_updateContext]
    exact known
  · exact stands_halt known position

theorem stands_haltOnBreakpoint (found : Found) (position : Position) (onLine : Bool) :
    Stands id position (d.haltOnBreakpoint id found position onLine) := by
  simp only [haltOnBreakpoint]
  split
  · refine stands_haltAt ?_ position onLine
    rw [size_updateContext]
    exact known
  · exact stands_call (fun place same => by cases same) rfl _

theorem stands_checkLine (system : Nat) (position : Position) (receiver : Option Value) (moved : Bool) :
    Stands id position (d.checkLine system id position receiver moved) := by
  have known' : id < (d.updateContext id (·.countLine moved)).contexts.size := by
    rw [size_updateContext]
    exact known
  simp only [checkLine]
  generalize d.updateContext id (·.countLine moved) = d' at known' ⊢
  have captured := Nat.lt_of_lt_of_le known' (d'.touches_captureLine system id receiver).size
  split
  · exact stands_haltAt captured position true
  · split
    · exact stands_done id position _
    · split
      · exact stands_haltOnBreakpoint captured _ position true
      · exact stands_done id position _

theorem stands_onLine (system : Nat) (event : Event) (position : Position) (conditional moved : Bool) :
    Stands id position (d.onLine system id event position conditional moved) := by
  have placed : id < (if (d.context id).stack.isEmpty then d.openFrame system id event position
      else d.updateContext id (·.moveTop event position false)).contexts.size := by
    split
    · exact Nat.lt_of_lt_of_le known (d.touches_openFrame system id event position).size
    · rw [size_updateContext]
      exact known
  simp only [onLine]
  generalize (if (d.context id).stack.isEmpty then d.openFrame system id event position
    else d.updateContext id (·.moveTop event position false)) = d' at placed ⊢
  split
  · exact stands_done id position d'
  · split
    · exact stands_call (fun place same => by cases same) rfl d'
    · exact stands_checkLine placed system position event.receiver moved

theorem stands_onCall (system : Nat) (event : Event) (position : Position) :
    Stands id position (d.onCall system id event position) := by
  have opened := Nat.lt_of_lt_of_le known (d.touches_openFrame system id event position).size
  simp only [onCall]
  split
  · exact stands_done id position _
  · split
    all_goals
      split
      · refine stands_haltOnBreakpoint ?_ _ position false
        rw [size_updateContext]
        exact opened
      · exact stands_done id position _

omit known in
theorem stands_onRaise (system : Nat) (event : Event) (position : Position) (exception : Value) :
    Stands id position (d.onRaise system id event position exception) := by
  simp only [onRaise]
  split
  · exact stands_done id position _
  · split
    · exact stands_done id position _
    · split
      · exact stands_call (fun place same => by cases same) rfl _
      · exact stands_done id position _

theorem stands_dispatchAt (system : Nat) (event : Event) (position : Position) (moved : Bool) :
    Stands id position (d.dispatchAt system id event position moved) := by
  simp only [dispatchAt]
  split
  · exact stands_onLine known system event position _ moved
  · exact stands_onCall known system event position
  · exact stands_done id position _
  · exact stands_done id position _
  · exact stands_done id position _
  · split <;> exact stands_done id position _
  · split <;> exact stands_done id position _
  · exact stands_onRaise system event position _

omit known in
theorem position_of_calls {system : Nat} {event : Event} (calls : (d.dispatch system id event).1 ≠ .done) :
    (d.context id).skipped = false ∧ ∃ position, event.position = some position := by
  cases skipped : (d.context id).skipped with
  | true =>
      simp only [dispatch, skipped, if_true] at calls
      exact absurd rfl calls
  | false =>
      refine ⟨rfl, ?_⟩
      cases placed : event.position with
      | some position => exact ⟨position, rfl⟩
      | none =>
          simp only [dispatch, skipped, placed, Bool.false_eq_true, if_false] at calls
          split at calls <;> exact absurd rfl calls

theorem stands_dispatch (system : Nat) {event : Event} {position : Position}
    (heeded : (d.context id).skipped = false) (placed : event.position = some position) :
    Stands id position (d.dispatch system id event) := by
  simp only [dispatch, heeded, placed, Bool.false_eq_true, if_false]
  apply stands_dispatchAt
  rw [size_updateContext]
  exact known

theorem stands_run (system : Nat) {next : Continuation} {position : Position}
    (at' : next.position? = some position) : Stands id position (next.run d system id) := by
  cases next with
  | lineTraced place receiver moved =>
      cases at'
      exact stands_checkLine known system position receiver moved
  | breakpointReported place onLine =>
      cases at'
      exact stands_haltAt known position onLine
  | exceptionReported place receiver binding =>
      cases at'
      simp only [Continuation.run]
      apply stands_halt
      rw [size_updateContext]
      split <;> exact known
  | resumed => cases at'

/-! ## Halts -/

omit known in
theorem report_of_raise {system : Nat} {event : Event} {exception : Value} {callback : Callback}
    {next : Continuation} (kind : event.kind = .raise exception)
    (calls : (d.dispatch system id event).1 = .call callback next) :
    callback = .catchpoint id exception ∧ next.isReport := by
  have called : (d.dispatch system id event).1 ≠ .done := fun done => by cases done.symm.trans calls
  obtain ⟨heeded, position, placed⟩ := position_of_calls called
  simp only [dispatch, heeded, placed, kind, dispatchAt, onRaise, Bool.false_eq_true, if_false] at calls
  split at calls
  · cases calls
  · split at calls
    · cases calls
    · split at calls
      · cases calls
        exact ⟨rfl, rfl⟩
      · cases calls

theorem placed_dispatch {system : Nat} {event : Event} (calls : (d.dispatch system id event).1 ≠ .done) :
    ∃ position, Stands id position (d.dispatch system id event) ∧
      (((d.dispatch system id event).2.context id).place? = some position ∨
        (((d.dispatch system id event).2.context id).stack = [] ∧ ∃ exception, event.kind = .raise exception)) := by
  obtain ⟨heeded, position, placed⟩ := position_of_calls calls
  obtain ⟨leaves, mayCall⟩ := leaves_dispatch known system heeded placed
  refine ⟨position, stands_dispatch known system heeded placed, ?_⟩
  rw [Context.place?, leaves.outline]
  rcases Event.head_effect (mayCall calls) d.opensNativeFrame position (d.context id).outline with
    head | ⟨empty, raises⟩
  · exact .inl head
  · exact .inr ⟨List.map_eq_nil_iff.mp (leaves.outline.trans empty), raises⟩

theorem ready_dispatch {system : Nat} {event : Event} {callback : Callback} {next : Continuation}
    (calls : (d.dispatch system id event).1 = .call callback next) :
    next.Ready ((d.dispatch system id event).2.context id) := by
  have called : (d.dispatch system id event).1 ≠ .done := fun done => by cases done.symm.trans calls
  obtain ⟨position, stands, placed⟩ := placed_dispatch known called
  intro place is
  obtain rfl := stands.awaits calls is
  exact placed.imp_right fun ⟨empty, _, kind⟩ => ⟨empty, (report_of_raise kind calls).2⟩

omit known in
theorem Stands.haltedAt {position place : Position} {piece : Outcome × Debugger} {next : Continuation}
    (h : Stands id position piece) (halts : piece.1 = .call (.line id place) next)
    (at' : (piece.2.context id).place? = some position) : (piece.2.context id).HaltedAt place := by
  obtain ⟨rfl, saved⟩ := h.halts halts
  refine ⟨?_, saved place at'⟩
  rw [← Context.place?_eq]
  exact at'

theorem haltedAt_dispatch {system : Nat} {event : Event} {position : Position} {next : Continuation}
    (halts : (d.dispatch system id event).1 = .call (.line id position) next) :
    ((d.dispatch system id event).2.context id).HaltedAt position := by
  have called : (d.dispatch system id event).1 ≠ .done := fun done => by cases done.symm.trans halts
  obtain ⟨place, stands, placed⟩ := placed_dispatch known called
  rcases placed with head | ⟨-, _, kind⟩
  · exact stands.haltedAt halts head
  · cases (report_of_raise kind halts).1

theorem haltedAt_run {system : Nat} {next after : Continuation} {position : Position}
    (ready : next.Ready (d.context id)) (framed : next.isReport → (d.context id).stack ≠ [])
    (halts : (next.run d system id).1 = .call (.line id position) after) :
    ((next.run d system id).2.context id).HaltedAt position := by
  cases at' : next.position? with
  | none =>
      cases next with
      | resumed => cases halts
      | _ => cases at'
  | some place =>
      have stands := stands_run known system at'
      refine stands.haltedAt halts ?_
      rw [Context.place?_congr (leaves_run known system next).outline]
      rcases ready place at' with head | ⟨empty, report⟩
      · exact head
      · exact absurd empty (framed report)

theorem ready_run {system : Nat} {next after : Continuation} {callback : Callback}
    (ready : next.Ready (d.context id)) (calls : (next.run d system id).1 = .call callback after) :
    after.Ready ((next.run d system id).2.context id) := by
  intro place is
  cases next with
  | lineTraced position receiver moved =>
      have stands : Stands id position ((Continuation.lineTraced position receiver moved).run d system id) :=
        stands_run known system rfl
      obtain rfl := stands.awaits calls is
      rcases ready place rfl with head | ⟨-, report⟩
      · left
        rw [Context.place?_congr (leaves_run known system (.lineTraced place receiver moved)).outline]
        exact head
      · cases report
  | breakpointReported position onLine =>
      simp only [Continuation.run, outcome_haltAt] at calls
      cases calls
      cases is
  | exceptionReported position receiver binding =>
      cases calls
      cases is
  | resumed => cases calls

end Debugger

end EventDebugger
