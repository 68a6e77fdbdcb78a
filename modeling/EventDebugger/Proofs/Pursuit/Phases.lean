import EventDebugger.Proofs.Ticket.Registry
import EventDebugger.Proofs.Ticket.Search

/-!
# Phases of the search for a breakpoint

The state of a context and that of the session have locks of their own. An event that looks for a breakpoint takes
them one after the other: the line is counted, the temporary breakpoint is looked at, the registry is looked
through, the binding is captured, the guard is evaluated, the halt is prepared. Between two of these phases other
threads go on. Without them the phases come to what a piece of dispatch does at once.

* `Quest.Steps`: everything that a phase can do.
* `Debugger.dispatch_of_pursuit`, `Continuation.run_of_pursuit`: the phases together.
-/

namespace EventDebugger

open Debugger (Found)

/-- What an event looks for. -/
structure Quest where
  position : Position
  onLine : Bool
  meets : Breakpoint → Bool
  receiver : Option Value

/-- What remains to be done. -/
inductive Quest.Phase where
  /-- Count the line for the armed steps. -/
  | counting (moved : Bool)
  /-- Look at the temporary breakpoint. -/
  | looking
  /-- Look through the registry. -/
  | listing
  /-- Capture the binding. -/
  | met (found : Found)
  /-- Evaluate the guard. -/
  | bound (found : Found) (binding : Option Binding)
  /-- Halt. -/
  | passed (found : Found)

/-- A search on its way. -/
structure Pursuit where
  quest : Quest
  phase : Quest.Phase

def Event.quest (event : Event) (position : Position) : Quest :=
  ⟨position, event.kind.isLine, event.meets position, event.receiver⟩

namespace Quest

variable (quest : Quest) (d : Debugger) (system : Nat) (id : ContextId)

def binding : Option Binding × Debugger :=
  if quest.onLine then d.captureBinding system quest.receiver else d.callBinding system id quest.receiver

def bind : Option Binding × Debugger :=
  let (binding, d) := quest.binding d system id
  (binding, d.updateContext id fun context =>
    { context.setTopBinding binding with reason := if quest.onLine then .step else context.reason })

/-- A phase of the search, which leads to the next one or ends it. -/
def step : Quest.Phase → (Quest.Phase ⊕ Outcome) × Debugger
  | .counting moved =>
      let d := d.updateContext id (·.countLine moved)
      if (d.context id).isStepDue then
        let (outcome, d) := (d.captureLine system id quest.receiver).2.haltOnLine id quest.position
        (.inr outcome, d)
      else (.inl .looking, d)
  | .looking =>
      let context := d.context id
      if context.moved then
        match context.temporary with
        | some bp =>
            if quest.meets bp then (.inl (.met (.temporary bp context.temporaryCount)), d) else (.inl .listing, d)
        | none => (.inl .listing, d)
      else (.inr .done, d)
  | .listing =>
      match d.findListed? quest.meets with
      | some found => (.inl (.met found), d)
      | none => (.inr .done, d)
  | .met found =>
      let (binding, d) := quest.bind d system id
      (.inl (.bound found binding), d)
  | .bound found binding =>
      if d.guardHolds found.breakpoint binding then (.inl (.passed found), d) else (.inr .done, d)
  | .passed found =>
      let (outcome, d) := d.haltOnBreakpoint id found quest.position quest.onLine
      (.inr outcome, d)

inductive Steps : Quest.Phase → (Quest.Phase ⊕ Outcome) × Debugger → Prop where
  | due {moved : Bool} (due : ((d.updateContext id (·.countLine moved)).context id).isStepDue) :
      Steps (.counting moved) (.inr (.call (.line id quest.position) .resumed),
        (((d.updateContext id (·.countLine moved)).captureLine system id quest.receiver).2.haltOnLine id
          quest.position).2)
  | undue {moved : Bool} (undue : ((d.updateContext id (·.countLine moved)).context id).isStepDue = false) :
      Steps (.counting moved) (.inl .looking, d.updateContext id (·.countLine moved))
  | still (still : (d.context id).moved = false) : Steps .looking (.inr .done, d)
  | own {bp : Breakpoint} (moved : (d.context id).moved) (temporary : (d.context id).temporary = some bp)
      (meets : quest.meets bp) : Steps .looking (.inl (.met (.temporary bp (d.context id).temporaryCount)), d)
  | other (moved : (d.context id).moved) : Steps .looking (.inl .listing, d)
  | listed {bp : Breakpoint} (listed : bp ∈ d.registry) (meets : quest.meets bp) :
      Steps .listing (.inl (.met (.listed bp)), d)
  | unlisted : Steps .listing (.inr .done, d)
  | binds {found : Found} :
      Steps (.met found) (.inl (.bound found (quest.bind d system id).1), (quest.bind d system id).2)
  | holds {found : Found} {binding : Option Binding} (holds : d.guardHolds found.breakpoint binding) :
      Steps (.bound found binding) (.inl (.passed found), d)
  | fails {found : Found} {binding : Option Binding} : Steps (.bound found binding) (.inr .done, d)
  | fires {found : Found} (own : found.isOwn (d.context id)) :
      Steps (.passed found) (.inr (.call (.line id quest.position) .resumed),
        ((d.updateContext id fun context => { context with temporary := none }).haltAt id quest.position
          quest.onLine).2)
  | reports {found : Found} (lost : found.isOwn (d.context id) = false) :
      Steps (.passed found) (.inr (.call (.breakpoint id found.breakpoint)
          (.breakpointReported quest.position quest.onLine)),
        d.updateContext id fun context => { context with reason := .breakpoint })

variable {quest d system id}

theorem steps (phase : Quest.Phase) : quest.Steps d system id phase (quest.step d system id phase) := by
  cases phase with
  | counting moved =>
      simp only [step]
      split
      · next due => exact .due due
      · next undue => exact .undue (eq_false_of_ne_true undue)
  | looking =>
      simp only [step]
      split
      · next moved =>
          split
          · next bp temporary =>
              split
              · next meets => exact .own moved temporary meets
              · exact .other moved
          · exact .other moved
      · next still => exact .still (eq_false_of_ne_true still)
  | listing =>
      simp only [step]
      split
      · next found same =>
          simp only [Debugger.findListed?] at same
          split at same
          · cases same
          · next session active =>
              obtain ⟨bp, first, rfl⟩ := Option.map_eq_some_iff.mp same
              refine .listed ?_ (List.find?_some first)
              rw [Debugger.registry_eq active]
              exact List.mem_of_find?_eq_some first
      · exact .unlisted
  | met found => exact .binds
  | bound found binding =>
      simp only [step]
      split
      · next holds => exact .holds holds
      · exact .fails
  | passed found =>
      simp only [step, Debugger.haltOnBreakpoint]
      split
      · next own =>
          have outcome := Debugger.outcome_haltAt (d.updateContext id fun context => { context with temporary := none })
            id quest.position quest.onLine
          rw [outcome]
          exact .fires own
      · next lost => exact .reports (eq_false_of_ne_true lost)

theorem Steps.of_step {phase : Quest.Phase} {result : (Quest.Phase ⊕ Outcome) × Debugger}
    (is : quest.step d system id phase = result) : quest.Steps d system id phase result := is ▸ steps phase

/-! ## What the phases leave alone -/

theorem touches_binding (quest : Quest) (d : Debugger) (system : Nat) (id : ContextId) :
    d.Touches system id (quest.binding d system id).2 := by
  simp only [binding, Debugger.callBinding]
  split
  · exact d.touches_captureBinding system id quest.receiver
  · split
    · exact .refl system id d
    · exact d.touches_captureBinding system id quest.receiver

theorem touches_bind (quest : Quest) (d : Debugger) (system : Nat) (id : ContextId) :
    d.Touches system id (quest.bind d system id).2 :=
  (quest.touches_binding d system id).trans ((quest.binding d system id).2.touches_updateContext system id
    (fun context => { context.setTopBinding _ with reason := if quest.onLine then .step else context.reason })
    fun _ => rfl)

theorem Steps.touches {phase : Quest.Phase} {result : (Quest.Phase ⊕ Outcome) × Debugger}
    (steps : quest.Steps d system id phase result) : d.Touches system id result.2 := by
  have counted (moved : Bool) : d.Touches system id (d.updateContext id (·.countLine moved)) :=
    d.touches_updateContext system id _ (Context.traits_countLine moved)
  cases steps with
  | @due moved =>
      have captured := (d.updateContext id (·.countLine moved)).touches_captureLine system id quest.receiver
      exact ((counted moved).trans captured).trans (Debugger.touches_haltAt _ system id quest.position true)
  | undue => exact counted _
  | binds => exact quest.touches_bind d system id
  | fires =>
      have spent := d.touches_updateContext system id (fun context => { context with temporary := none }) fun _ => rfl
      exact spent.trans (Debugger.touches_haltAt _ system id quest.position quest.onLine)
  | reports =>
      exact d.touches_updateContext system id (fun context => { context with reason := .breakpoint }) fun _ => rfl
  | still | own | other | listed | unlisted | holds | fails => exact .refl system id d

theorem contexts_binding (quest : Quest) (d : Debugger) (system : Nat) (id : ContextId) :
    (quest.binding d system id).2.contexts = d.contexts := by
  simp only [binding, Debugger.callBinding]
  split
  · rfl
  · split <;> rfl

theorem Steps.size {phase : Quest.Phase} {result : (Quest.Phase ⊕ Outcome) × Debugger}
    (steps : quest.Steps d system id phase result) : result.2.contexts.size = d.contexts.size := by
  have halted (d : Debugger) (onLine : Bool) :
      (d.haltAt id quest.position onLine).2.contexts.size = d.contexts.size := by
    cases onLine with
    | false => exact Debugger.size_updateContext _ id _
    | true => exact (Debugger.size_updateContext _ id _).trans (d.size_updateContext id _)
  cases steps with
  | due => exact (halted _ true).trans ((Debugger.size_updateContext _ id _).trans (d.size_updateContext id _))
  | undue | reports => exact d.size_updateContext id _
  | binds => exact (Debugger.size_updateContext _ id _).trans (congrArg Array.size (quest.contexts_binding d system id))
  | fires => exact (halted _ _).trans (d.size_updateContext id _)
  | still | own | other | listed | unlisted | holds | fails => rfl

theorem Steps.about {phase : Quest.Phase} {outcome : Outcome} {d' : Debugger}
    (steps : quest.Steps d system id phase (.inr outcome, d')) : outcome.About id := by
  cases steps with
  | due | fires => exact .halted quest.position
  | reports => exact .breakpoint _ quest.position quest.onLine
  | still | unlisted | fails => exact .done

/-! ## The phases together -/

def advance (quest : Quest) (system : Nat) (id : ContextId) :
    (Quest.Phase ⊕ Outcome) × Debugger → (Quest.Phase ⊕ Outcome) × Debugger
  | (.inl phase, d) => quest.step d system id phase
  | (.inr outcome, d) => (.inr outcome, d)

theorem advance_over (outcome : Outcome) (n : Nat) :
    (quest.advance system id)^[n] (.inr outcome, d) = (.inr outcome, d) :=
  Function.iterate_fixed rfl n

def settle (quest : Quest) (d : Debugger) (system : Nat) (id : ContextId) (found : Found) : Outcome × Debugger :=
  let (binding, d) := quest.bind d system id
  if d.guardHolds found.breakpoint binding then d.haltOnBreakpoint id found quest.position quest.onLine
  else (.done, d)

theorem advance_met (found : Found) (n : Nat) :
    (quest.advance system id)^[n + 3] (.inl (.met found), d) =
      (.inr (quest.settle d system id found).1, (quest.settle d system id found).2) := by
  rw [Function.iterate_succ_apply, advance, step, Function.iterate_succ_apply, advance, step, settle]
  dsimp only
  split
  · exact advance_over _ n
  · exact advance_over .done (n + 1)

theorem advance_looking (n : Nat) :
    let piece := match d.findBreakpoint? id quest.meets with
      | none => (Outcome.done, d)
      | some found => quest.settle d system id found
    (quest.advance system id)^[n + 5] (.inl .looking, d) = (.inr piece.1, piece.2) := by
  have searches : (quest.advance system id)^[n + 4] (.inl .listing, d) =
      let piece := match d.findListed? quest.meets with
        | none => (Outcome.done, d)
        | some found => quest.settle d system id found
      (.inr piece.1, piece.2) := by
    rw [Function.iterate_succ_apply, advance, step]
    cases d.findListed? quest.meets with
    | none => exact advance_over .done _
    | some found => exact advance_met found n
  rw [Function.iterate_succ_apply, advance, step, Debugger.findBreakpoint?]
  dsimp only
  split
  · cases (d.context id).temporary with
    | none => exact searches
    | some bp =>
        dsimp only
        split
        · exact advance_met _ (n + 1)
        · exact searches
  · exact advance_over .done _

theorem advance_counting (position : Position) (receiver : Option Value) (moved : Bool) (d : Debugger) :
    let piece := d.checkLine system id position receiver moved
    (Quest.advance ⟨position, true, (·.matchesPosition position), receiver⟩ system id)^[6] (.inl (.counting moved), d) =
      (.inr piece.1, piece.2) := by
  rw [Function.iterate_succ_apply, advance, step, Debugger.checkLine]
  dsimp only
  split
  · exact advance_over _ 5
  · exact advance_looking 0

end Quest

namespace Debugger

def pursuit? (d : Debugger) (system : Nat) (id : ContextId) (event : Event) : Option (Pursuit × Debugger) :=
  if (d.context id).skipped then none
  else
    match event.position, event.kind with
    | some position, .line false =>
        let placed := d.placed system id event position
        if placed.settings.tracing || (placed.context id).tracing then none
        else
          some (⟨event.quest position, .counting (decide ((d.context id).lastPosition ≠ some position))⟩, placed)
    | some position, .call =>
        some (⟨event.quest position, .looking⟩,
          (d.placed system id event position).openFrame system id event position)
    | _, _ => none

end Debugger

def Continuation.pursuit? (next : Continuation) (d : Debugger) : Option (Pursuit × Debugger) :=
  match next with
  | .lineTraced position receiver moved =>
      some (⟨⟨position, true, (·.matchesPosition position), receiver⟩, .counting moved⟩, d)
  | _ => none

namespace Event

variable {event : Event} {position : Position}

theorem quest_line (kind : event.kind = .line false) :
    event.quest position = ⟨position, true, (·.matchesPosition position), event.receiver⟩ := by
  have meets : event.meets position = (·.matchesPosition position) := by
    funext bp
    simp only [Event.meets, kind]
  rw [quest, meets, kind]
  rfl

theorem quest_call (kind : event.kind = .call) : event.quest position =
    ⟨position, false, (·.matchesMethod (Debugger.enteredType event) event.method), event.receiver⟩ := by
  have meets : event.meets position = (·.matchesMethod (Debugger.enteredType event) event.method) := by
    funext bp
    simp only [Event.meets, kind]
  rw [quest, meets, kind]
  rfl

end Event

section

variable {d d' : Debugger} {system : Nat} {id : ContextId} {event : Event} {pursuit : Pursuit}

theorem Debugger.dispatch_of_pursuit (begins : d.pursuit? system id event = some (pursuit, d')) :
    let piece := d.dispatch system id event
    (pursuit.quest.advance system id)^[6] (.inl pursuit.phase, d') = (.inr piece.1, piece.2) := by
  obtain ⟨heeded, begins⟩ := Option.ite_none_left_eq_some.mp begins
  have heeded := eq_false_of_ne_true heeded
  split at begins
  · next position at' kind =>
      obtain ⟨untraced, begins⟩ := Option.ite_none_left_eq_some.mp begins
      cases begins
      rw [EventDebugger.dispatch_line system id event position d heeded at' kind]
      dsimp only
      rw [if_neg untraced, Event.quest_line kind]
      exact Quest.advance_counting position event.receiver _ _
  · next position at' kind =>
      cases begins
      rw [EventDebugger.dispatch_call system id event position d heeded at' kind, Event.quest_call kind, onCall_eq]
      exact Quest.advance_looking 1
  · cases begins

theorem Continuation.run_of_pursuit {next : Continuation} (begins : next.pursuit? d = some (pursuit, d')) :
    let piece := next.run d system id
    (pursuit.quest.advance system id)^[6] (.inl pursuit.phase, d') = (.inr piece.1, piece.2) := by
  cases next with
  | lineTraced position receiver moved =>
      cases begins
      exact Quest.advance_counting position receiver moved d
  | _ => cases begins

end

end EventDebugger
