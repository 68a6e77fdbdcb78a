import EventDebugger.Proofs.Dispatch.Breakpoints
import EventDebugger.Proofs.Dispatch.Outline

/-!
# The reason that an event leaves behind

A context has the reason of its last halt. The event of the context changes it where it halts, or
announces a halt, with two exceptions: a line sets it before the guard of a breakpoint is evaluated, and a
temporary breakpoint on a method halts without setting it.

* `Debugger.explains_dispatch`: the reason after an event that is no exception.
* `Debugger.explains_checkLine`: the same for a line that was traced before.
* `Debugger.PassesLine.reason`, `Debugger.TakesTemporary.reason`: the two exceptions.
-/

namespace EventDebugger

def Outcome.reason (before : StopReason) : Outcome → StopReason
  | .call (.line _ _) _ => .step
  | .call (.breakpoint _ _) _ => .breakpoint
  | .call (.catchpoint _ _) _ => .catchpoint
  | .call (.tracing _ _) _ | .done => before

namespace Debugger

/-- A line on which no step is due meets a breakpoint whose guard fails. -/
def PassesLine (d : Debugger) (system : Nat) (id : ContextId) (position : Position)
    (receiver : Option Value) (fresh : Bool) : Prop :=
  ((d.context id).countLine fresh).isStepDue = false ∧
    ∃ found, d.findBreakpoint? id (·.matchesPosition position) = some found ∧
      d.guardHoldsFor system receiver found.breakpoint = false

/-- The entry of a method meets a temporary breakpoint whose guard holds. -/
def TakesTemporary (d : Debugger) (system : Nat) (id : ContextId) (event : Event) : Prop :=
  ∃ bp number, d.findBreakpoint? id (·.matchesMethod (enteredType event) event.method) =
    some (.temporary bp number) ∧ d.guardHoldsFor system event.receiver bp

def Explains (id : ContextId) (d : Debugger) (piece : Outcome × Debugger) : Prop :=
  (piece.2.context id).reason = piece.1.reason (d.context id).reason

variable {d : Debugger} {id : ContextId}

theorem reason_updateContext (d : Debugger) (id : ContextId) (f : Context → Context)
    (hf : ∀ context, (f context).reason = context.reason) :
    ((d.updateContext id f).context id).reason = (d.context id).reason := by
  by_cases known : id < d.contexts.size
  · rw [d.context_updateContext_self f known, hf]
  · rw [d.updateContext_unknown f (Nat.le_of_not_lt known)]

theorem reason_halt (d : Debugger) (id : ContextId) (position : Position) :
    ((d.halt id position).2.context id).reason = (d.context id).reason := by
  have saved (context : Context) : context.savePosition.reason = context.reason := by
    obtain ⟨_, _, _, _, eq⟩ := context.savePosition_eq
    rw [eq]
  exact reason_updateContext { d with lastHalted := some (d.context id).number } id _ saved

theorem reason_haltAt (d : Debugger) (id : ContextId) (position : Position) (onLine : Bool) :
    ((d.haltAt id position onLine).2.context id).reason = (d.context id).reason := by
  simp only [haltAt]
  split
  · exact (reason_halt _ id position).trans (reason_updateContext d id Context.clearSteps fun _ => rfl)
  · exact reason_halt d id position

theorem reason_haltOnBreakpoint (known : id < d.contexts.size) {found : Found}
    (own : found.isOwn (d.context id) = found.isTemporary) (position : Position) (onLine : Bool) :
    ((d.haltOnBreakpoint id found position onLine).2.context id).reason =
      if found.isTemporary then (d.context id).reason else .breakpoint := by
  rw [haltOnBreakpoint_of_own own]
  cases found with
  | temporary bp number =>
      exact (reason_haltAt _ id position onLine).trans (reason_updateContext d id _ fun _ => rfl)
  | listed bp => exact congrArg Context.reason (d.context_updateContext_self _ known)

/-! ## Lines -/

theorem findBreakpoint?_countLine (known : id < d.contexts.size) (fresh : Bool) (p : Breakpoint → Bool) :
    (d.updateContext id (·.countLine fresh)).findBreakpoint? id p = d.findBreakpoint? id p := by
  have counted := d.context_updateContext_self (·.countLine fresh) known
  obtain ⟨_, _, _, eq⟩ := (d.context id).countLine_eq fresh
  rw [eq] at counted
  apply findBreakpoint?_congr
  · rfl
  · rw [counted]
  · rw [counted]
  · rw [counted]

theorem reason_captureLine (known : id < d.contexts.size) (system : Nat) (receiver : Option Value) :
    ((d.captureLine system id receiver).2.context id).reason = .step := by
  have known' : id < (d.captureBinding system receiver).2.contexts.size := known
  simp only [captureLine]
  rw [context_updateContext_self _ _ known']

theorem PassesLine.reason {system : Nat} {position : Position} {receiver : Option Value} {fresh : Bool}
    (known : id < d.contexts.size) (passes : d.PassesLine system id position receiver fresh) :
    (d.checkLine system id position receiver fresh).1 = .done ∧
      ((d.checkLine system id position receiver fresh).2.context id).reason = .step := by
  obtain ⟨undue, found, hit, fails⟩ := passes
  have counted := d.context_updateContext_self (·.countLine fresh) known
  have known' : id < (d.updateContext id (·.countLine fresh)).contexts.size := by
    rw [size_updateContext]
    exact known
  have guarded := guardHolds_captureLine d system id receiver fresh found.breakpoint
  rw [← findBreakpoint?_countLine known fresh] at hit
  rw [← counted] at undue
  simp only [checkLine, undue, hit, guarded, fails, Bool.false_eq_true, if_false, true_and]
  exact reason_captureLine known' system receiver

theorem explains_checkLine (known : id < d.contexts.size) {system : Nat} {position : Position}
    {receiver : Option Value} {fresh : Bool} (stays : ¬ d.PassesLine system id position receiver fresh) :
    Explains id d (d.checkLine system id position receiver fresh) := by
  have counted := d.context_updateContext_self (·.countLine fresh) known
  have guarded (bp : Breakpoint) := guardHolds_captureLine d system id receiver fresh bp
  have sought (p : Breakpoint → Bool) := findBreakpoint?_countLine known fresh p
  have known' : id < (d.updateContext id (·.countLine fresh)).contexts.size := by
    rw [size_updateContext]
    exact known
  have same : ((d.updateContext id (·.countLine fresh)).context id).reason = (d.context id).reason := by
    obtain ⟨_, _, _, eq⟩ := (d.context id).countLine_eq fresh
    rw [counted, eq]
  simp only [PassesLine, not_and, not_exists] at stays
  rw [← counted] at stays
  have own {found : Found} (eq : d.findBreakpoint? id (·.matchesPosition position) = some found) :=
    isOwn_of_found ((sought _).trans eq)
  -- The reason is set to that of a step before the guard is evaluated, so a guard that fails is the only gap.
  simp only [checkLine]
  generalize d.updateContext id (·.countLine fresh) = d' at *
  have captured := reason_captureLine known' system receiver
  have known'' : id < (d'.captureLine system id receiver).2.contexts.size :=
    Nat.lt_of_lt_of_le known' (d'.touches_captureLine system id receiver).size
  split
  · exact (reason_haltAt _ id position true).trans captured
  · next undue =>
      split
      · exact same
      · next found eq =>
          rw [sought] at eq
          split
          · have own' := (isOwn_captureLine d' system id receiver found).trans (own eq)
            rw [Explains, reason_haltOnBreakpoint known'' own', haltOnBreakpoint_of_own own']
            cases found with
            | temporary bp number =>
                rw [outcome_haltAt]
                exact captured
            | listed bp => rfl
          · next fails =>
              rw [guarded] at fails
              exact absurd (Bool.not_eq_true _ ▸ fails) (stays (Bool.not_eq_true _ ▸ undue) found eq)

/-! ## Calls -/

theorem reason_openFrame (known : id < d.contexts.size) (system : Nat) (event : Event) (position : Position) :
    ((d.openFrame system id event position).context id).reason = (d.context id).reason := by
  rw [context_openFrame known]
  rfl

theorem findBreakpoint?_openFrame (known : id < d.contexts.size) (system : Nat) (event : Event)
    (position : Position) (p : Breakpoint → Bool) :
    (d.openFrame system id event position).findBreakpoint? id p = d.findBreakpoint? id p := by
  have opened := context_openFrame known system event position
  apply findBreakpoint?_congr
  · rfl
  · rw [opened]
    rfl
  · rw [opened]
    rfl
  · rw [opened]
    rfl

theorem context_callBinding (d : Debugger) (system : Nat) (id : ContextId) (receiver : Option Value) :
    (d.callBinding system id receiver).2.context id = d.context id ∧
      (d.callBinding system id receiver).2.contexts.size = d.contexts.size := by
  simp only [callBinding]
  split <;> exact ⟨rfl, rfl⟩

theorem reason_bound (known : id < d.contexts.size) (system : Nat) (event : Event) (position : Position) :
    let bound := (d.openFrame system id event position).callBinding system id event.receiver
    ((bound.2.updateContext id (·.setTopBinding bound.1)).context id).reason = (d.context id).reason ∧
      id < (bound.2.updateContext id (·.setTopBinding bound.1)).contexts.size := by
  have opened := reason_openFrame known system event position
  have known' := Nat.lt_of_lt_of_le known (d.touches_openFrame system id event position).size
  generalize d.openFrame system id event position = d' at opened known' ⊢
  obtain ⟨same, size⟩ := context_callBinding d' system id event.receiver
  generalize d'.callBinding system id event.receiver = bound at same size ⊢
  constructor
  · rw [reason_updateContext bound.2 id (·.setTopBinding bound.1) fun _ => rfl, same]
    exact opened
  · rw [size_updateContext, size]
    exact known'

theorem isOwn_bound (d : Debugger) (system : Nat) (id : ContextId) (event : Event) (position : Position)
    (found : Found) :
    let opened := d.openFrame system id event position
    let bound := opened.callBinding system id event.receiver
    found.isOwn ((bound.2.updateContext id (·.setTopBinding bound.1)).context id) =
      found.isOwn (opened.context id) := by
  dsimp only
  rw [isOwn_updateContext _ id found (f := (·.setTopBinding _)) fun _ => ⟨rfl, rfl⟩, (context_callBinding ..).1]

theorem TakesTemporary.reason {system : Nat} {event : Event} (known : id < d.contexts.size) (position : Position)
    (takes : d.TakesTemporary system id event) :
    (d.onCall system id event position).1 = .call (.line id position) .resumed ∧
      ((d.onCall system id event position).2.context id).reason = (d.context id).reason := by
  obtain ⟨bp, number, hit, holds⟩ := takes
  have guarded := guardHolds_callBinding known system event position bp
  obtain ⟨same, known'⟩ := reason_bound known system event position
  rw [← findBreakpoint?_openFrame known system event position] at hit
  rw [holds] at guarded
  have own := (isOwn_bound d system id event position _).trans (isOwn_of_found hit)
  simp only [onCall_eq, hit, Found.breakpoint, guarded, if_true]
  exact ⟨by rw [haltOnBreakpoint_of_own own]; rfl, (reason_haltOnBreakpoint known' own position false).trans same⟩

theorem explains_onCall (known : id < d.contexts.size) {system : Nat} {event : Event}
    (position : Position) (stays : ¬ d.TakesTemporary system id event) :
    Explains id d (d.onCall system id event position) := by
  have guarded (bp : Breakpoint) := guardHolds_callBinding known system event position bp
  obtain ⟨same, known'⟩ := reason_bound known system event position
  simp only [TakesTemporary, not_exists, not_and] at stays
  rw [onCall_eq]
  simp only [findBreakpoint?_openFrame known]
  split
  · exact reason_openFrame known system event position
  · next found eq =>
      split
      · next holds =>
          rw [guarded] at holds
          cases found with
          | temporary bp number => exact absurd holds (stays bp number eq)
          | listed bp => exact reason_haltOnBreakpoint known' (Found.isOwn_listed bp _) position false
      · exact same

/-! ## Raises -/

theorem explains_onRaise (known : id < d.contexts.size) (system : Nat) (event : Event) (position : Position)
    (exception : Value) : Explains id d (d.onRaise system id event position exception) := by
  have moved := reason_updateContext d id (·.moveTop event position false) fun _ => rfl
  have known' : id < (d.updateContext id (·.moveTop event position false)).contexts.size := by
    rw [size_updateContext]
    exact known
  simp only [onRaise]
  generalize d.updateContext id (·.moveTop event position false) = d' at moved known' ⊢
  have kept : ((d'.keepPostMortem system id event position exception).2.context id).reason = _ :=
    (congrArg _ (context_keepPostMortem known' system event position exception)).trans moved
  have known'' := Nat.lt_of_lt_of_le known'
    (d'.touches_keepPostMortem system id event position exception).size
  split
  · simp only [forceStop]
    split <;> exact kept
  · split
    · exact kept
    · split
      · rw [Explains, context_updateContext_self _ _ known'']
        rfl
      · exact kept

/-! ## Events -/

/-- The first piece of an event leaves behind a reason that does not tell what it ends with. -/
inductive Misleads (d : Debugger) (system : Nat) (id : ContextId) (event : Event) : Prop where
  | line (position : Position) (heeded : (d.context id).skipped = false) (at' : event.position = some position)
      (kind : event.kind = .line false)
      (untraced : ((d.placed system id event position).settings.tracing ||
        ((d.placed system id event position).context id).tracing) = false)
      (passes : (d.placed system id event position).PassesLine system id position event.receiver
        (decide ((d.context id).lastPosition ≠ some position)))
  | entry (position : Position) (heeded : (d.context id).skipped = false) (at' : event.position = some position)
      (kind : event.kind = .call) (takes : (d.placed system id event position).TakesTemporary system id event)

theorem placed_spec (known : id < d.contexts.size) (system : Nat) (event : Event) (position : Position) :
    ((d.placed system id event position).context id).reason = (d.context id).reason ∧
      id < (d.placed system id event position).contexts.size := by
  have noted := reason_updateContext d id (·.noteEvent event.position event.kind.isLine) fun _ => rfl
  have known' : id < (d.updateContext id (·.noteEvent event.position event.kind.isLine)).contexts.size := by
    rw [size_updateContext]
    exact known
  simp only [placed]
  generalize d.updateContext id (·.noteEvent event.position event.kind.isLine) = d' at noted known' ⊢
  split
  · split
    · exact ⟨(reason_openFrame known' system event position).trans noted,
        Nat.lt_of_lt_of_le known' (d'.touches_openFrame system id event position).size⟩
    · refine ⟨(reason_updateContext d' id (·.moveTop event position false) fun _ => rfl).trans noted, ?_⟩
      rw [size_updateContext]
      exact known'
  · exact ⟨noted, known'⟩

theorem Explains.of_placed {piece : Outcome × Debugger} {d' : Debugger}
    (same : (d'.context id).reason = (d.context id).reason) (h : Explains id d' piece) : Explains id d piece := by
  rw [Explains, ← same]
  exact h

theorem explains_done {d' : Debugger} (same : (d'.context id).reason = (d.context id).reason) :
    Explains id d (.done, d') := same

theorem reason_returnFrom (d : Debugger) (id : ContextId) (method : Option String) :
    ((d.updateContext id (·.returnFrom method)).context id).reason = (d.context id).reason := by
  apply reason_updateContext
  intro context
  obtain ⟨_, _, eq⟩ := context.returnFrom_eq method
  rw [eq]

theorem dispatch_conditional (system : Nat) (id : ContextId) (event : Event) (position : Position)
    (d : Debugger) (heeded : (d.context id).skipped = false) (at' : event.position = some position)
    (kind : event.kind = .line true) :
    d.dispatch system id event = (.done, d.placed system id event position) := by
  simp only [dispatch, heeded, at', dispatchAt, kind, onLine, placed, EventKind.isLine, Bool.false_eq_true,
    if_true, if_false]

theorem explains_dispatchAt (known : id < d.contexts.size) (system : Nat) {event : Event}
    (noLine : ∀ conditional, event.kind ≠ .line conditional) (noCall : event.kind ≠ .call) (position : Position)
    (moved : Bool) : Explains id d (d.dispatchAt system id event position moved) := by
  simp only [dispatchAt]
  split
  · next conditional kind => exact absurd kind (noLine conditional)
  · next kind => exact absurd kind noCall
  · exact explains_done (reason_returnFrom d id event.method)
  · exact explains_done (reason_returnFrom d id event.method)
  · have unnamed := reason_updateContext d id (fun context =>
      { context with stack := context.stack.modifyTop fun frame => { frame with method := none } }) fun _ => rfl
    refine explains_done ((reason_openFrame ?_ system event position).trans unnamed)
    rw [size_updateContext]
    exact known
  · split
    · exact explains_done (reason_openFrame known system event position)
    · exact explains_done (reason_updateContext d id _ fun _ => rfl)
  · split
    · exact explains_done (reason_returnFrom d id event.method)
    · exact explains_done rfl
  · exact explains_onRaise known system event position _

theorem explains_dispatch (known : id < d.contexts.size) {system : Nat} {event : Event}
    (leads : ¬ d.Misleads system id event) : Explains id d (d.dispatch system id event) := by
  cases skipped : (d.context id).skipped with
  | true =>
      simp only [dispatch, skipped, if_true]
      exact explains_done rfl
  | false =>
      have noted := reason_updateContext d id (·.noteEvent event.position event.kind.isLine) fun _ => rfl
      have known' : id < (d.updateContext id (·.noteEvent event.position event.kind.isLine)).contexts.size := by
        rw [size_updateContext]
        exact known
      cases at' : event.position with
      | none =>
          rw [at'] at noted
          simp only [dispatch, skipped, at', Bool.false_eq_true, if_false]
          split
          · exact explains_done ((reason_returnFrom _ id event.method).trans noted)
          · exact explains_done noted
      | some position =>
          obtain ⟨same, placed⟩ := placed_spec known system event position
          cases kind : event.kind with
          | line conditional =>
              cases conditional with
              | true =>
                  rw [dispatch_conditional system id event position d skipped at' kind]
                  exact same
              | false =>
                  rw [dispatch_line system id event position d skipped at' kind]
                  simp only
                  split
                  · exact same
                  · next untraced =>
                      refine .of_placed same (explains_checkLine placed fun passes => leads ?_)
                      exact .line position skipped at' kind (Bool.not_eq_true _ ▸ untraced) passes
          | call =>
              rw [dispatch_call system id event position d skipped at' kind]
              refine .of_placed same (explains_onCall placed position fun takes => leads ?_)
              exact .entry position skipped at' kind takes
          | _ =>
              have noLine : ∀ conditional, event.kind ≠ .line conditional := by
                intro conditional same
                cases kind.symm.trans same
              have noCall : event.kind ≠ .call := by
                intro same
                cases kind.symm.trans same
              have quiet := explains_dispatchAt known' system noLine noCall
              simp only [dispatch, skipped, at', Bool.false_eq_true, if_false]
              rw [at'] at noted quiet
              exact .of_placed noted (quiet position _)

theorem reason_run (d : Debugger) (system : Nat) (id : ContextId) {next : Continuation}
    (untraced : ∀ position receiver moved, next ≠ .lineTraced position receiver moved) :
    ((next.run d system id).2.context id).reason = (d.context id).reason := by
  have halted (d : Debugger) (binding : Option Binding) (position : Position) :
      (((d.updateContext id (·.setTopBinding binding)).halt id position).2.context id).reason =
        (d.context id).reason :=
    (reason_halt _ id position).trans (reason_updateContext d id _ fun _ => rfl)
  cases next with
  | lineTraced position receiver moved => exact absurd rfl (untraced position receiver moved)
  | breakpointReported position onLine => exact reason_haltAt d id position onLine
  | exceptionReported position receiver binding =>
      simp only [Continuation.run]
      split
      · exact halted d _ position
      · exact halted (d.captureBinding system receiver).2 _ position
  | resumed => rfl

end Debugger

end EventDebugger
