import EventDebugger.Proofs.Ticket.Gait

/-!
# The search for a breakpoint

A line on which no step is due and the entry of a method look for a breakpoint. If there is one and its guard
holds, a persistent one is reported, while a temporary one is used up by the halt that follows at once. Every
other piece of the dispatch of an event leaves alone what decides about the next search.

* `Debugger.dispatch_ends`, `Debugger.run_ends`: how a piece of dispatch ends.
-/

namespace EventDebugger

open Debugger (Found)

/-- A place where an event looks for a breakpoint to halt on. -/
structure Search where
  /-- The debugger at that time. -/
  debugger : Debugger
  position : Position
  onLine : Bool
  meets : Breakpoint → Bool
  receiver : Option Value

def Search.hit? (search : Search) (system : Nat) (id : ContextId) : Option Found :=
  (search.debugger.findBreakpoint? id search.meets).filter fun found =>
    search.debugger.guardHoldsFor system search.receiver found.breakpoint

structure Search.IsFor (search : Search) (event : Event) : Prop where
  position : event.position = some search.position
  kind : event.kind = if search.onLine then .line false else .call
  meets : search.meets = event.meets search.position
  receiver : search.receiver = event.receiver

def Outcome.isQuiet : Outcome → Bool
  | .call (.line ..) _ | .call (.breakpoint ..) _ => false
  | _ => true

namespace Context

def marks (context : Context) : Bool × Option Position × Option Breakpoint :=
  (context.moved, context.lastPosition, context.temporary)

theorem marks_countLine (moved : Bool) (context : Context) : (context.countLine moved).marks = context.marks := by
  obtain ⟨_, _, _, eq⟩ := context.countLine_eq moved
  rw [eq]
  rfl

theorem marks_returnFrom (method : Option String) (context : Context) :
    (context.returnFrom method).marks = context.marks := by
  obtain ⟨_, _, eq⟩ := context.returnFrom_eq method
  rw [eq]
  rfl

def heeding (event : Event) (context : Context) : Context :=
  if context.skipped then context else context.noteEvent event.position event.kind.isLine

end Context

namespace Debugger

variable {d : Debugger} {id : ContextId}

def lineSearch? (d : Debugger) (id : ContextId) (position : Position) (receiver : Option Value) (moved : Bool) :
    Option Search :=
  if ((d.context id).countLine moved).isStepDue then none
  else some ⟨d, position, true, (·.matchesPosition position), receiver⟩

def search? (d : Debugger) (system : Nat) (id : ContextId) (event : Event) : Option Search :=
  if (d.context id).skipped then none
  else
    match event.position, event.kind with
    | some position, .line false =>
        let placed := d.placed system id event position
        if placed.settings.tracing || (placed.context id).tracing then none
        else placed.lineSearch? id position event.receiver (decide ((d.context id).lastPosition ≠ some position))
    | some position, .call =>
        some ⟨d.placed system id event position, position, false,
          (·.matchesMethod (enteredType event) event.method), event.receiver⟩
    | _, _ => none

end Debugger

def Continuation.search? (next : Continuation) (d : Debugger) (id : ContextId) : Option Search :=
  match next with
  | .lineTraced position receiver moved => d.lineSearch? id position receiver moved
  | _ => none

inductive Ends (search : Option Search) (system : Nat) (id : ContextId) (before : Context) :
    Outcome × Debugger → Prop where
  | passed {outcome : Outcome} {d : Debugger} (missed : search.bind (·.hit? system id) = none)
      (quiet : outcome.isQuiet) (same : (d.context id).marks = before.marks) : Ends search system id before (outcome, d)
  | halted {position : Position} {d : Debugger} (unsought : search = none) (halting : Context)
      (same : halting.marks = before.marks) (saved : d.context id = halting.savePosition) :
      Ends search system id before (.call (.line id position) .resumed, d)
  | reported {at' : Search} {bp : Breakpoint} {d : Debugger} (sought : search = some at')
      (hit : at'.hit? system id = some (.listed bp)) (same : (d.context id).marks = before.marks)
      (reason : (d.context id).reason = .breakpoint)
      (undue : if at'.onLine then (d.context id).isStepDue = false else (d.context id).steps = before.steps) :
      Ends search system id before (.call (.breakpoint id bp) (.breakpointReported at'.position at'.onLine), d)
  | fired {at' : Search} {bp : Breakpoint} {number : Nat} {d : Debugger} (sought : search = some at')
      (hit : at'.hit? system id = some (.temporary bp number)) (halting : Context)
      (same : halting.marks = (before.moved, before.lastPosition, none))
      (saved : d.context id = halting.savePosition) :
      Ends search system id before (.call (.line id at'.position) .resumed, d)

theorem Search.hit?_eq_some {search : Search} {system : Nat} {id : ContextId} {found : Found} :
    search.hit? system id = some found ↔ search.debugger.findBreakpoint? id search.meets = some found ∧
      search.debugger.guardHoldsFor system search.receiver found.breakpoint := Option.filter_eq_some_iff

namespace Debugger

variable {d : Debugger} {id : ContextId} {before : Context} {system : Nat} {position : Position}
  {receiver : Option Value} {moved : Bool} {event : Event}

theorem marks_updateContext (same : (d.context id).marks = before.marks) (f : Context → Context)
    (hf : ∀ context, (f context).marks = context.marks) : ((d.updateContext id f).context id).marks = before.marks :=
  d.preserves_updateContext (P := (·.marks = before.marks)) id (fun {context} h => (hf context).trans h) same

theorem context_haltAt (known : id < d.contexts.size) (position : Position) (onLine : Bool) :
    (d.haltAt id position onLine).2.context id =
      (if onLine then (d.context id).clearSteps else d.context id).savePosition := by
  have halted (d : Debugger) (known : id < d.contexts.size) :
      (d.halt id position).2.context id = (d.context id).savePosition :=
    context_updateContext_self { d with lastHalted := some (d.context id).number } Context.savePosition known
  cases onLine with
  | false => exact halted d known
  | true =>
      simp only [haltAt, haltOnLine, if_true]
      rw [halted, d.context_updateContext_self _ known]
      rw [size_updateContext]
      exact known

theorem ends_haltAt (known : id < d.contexts.size) (same : (d.context id).marks = before.marks)
    (position : Position) (onLine : Bool) : Ends none system id before (d.haltAt id position onLine) := by
  have saved := context_haltAt known position onLine
  rw [← Prod.eta (d.haltAt id position onLine), outcome_haltAt]
  refine .halted rfl _ ?_ saved
  cases onLine <;> exact same

theorem ends_haltOnBreakpoint (known : id < d.contexts.size) (same : (d.context id).marks = before.marks)
    {search : Search} {found : Found} (hit : search.hit? system id = some found)
    (own : found.isOwn (d.context id) = found.isTemporary)
    (undue : if search.onLine then (d.context id).isStepDue = false else (d.context id).steps = before.steps) :
    Ends (some search) system id before (d.haltOnBreakpoint id found search.position search.onLine) := by
  rw [haltOnBreakpoint_of_own own]
  cases found with
  | temporary bp number =>
      have spent := d.context_updateContext_self (fun context => { context with temporary := none }) known
      have known' : id < (d.updateContext id fun context => { context with temporary := none }).contexts.size := by
        rw [size_updateContext]
        exact known
      have saved := context_haltAt known' search.position search.onLine
      simp only
      rw [← Prod.eta (haltAt _ _ _ _), outcome_haltAt]
      refine .fired rfl hit _ ?_ saved
      rw [spent]
      simp only [Context.marks, Prod.mk.injEq] at same
      cases search.onLine <;> simp [Context.marks, Context.clearSteps, same]
  | listed bp =>
      have marked := d.context_updateContext_self (fun context => { context with reason := .breakpoint }) known
      refine .reported rfl hit ?_ ?_ ?_
      · rw [marked]
        exact same
      · rw [marked]
      · rw [marked]
        exact undue

theorem ends_checkLine (known : id < d.contexts.size) :
    Ends (d.lineSearch? id position receiver moved) system id (d.context id)
      (d.checkLine system id position receiver moved) := by
  -- Counting the line changes neither which breakpoint is found nor what its guard reads.
  have counted := d.context_updateContext_self (·.countLine moved) known
  have guarded (bp : Breakpoint) := guardHolds_captureLine d system id receiver moved bp
  have sought := findBreakpoint?_countLine known moved (·.matchesPosition position)
  have own {found : Found} (eq : d.findBreakpoint? id (·.matchesPosition position) = some found) :=
    isOwn_of_found (sought.trans eq)
  have known' : id < (d.updateContext id (·.countLine moved)).contexts.size := by
    rw [size_updateContext]
    exact known
  have same : ((d.updateContext id (·.countLine moved)).context id).marks = (d.context id).marks := by
    rw [counted, Context.marks_countLine]
  simp only [checkLine, lineSearch?]
  rw [← counted]
  generalize d.updateContext id (·.countLine moved) = d' at *
  have captured : ((d'.captureLine system id receiver).2.context id).marks = (d.context id).marks :=
    marks_updateContext (d := (d'.captureBinding system receiver).2) same
      (fun context => { context.setTopBinding _ with reason := .step }) fun _ => rfl
  have undue : ((d'.captureLine system id receiver).2.context id).isStepDue = (d'.context id).isStepDue := by
    rw [captureLine, context_updateContext_self (d'.captureBinding system receiver).2 _ known']
    rfl
  have known'' : id < (d'.captureLine system id receiver).2.contexts.size :=
    Nat.lt_of_lt_of_le known' (d'.touches_captureLine system id receiver).size
  split
  · exact ends_haltAt known'' captured position true
  · next notDue =>
      rw [sought]
      split
      · next none => exact .passed (by simp [Search.hit?, none]) rfl same
      · next found eq =>
          rw [guarded]
          split
          · next holds =>
              let search : Search := ⟨d, position, true, (·.matchesPosition position), receiver⟩
              have hit : search.hit? system id = some found := Search.hit?_eq_some.mpr ⟨eq, holds⟩
              have own' := (isOwn_captureLine d' system id receiver found).trans (own eq)
              exact ends_haltOnBreakpoint known'' captured hit own' (undue.trans (Bool.not_eq_true _ ▸ notDue))
          · next fails => exact .passed (by simp [Search.hit?, eq, fails]) rfl captured

theorem marks_openFrame (same : (d.context id).marks = before.marks) (system : Nat) (event : Event)
    (position : Position) : ((d.openFrame system id event position).context id).marks = before.marks :=
  marks_updateContext (d := (d.newFrame system event position).2) same (·.push _) fun _ => rfl

theorem ends_onCall (known : id < d.contexts.size) (position : Position) :
    Ends (some ⟨d, position, false, (·.matchesMethod (enteredType event) event.method), event.receiver⟩) system id
      (d.context id) (d.onCall system id event position) := by
  let search : Search :=
    ⟨d, position, false, (·.matchesMethod (enteredType event) event.method), event.receiver⟩
  have opened := context_openFrame known system event position
  have guarded (bp : Breakpoint) := guardHolds_callBinding known system event position bp
  have sought := findBreakpoint?_openFrame known system event position search.meets
  have kept := d.isOwn_bound system id event position
  have known' := Nat.lt_of_lt_of_le known (d.touches_openFrame system id event position).size
  rw [onCall_eq]
  simp only
  generalize d.openFrame system id event position = d' at *
  obtain ⟨same, size⟩ := context_callBinding d' system id event.receiver
  have bound := (d'.callBinding system id event.receiver).2.context_updateContext_self
    (·.setTopBinding (d'.callBinding system id event.receiver).1) (size.symm ▸ known')
  rw [same, opened] at bound
  split
  · next none =>
      refine .passed ?_ rfl (by rw [opened]; rfl)
      have missed : search.hit? system id = .none := by
        rw [Search.hit?, ← sought, none, Option.filter_none]
      exact missed
  · next found eq =>
      rw [guarded]
      split
      · next holds =>
          have hit : search.hit? system id = some found := Search.hit?_eq_some.mpr ⟨sought.symm.trans eq, holds⟩
          refine ends_haltOnBreakpoint ?_ (by rw [bound]; rfl) hit ((kept found).trans (isOwn_of_found eq)) ?_
          · rw [size_updateContext, size]
            exact known'
          · rw [bound]
            rfl
      · next fails =>
          refine .passed ?_ rfl (by rw [bound]; rfl)
          have missed : search.hit? system id = .none := by
            rw [Search.hit?, ← sought, eq]
            exact Option.filter_some_neg (Bool.not_eq_true _ ▸ fails)
          exact missed

/-! ## Events that do not look for a breakpoint -/

theorem marks_keepPostMortem (known : id < d.contexts.size) (same : (d.context id).marks = before.marks)
    (system : Nat) (event : Event) (position : Position) (exception : Value) :
    ((d.keepPostMortem system id event position exception).2.context id).marks = before.marks := by
  rw [context_keepPostMortem known]
  exact same

theorem ends_onRaise (known : id < d.contexts.size) (same : (d.context id).marks = before.marks) (system : Nat)
    (event : Event) (position : Position) (exception : Value) :
    Ends none system id before (d.onRaise system id event position exception) := by
  have moved := marks_updateContext same (·.moveTop event position false) fun _ => rfl
  have known' : id < (d.updateContext id (·.moveTop event position false)).contexts.size := by
    rw [size_updateContext]
    exact known
  have kept := marks_keepPostMortem known' moved system event position exception
  simp only [onRaise]
  split
  · refine .passed rfl rfl ?_
    rw [Debugger.context, contexts_forceStop]
    exact kept
  · split
    · exact .passed rfl rfl kept
    · split
      · exact .passed rfl rfl (marks_updateContext kept (fun context => { context with reason := .catchpoint })
          fun _ => rfl)
      · exact .passed rfl rfl kept

theorem ends_dispatchAt (known : id < d.contexts.size) (same : (d.context id).marks = before.marks) (system : Nat)
    (noLine : ∀ conditional, event.kind ≠ .line conditional) (noCall : event.kind ≠ .call) (position : Position)
    (moved : Bool) : Ends none system id before (d.dispatchAt system id event position moved) := by
  have returned := marks_updateContext same (·.returnFrom event.method) (Context.marks_returnFrom _)
  simp only [dispatchAt]
  split
  · next conditional kind => exact absurd kind (noLine conditional)
  · next kind => exact absurd kind noCall
  · exact .passed rfl rfl returned
  · exact .passed rfl rfl returned
  · have unnamed := marks_updateContext same (fun context =>
      { context with stack := context.stack.modifyTop fun frame => { frame with method := none } }) fun _ => rfl
    exact .passed rfl rfl (marks_openFrame unnamed system event position)
  · split
    · exact .passed rfl rfl (marks_openFrame same system event position)
    · exact .passed rfl rfl (marks_updateContext same (·.moveTop event position true) fun _ => rfl)
  · split
    · exact .passed rfl rfl returned
    · exact .passed rfl rfl same
  · exact ends_onRaise known same system event position _

theorem marks_placed (known : id < d.contexts.size) (system : Nat) (event : Event) (position : Position) :
    ((d.placed system id event position).context id).marks =
      ((d.context id).noteEvent event.position event.kind.isLine).marks := by
  have noted : ((d.updateContext id (·.noteEvent event.position event.kind.isLine)).context id).marks =
      ((d.context id).noteEvent event.position event.kind.isLine).marks := by
    rw [d.context_updateContext_self _ known]
  unfold placed
  dsimp only
  split
  · split
    · exact marks_openFrame noted system event position
    · exact marks_updateContext noted (·.moveTop event position false) fun _ => rfl
  · exact noted

end Debugger

theorem Ends.congr {search : Option Search} {system : Nat} {id : ContextId} {before before' : Context}
    {piece : Outcome × Debugger} (ends : Ends search system id before piece) (marks : before.marks = before'.marks)
    (steps : before.steps = before'.steps) : Ends search system id before' piece := by
  cases ends with
  | passed missed quiet same => exact .passed missed quiet (same.trans marks)
  | halted unsought halting same saved => exact .halted unsought halting (same.trans marks) saved
  | reported sought hit same reason undue => exact .reported sought hit (same.trans marks) reason (steps ▸ undue)
  | fired sought hit halting same saved =>
      refine .fired sought hit halting (same.trans ?_) saved
      simp only [Context.marks, Prod.mk.injEq] at marks
      rw [marks.1, marks.2.1]

namespace Debugger

variable {d : Debugger} {id : ContextId}

theorem dispatch_ends (known : id < d.contexts.size) (system : Nat) (event : Event) :
    Ends (d.search? system id event) system id ((d.context id).heeding event) (d.dispatch system id event) := by
  cases skipped : (d.context id).skipped with
  | true =>
      simp only [dispatch, search?, Context.heeding, skipped, if_true]
      exact .passed rfl rfl rfl
  | false =>
      have noted : ((d.updateContext id (·.noteEvent event.position event.kind.isLine)).context id).marks =
          ((d.context id).noteEvent event.position event.kind.isLine).marks := by
        rw [d.context_updateContext_self _ known]
      have known' : id < (d.updateContext id (·.noteEvent event.position event.kind.isLine)).contexts.size := by
        rw [size_updateContext]
        exact known
      have heeding : (d.context id).heeding event = (d.context id).noteEvent event.position event.kind.isLine := by
        rw [Context.heeding, skipped, if_neg Bool.false_ne_true]
      rw [heeding]
      cases at' : event.position with
      | none =>
          rw [at'] at noted
          simp only [dispatch, search?, skipped, at', Bool.false_eq_true, if_false]
          split
          · exact .passed rfl rfl (marks_updateContext noted (·.returnFrom event.method) (Context.marks_returnFrom _))
          · exact .passed rfl rfl noted
      | some position =>
          have marks := marks_placed known system event position
          have steps : ((d.placed system id event position).context id).steps = (d.context id).steps :=
            congrArg (·.2.2.2) (gait_placed known system event position)
          have placed := Nat.lt_of_lt_of_le known (d.touches_placed system id event position).size
          rw [at'] at marks
          cases kind : event.kind with
          | line conditional =>
              cases conditional with
              | true =>
                  rw [dispatch_conditional system id event position d skipped at' kind]
                  simp only [search?, skipped, at', kind, Bool.false_eq_true, if_false]
                  exact .passed rfl rfl (kind ▸ marks)
              | false =>
                  rw [dispatch_line system id event position d skipped at' kind]
                  simp only [search?, skipped, at', kind, Bool.false_eq_true, if_false]
                  split
                  · exact .passed rfl rfl (kind ▸ marks)
                  · exact (ends_checkLine placed).congr (kind ▸ marks) steps
          | call =>
              rw [dispatch_call system id event position d skipped at' kind]
              simp only [search?, skipped, at', kind, Bool.false_eq_true, if_false]
              exact (ends_onCall placed position).congr (kind ▸ marks) steps
          | _ =>
              have noLine : ∀ conditional, event.kind ≠ .line conditional := by
                intro conditional same
                cases kind.symm.trans same
              have noCall : event.kind ≠ .call := by
                intro same
                cases kind.symm.trans same
              have quiet := ends_dispatchAt known' noted system noLine noCall position
              simp only [dispatch, search?, skipped, at', kind, Bool.false_eq_true, if_false]
              rw [at', kind] at quiet
              exact quiet _

theorem run_ends (known : id < d.contexts.size) (system : Nat) (next : Continuation) :
    Ends (next.search? d id) system id (d.context id) (next.run d system id) := by
  cases next with
  | lineTraced position receiver moved => exact ends_checkLine known
  | breakpointReported position onLine => exact ends_haltAt known rfl position onLine
  | exceptionReported position receiver binding =>
      have halted (d : Debugger) (known : id < d.contexts.size) (binding : Option Binding) :
          Ends none system id (d.context id) ((d.updateContext id (·.setTopBinding binding)).halt id position) := by
        have bound : ((d.updateContext id (·.setTopBinding binding)).context id).marks = (d.context id).marks :=
          marks_updateContext rfl (·.setTopBinding binding) fun _ => rfl
        refine ends_haltAt ?_ bound position false
        rw [size_updateContext]
        exact known
      cases binding with
      | some binding => exact halted d known (some binding)
      | none => exact halted (d.captureBinding system receiver).2 known _
  | resumed => exact .passed rfl rfl rfl

/-! ## What is looked for -/

theorem lineSearch?_eq_some {search : Search} (sought : d.lineSearch? id position receiver moved = some search) :
    ((d.context id).countLine moved).isStepDue = false ∧
      search = ⟨d, position, true, (·.matchesPosition position), receiver⟩ := by
  obtain ⟨undue, same⟩ := Option.ite_none_left_eq_some.mp sought
  exact ⟨eq_false_of_ne_true undue, (Option.some.inj same).symm⟩

theorem search?_eq_some {search : Search} (sought : d.search? system id event = some search) :
    search.IsFor event ∧ (d.context id).skipped = false ∧
      search.debugger = d.placed system id event search.position := by
  obtain ⟨heeded, sought⟩ := Option.ite_none_left_eq_some.mp sought
  have heeded := eq_false_of_ne_true heeded
  split at sought
  · next position at' kind =>
      simp only at sought
      obtain ⟨_, sought⟩ := Option.ite_none_left_eq_some.mp sought
      obtain ⟨-, rfl⟩ := lineSearch?_eq_some sought
      refine ⟨⟨at', kind, ?_, rfl⟩, heeded, rfl⟩
      funext bp
      simp only [Event.meets, kind]
  · next position at' kind =>
      cases sought
      refine ⟨⟨at', kind, ?_, rfl⟩, heeded, rfl⟩
      funext bp
      simp only [Event.meets, kind]
  · cases sought

end Debugger

theorem Continuation.search?_eq_some {next : Continuation} {d : Debugger} {id : ContextId} {search : Search}
    (sought : next.search? d id = some search) :
    ∃ position receiver moved, next = .lineTraced position receiver moved ∧
      search = ⟨d, position, true, (·.matchesPosition position), receiver⟩ := by
  cases next with
  | lineTraced position receiver moved =>
      obtain ⟨-, same⟩ := Debugger.lineSearch?_eq_some sought
      exact ⟨position, receiver, moved, rfl, same⟩
  | _ => cases sought

namespace Search

variable {search : Search} {system : Nat} {id : ContextId} {found : Found}

theorem isSome_hit?_iff (moved : (search.debugger.context id).moved) : (search.hit? system id).isSome ↔
    ∃ bp, (search.debugger.breakpointsFor id).find? search.meets = some bp ∧
      search.debugger.guardHoldsFor system search.receiver bp := by
  rw [← Debugger.findBreakpoint?_eq moved, hit?]
  cases search.debugger.findBreakpoint? id search.meets with
  | none => simp
  | some found =>
      rw [Option.isSome_filter, Option.any_some, Option.map_some]
      exact ⟨fun holds => ⟨found.breakpoint, rfl, holds⟩, fun ⟨_, same, holds⟩ => Option.some.inj same ▸ holds⟩

theorem moved_of_hit (hit : search.hit? system id = some found) : (search.debugger.context id).moved := by
  obtain ⟨found, -⟩ := Search.hit?_eq_some.mp hit
  simp only [Debugger.findBreakpoint?] at found
  by_contra still
  rw [if_neg still] at found
  cases found

end Search

theorem Ends.stops_iff {search : Search} {system : Nat} {id : ContextId} {before : Context}
    {piece : Outcome × Debugger} (ends : Ends (some search) system id before piece) :
    piece.1.isQuiet = false ↔ (search.hit? system id).isSome := by
  cases ends with
  | passed missed quiet same =>
      rw [Option.bind_some] at missed
      simp [quiet, missed]
  | halted unsought halting same saved => cases unsought
  | reported sought hit same reason undue | fired sought hit halting same saved =>
      cases sought
      simp [Outcome.isQuiet, hit]

end EventDebugger
