import EventDebugger.Proofs.Dispatch.Catching
import EventDebugger.Proofs.Solo.Walking
import EventDebugger.Proofs.Ticket.Passing
import EventDebugger.Proofs.Ticket.Stepping

/-!
# The gait of a context

Which lines a context counts, and how many, is decided by the steps that are armed, by the position of its last
halt, and by whether anything else than a line happened. An event that is not a line to halt on changes this
only where it closes a frame; a line is counted, and then a step is due or not.

* `Debugger.carries_dispatch`: an event that checks no line.
* `Debugger.checkLine_due`, `Debugger.checkLine_undue`: a line.
-/

namespace EventDebugger

namespace Event

def raised? (event : Event) : Option Value :=
  match event.kind with
  | .raise exception => some exception
  | _ => none

/-- Whether an event closes frames, where `opens` tells which native calls open frames. -/
def returns (opens : Option TypeRef → Bool → Bool) (event : Event) : Bool :=
  match event.kind with
  | .return => true
  | .classClose => event.position.isSome
  | .nativeReturn blockGiven => event.position.isSome && opens event.enclosingType blockGiven
  | _ => false

theorem reshape_of_returns {opens : Option TypeRef → Bool → Bool} {event : Event} (returns : event.returns opens)
    (stack : CallStack) : event.reshape opens stack = stack.popMatching event.method := by
  unfold Event.returns at returns
  split at returns
  · next kind => cases at' : event.position <;> simp only [reshape, at', reshapeAt, kind, if_true]
  · next kind =>
      obtain ⟨position, at'⟩ := Option.isSome_iff_exists.mp returns
      simp only [reshape, at', reshapeAt, kind]
  · next kind =>
      rw [Bool.and_eq_true] at returns
      obtain ⟨position, at'⟩ := Option.isSome_iff_exists.mp returns.1
      simp only [reshape, at', reshapeAt, kind, returns.2, if_true]
  · cases returns

end Event

namespace Context

def gait (context : Context) :
    Bool × Bool × Option Position × Countdown × Countdown × Option Nat × Option Nat :=
  (context.stepped, context.forced, context.lastPosition, context.steps)

def seeing (opens : Option TypeRef → Bool → Bool) (event : Event) (context : Context) : Context :=
  let noted := context.noteEvent event.position event.kind.isLine
  if event.returns opens then noted.returnFrom event.method else noted

theorem steps_returnFrom (context : Context) (method : Option String) :
    (context.returnFrom method).steps =
      if context.finishDepth = some context.depth then (.armed 1, context.stopLine, context.targetDepth, none)
      else context.steps := by
  unfold returnFrom
  split <;> rfl

theorem steps_seeing (context : Context) (opens : Option TypeRef → Bool → Bool) (event : Event) :
    (context.seeing opens event).steps =
      if event.returns opens then (context.returnFrom event.method).steps else context.steps := by
  unfold seeing
  dsimp only
  split
  · rw [steps_returnFrom, steps_returnFrom]
    rfl
  · rfl

end Context

namespace Debugger

variable {d : Debugger} {id : ContextId} {context : Context}

/-- A piece of dispatch after which the steps that are armed are those of a given context, and so is the whole
gait unless the piece ends with a halt. -/
def Carries (context : Context) (id : ContextId) (piece : Outcome × Debugger) : Prop :=
  (piece.2.context id).steps = context.steps ∧
    (¬ HaltsOn id piece → (piece.2.context id).gait = context.gait)

theorem Carries.of_gait (same : (d.context id).gait = context.gait) (outcome : Outcome) :
    Carries context id (outcome, d) := ⟨congrArg (·.2.2.2) same, fun _ => same⟩

theorem gait_updateContext (same : (d.context id).gait = context.gait) (f : Context → Context)
    (hf : ∀ context, (f context).gait = context.gait) : ((d.updateContext id f).context id).gait = context.gait :=
  d.preserves_updateContext (P := (·.gait = context.gait)) id (fun {own} h => (hf own).trans h) same

theorem gait_openFrame (same : (d.context id).gait = context.gait) (system : Nat) (event : Event)
    (position : Position) : ((d.openFrame system id event position).context id).gait = context.gait :=
  gait_updateContext (d := (d.newFrame system event position).2) same (·.push _) fun _ => rfl

theorem gait_captureLine (same : (d.context id).gait = context.gait) (system : Nat) (receiver : Option Value) :
    ((d.captureLine system id receiver).2.context id).gait = context.gait :=
  gait_updateContext (d := (d.captureBinding system receiver).2) same
    (fun context => { context.setTopBinding _ with reason := .step }) fun _ => rfl

theorem carries_halt (same : (d.context id).steps = context.steps) (position : Position) :
    Carries context id (d.halt id position) := by
  refine ⟨?_, fun silent => absurd ⟨position, .resumed, rfl⟩ silent⟩
  exact preserves_updateContext (P := (·.steps = context.steps))
    { d with lastHalted := some (d.context id).number } id (fun h => (Context.steps_savePosition _).trans h) same

/-! ## Events that are not lines -/

theorem carries_haltOnBreakpoint (same : (d.context id).gait = context.gait) (found : Found)
    (position : Position) : Carries context id (d.haltOnBreakpoint id found position false) := by
  simp only [haltOnBreakpoint]
  split
  · have spent := gait_updateContext same (fun context => { context with temporary := none }) fun _ => rfl
    exact carries_halt (congrArg (·.2.2.2) spent) position
  · exact .of_gait (gait_updateContext same (fun context => { context with reason := .breakpoint }) fun _ => rfl) _

theorem carries_onCall (same : (d.context id).gait = context.gait) (system : Nat) (event : Event)
    (position : Position) : Carries context id (d.onCall system id event position) := by
  have opened := gait_openFrame same system event position
  rw [onCall_eq]
  dsimp only
  generalize d.openFrame system id event position = d' at opened ⊢
  split
  · exact .of_gait opened _
  · next found _ =>
      have captured : ((d'.callBinding system id event.receiver).2.context id).gait = context.gait := by
        rw [(context_callBinding d' system id event.receiver).1]
        exact opened
      have bound := gait_updateContext captured
        (·.setTopBinding (d'.callBinding system id event.receiver).1) fun _ => rfl
      split
      · exact carries_haltOnBreakpoint bound found position
      · exact .of_gait bound _

theorem carries_onRaise (known : id < d.contexts.size) (same : (d.context id).gait = context.gait) (system : Nat)
    (event : Event) (position : Position) (exception : Value) :
    Carries context id (d.onRaise system id event position exception) := by
  have moved := gait_updateContext same (·.moveTop event position false) fun _ => rfl
  have known' : id < (d.updateContext id (·.moveTop event position false)).contexts.size := by
    rw [size_updateContext]
    exact known
  simp only [onRaise]
  generalize d.updateContext id (·.moveTop event position false) = d' at moved known' ⊢
  have kept : ((d'.keepPostMortem system id event position exception).2.context id).gait = context.gait := by
    rw [context_keepPostMortem known']
    exact moved
  split
  · refine .of_gait ?_ _
    rw [Debugger.context, contexts_forceStop]
    exact kept
  · split
    · exact .of_gait kept _
    · split
      · exact .of_gait (gait_updateContext kept (fun context => { context with reason := .catchpoint }) fun _ => rfl) _
      · exact .of_gait kept _

theorem gait_placed (known : id < d.contexts.size) (system : Nat) (event : Event) (position : Position) :
    ((d.placed system id event position).context id).gait =
      ((d.context id).noteEvent event.position event.kind.isLine).gait := by
  have noted : ((d.updateContext id (·.noteEvent event.position event.kind.isLine)).context id).gait =
      ((d.context id).noteEvent event.position event.kind.isLine).gait := by
    rw [d.context_updateContext_self _ known]
  unfold placed
  dsimp only
  split
  · split
    · exact gait_openFrame noted system event position
    · exact gait_updateContext noted (·.moveTop event position false) fun _ => rfl
  · exact noted

theorem touches_placed (d : Debugger) (system : Nat) (id : ContextId) (event : Event) (position : Position) :
    Touches system id d (d.placed system id event position) := by
  have noted := d.touches_noteEvent system id event
  unfold placed
  dsimp only
  split
  · split
    · exact noted.trans (touches_openFrame _ system id event position)
    · exact noted.trans (touches_moveTop _ system id event position false)
  · exact noted

theorem tracing_placed (known : id < d.contexts.size) (system : Nat) (event : Event) (position : Position) :
    ((d.placed system id event position).settings.tracing ||
        ((d.placed system id event position).context id).tracing) =
      (d.settings.tracing || (d.context id).tracing) := by
  have touches := d.touches_placed system id event position
  have own : ((d.placed system id event position).context id).tracing = (d.context id).tracing :=
    congrArg (·.2.2.2.1) (touches.traits id known)
  rw [touches.settings, own]

theorem header_of_line? {event : Event} {position : Position} {conditional : Bool} (other : event.line? = none)
    (at' : event.position = some position) (kind : event.kind = .line conditional) : conditional = true := by
  cases conditional with
  | false =>
      rw [Event.line?, kind] at other
      exact absurd (at'.symm.trans other) (Option.some_ne_none _)
  | true => rfl

section

variable {event : Event} (known : id < d.contexts.size) (system : Nat)

include known

theorem carries_returnFrom (method : Option String) :
    Carries ((d.context id).returnFrom method) id (.done, d.updateContext id (·.returnFrom method)) :=
  .of_gait (congrArg Context.gait (d.context_updateContext_self (·.returnFrom method) known)) _

theorem carries_dispatchAt (position : Position) (at' : event.position = some position)
    (other : event.kind.isLine = false) (moved : Bool) :
    Carries (if event.returns d.opensNativeFrame then (d.context id).returnFrom event.method else d.context id) id
      (d.dispatchAt system id event position moved) := by
  cases kind : event.kind with
  | line conditional =>
      rw [kind] at other
      cases other
  | call =>
      simp only [dispatchAt, kind, Event.returns, Bool.false_eq_true, if_false]
      exact carries_onCall rfl system event position
  | «return» | classClose =>
      simp only [dispatchAt, kind, Event.returns, at', Option.isSome_some, if_true]
      exact carries_returnFrom known event.method
  | classOpen =>
      let unnamed (context : Context) : Context :=
        { context with stack := context.stack.modifyTop fun frame => { frame with method := none } }
      have unnamed : ((d.updateContext id unnamed).context id).gait = (d.context id).gait :=
        gait_updateContext rfl unnamed fun _ => rfl
      simp only [dispatchAt, kind, Event.returns, Bool.false_eq_true, if_false]
      exact .of_gait (gait_openFrame unnamed system event position) _
  | nativeCall blockGiven =>
      simp only [dispatchAt, kind, Event.returns, Bool.false_eq_true, if_false]
      split
      · exact .of_gait (gait_openFrame rfl system event position) _
      · exact .of_gait (gait_updateContext rfl (·.moveTop event position true) fun _ => rfl) _
  | nativeReturn blockGiven =>
      simp only [dispatchAt, kind, Event.returns, at', Option.isSome_some, Bool.true_and]
      split
      · exact carries_returnFrom known event.method
      · exact .of_gait rfl _
  | raise exception =>
      simp only [dispatchAt, kind, Event.returns, Bool.false_eq_true, if_false]
      exact carries_onRaise known rfl system event position exception

theorem carries_dispatch (heeded : (d.context id).skipped = false)
    (unchecked : event.line? = none ∨ (d.settings.tracing || (d.context id).tracing) = true) :
    Carries ((d.context id).seeing d.opensNativeFrame event) id (d.dispatch system id event) := by
  have noted := d.context_updateContext_self (·.noteEvent event.position event.kind.isLine) known
  have known' : id < (d.updateContext id (·.noteEvent event.position event.kind.isLine)).contexts.size := by
    rw [size_updateContext]
    exact known
  have opens : (d.updateContext id (·.noteEvent event.position event.kind.isLine)).opensNativeFrame =
      d.opensNativeFrame := rfl
  by_cases line : event.kind.isLine = false
  · simp only [Context.seeing, ← noted, ← opens, dispatch, heeded, Bool.false_eq_true, if_false]
    generalize d.updateContext id (·.noteEvent event.position event.kind.isLine) = d' at known' ⊢
    cases at' : event.position with
    | some position => exact carries_dispatchAt known' system position at' line _
    | none =>
        by_cases kind : event.kind = .return
        · simp only [Event.returns, kind, if_true]
          exact carries_returnFrom known' event.method
        · have stays : event.returns d'.opensNativeFrame = false := by
            unfold Event.returns
            split
            · next is => exact absurd is kind
            · rw [at', Option.isSome_none]
            · rw [at', Option.isSome_none, Bool.false_and]
            · rfl
          simp only [kind, stays, if_false, Bool.false_eq_true]
          exact .of_gait rfl _
  · obtain ⟨conditional, kind⟩ : ∃ conditional, event.kind = .line conditional := by
      cases kind : event.kind with
      | line conditional => exact ⟨conditional, rfl⟩
      | _ =>
          rw [kind] at line
          exact absurd rfl line
    have stays : event.returns d.opensNativeFrame = false := by rw [Event.returns, kind]
    simp only [Context.seeing, stays, Bool.false_eq_true, if_false]
    cases at' : event.position with
    | none =>
        simp only [dispatch, heeded, at', kind, Bool.false_eq_true, if_false]
        rw [at', kind] at noted
        exact .of_gait (congrArg Context.gait noted) _
    | some position =>
        rw [← at']
        have placed := gait_placed known system event position
        cases conditional with
        | true =>
            rw [dispatch_conditional system id event position d heeded at' kind]
            exact .of_gait placed _
        | false =>
            have traced := unchecked.resolve_left (by simp [Event.line?, kind, at'])
            rw [dispatch_line system id event position d heeded at' kind]
            dsimp only
            rw [tracing_placed known, traced, if_pos rfl]
            exact .of_gait placed _

end

theorem live_dispatch (known : id < d.contexts.size) (live : (d.context id).dead = false) (system : Nat)
    (event : Event) : ((d.dispatch system id event).2.context id).dead = false :=
  (congrArg (·.2.2.2.2.2.2.1) (d.traits_dispatch system id event known)).trans live

/-! ## Lines -/

section

variable {event : Event} {system : Nat} {position : Position} {receiver : Option Value} {moved : Bool}

theorem mem_of_findBreakpoint? {p : Breakpoint → Bool} {found : Found}
    (hit : d.findBreakpoint? id p = some found) : found.breakpoint ∈ d.breakpointsFor id ∧ p found.breakpoint := by
  have moved : (d.context id).moved := by
    simp only [findBreakpoint?] at hit
    split at hit
    · next moved => exact moved
    · cases hit
  have first := findBreakpoint?_eq moved p
  rw [hit] at first
  exact ⟨List.mem_of_find?_eq_some first.symm, List.find?_some first.symm⟩

theorem checkLine_due (system : Nat) (position : Position) (receiver : Option Value) (known : id < d.contexts.size)
    (due : ((d.context id).countLine moved).isStepDue) :
    let piece := d.checkLine system id position receiver moved
    piece.1 = .call (.line id position) .resumed ∧ (piece.2.context id).reason = .step ∧
      (piece.2.context id).steps = (.off, .off, none, (d.context id).finishDepth) := by
  have counted := d.context_updateContext_self (·.countLine moved) known
  have known' : id < (d.updateContext id (·.countLine moved)).contexts.size := by
    rw [size_updateContext]
    exact known
  rw [← counted] at due
  have reason (context : Context) : context.savePosition.reason = context.reason := by
    obtain ⟨_, _, _, _, saved⟩ := context.savePosition_eq
    rw [saved]
  have unfinished : ((d.context id).countLine moved).finishDepth = (d.context id).finishDepth := by
    obtain ⟨_, _, _, counted⟩ := (d.context id).countLine_eq moved
    rw [counted]
  simp only [checkLine, due, if_true]
  rw [context_haltOnLine_captureLine known', counted, ← unfinished]
  exact ⟨rfl, reason _, Context.steps_savePosition _⟩

theorem checkLine_undue (known : id < d.contexts.size)
    (undue : ((d.context id).countLine moved).isStepDue = false)
    (fails : ∀ bp ∈ d.breakpointsFor id, bp.matchesPosition position → d.guardHoldsFor system receiver bp = false) :
    let piece := d.checkLine system id position receiver moved
    piece.1 = .done ∧ (piece.2.context id).gait = ((d.context id).countLine moved).gait := by
  have counted := d.context_updateContext_self (·.countLine moved) known
  rw [← counted] at undue ⊢
  simp only [checkLine, undue, Bool.false_eq_true, if_false]
  split
  · exact ⟨rfl, rfl⟩
  · next found hit =>
      rw [findBreakpoint?_countLine known] at hit
      obtain ⟨member, meets⟩ := mem_of_findBreakpoint? hit
      rw [guardHolds_captureLine, fails _ member meets, if_neg Bool.false_ne_true]
      exact ⟨rfl, gait_captureLine rfl system receiver⟩

theorem depth_run (next : Continuation) : ((next.run d system id).2.context id).depth = (d.context id).depth := by
  have same : ((next.run d system id).2.context id).stack.unbound = (d.context id).stack.unbound :=
    d.unbound_run system next
  have size := congrArg List.length same
  rwa [CallStack.unbound, CallStack.unbound, CallStack.length_modifyTop, CallStack.length_modifyTop] at size

theorem depth_checkLine :
    ((d.checkLine system id position receiver moved).2.context id).depth = (d.context id).depth :=
  depth_run (.lineTraced position receiver moved)

theorem dispatch_checks (known : id < d.contexts.size) (heeded : (d.context id).skipped = false)
    (untraced : (d.settings.tracing || (d.context id).tracing) = false) (line : event.line? = some position) :
    d.dispatch system id event = (d.placed system id event position).checkLine system id position event.receiver
      (decide ((d.context id).lastPosition ≠ some position)) := by
  obtain ⟨kind, at'⟩ := Event.of_line? line
  rw [EventDebugger.dispatch_line system id event position d heeded at' kind]
  dsimp only
  rw [tracing_placed known, untraced, if_neg Bool.false_ne_true]

end

/-! ## Events that do not halt -/

/-- No breakpoint and no exception halts on an event: the guard of every breakpoint that the event meets fails,
and the catch-point does not name what is raised. -/
structure Dismisses (d : Debugger) (system : Nat) (id : ContextId) (event : Event) : Prop where
  fails : ∀ position ∈ event.position,
    let d' := d.placed system id event position
    ∀ bp ∈ d'.breakpointsFor id, event.meets position bp → d'.guardHoldsFor system event.receiver bp = false
  uncaught : ∀ exception ∈ event.raised?, ∀ className ∈ d.catchpoint,
    (d.host.ancestors exception).contains className = false

instance (d : Debugger) (system : Nat) (id : ContextId) (event : Event) : Decidable (d.Dismisses system id event) :=
  decidable_of_iff ((∀ position ∈ event.position,
        let d' := d.placed system id event position
        ∀ bp ∈ d'.breakpointsFor id, event.meets position bp → d'.guardHoldsFor system event.receiver bp = false) ∧
      ∀ exception ∈ event.raised?, ∀ className ∈ d.catchpoint, (d.host.ancestors exception).contains className = false)
    ⟨fun ⟨fails, uncaught⟩ => ⟨fails, uncaught⟩, fun h => ⟨h.fails, h.uncaught⟩⟩

theorem Dismisses.fails_line {system : Nat} {event : Event} {position : Position}
    (dismisses : d.Dismisses system id event) (line : event.line? = some position) :
    let d' := d.placed system id event position
    ∀ bp ∈ d'.breakpointsFor id, bp.matchesPosition position → d'.guardHoldsFor system event.receiver bp = false := by
  obtain ⟨kind, at'⟩ := Event.of_line? line
  intro d' bp member meets
  apply dismisses.fails position at' bp member
  simpa only [Event.meets, kind] using meets

section

variable {event : Event} {system : Nat} {position : Position}

theorem onCall_done (known : id < d.contexts.size)
    (fails : ∀ bp ∈ d.breakpointsFor id, bp.matchesMethod (enteredType event) event.method →
      d.guardHoldsFor system event.receiver bp = false) : (d.onCall system id event position).1 = .done := by
  have guarded := guardHolds_callBinding known system event position
  rw [onCall_eq]
  dsimp only
  split
  · rfl
  · next found hit =>
      rw [findBreakpoint?_openFrame known] at hit
      obtain ⟨member, meets⟩ := mem_of_findBreakpoint? hit
      rw [guarded, fails _ member meets, if_neg Bool.false_ne_true]

theorem onRaise_done {exception : Value} (uncaught : ∀ className ∈ d.catchpoint,
    (d.host.ancestors exception).contains className = false) :
    (d.onRaise system id event position exception).1 = .done := by
  rcases d.onRaise_cases system id event position exception with ⟨⟨-, className, is, named⟩, -⟩ | ⟨-, done⟩
  · have spared := uncaught className is
    rw [List.contains_iff_mem.mpr named] at spared
    cases spared
  · exact done

theorem Dismisses.done (dismisses : d.Dismisses system id event) (known : id < d.contexts.size)
    (heeded : (d.context id).skipped = false) (other : event.line? = none) :
    (d.dispatch system id event).1 = .done := by
  cases at' : event.position with
  | none =>
      simp only [dispatch, heeded, at', Bool.false_eq_true, if_false]
      split <;> rfl
  | some position =>
      have fails := dismisses.fails position at'
      cases kind : event.kind with
      | line conditional =>
          obtain rfl := header_of_line? other at' kind
          rw [dispatch_conditional system id event position d heeded at' kind]
      | call =>
          rw [dispatch_call system id event position d heeded at' kind]
          have known' := Nat.lt_of_lt_of_le known (d.touches_placed system id event position).size
          refine onCall_done known' fun bp member meets => fails bp member ?_
          simpa only [Event.meets, kind] using meets
      | raise exception =>
          simp only [dispatch, heeded, at', dispatchAt, kind, Bool.false_eq_true, if_false]
          have raised : exception ∈ event.raised? := by rw [Event.raised?, kind]; rfl
          exact onRaise_done fun className is => dismisses.uncaught exception raised className is
      | «return» | classClose | classOpen =>
          simp only [dispatch, heeded, at', dispatchAt, kind, Bool.false_eq_true, if_false]
      | nativeCall | nativeReturn =>
          simp only [dispatch, heeded, at', dispatchAt, kind, Bool.false_eq_true, if_false]
          split <;> rfl

theorem Dismisses.dispatch_other (dismisses : d.Dismisses system id event) (known : id < d.contexts.size)
    (heeded : (d.context id).skipped = false) (other : event.line? = none) :
    (d.dispatch system id event).1 = .done ∧ ((d.dispatch system id event).2.context id).gait =
      ((d.context id).seeing d.opensNativeFrame event).gait := by
  have done := dismisses.done known heeded other
  refine ⟨done, (carries_dispatch known system heeded (.inl other)).2 ?_⟩
  rintro ⟨_, _, halts⟩
  rw [done] at halts
  cases halts

end

end Debugger

end EventDebugger
