import EventDebugger.Proofs.Dispatch.Reasons
import EventDebugger.Proofs.Schedule.Events

/-!
# Halting on every line

A context whose every halt is answered by a single step, with nothing else that could make it halt. It
halts on each line at another position than its last halt.

* `Walking.handled`: the handling of one event.
-/

namespace EventDebugger

/-! ## Contexts -/

def Context.stance (context : Context) :
    Bool × Bool × Bool × Bool × Bool × Countdown × Countdown × Option Nat × Option Nat × Option Breakpoint ×
      Option Position :=
  (context.skipped, context.ignored, context.tracing, context.dead, context.forced, context.stopNext,
    context.stopLine, context.targetDepth, context.finishDepth, context.temporary, context.lastPosition)

def Context.Walks (last : Option Position) (context : Context) : Prop :=
  context.stance = (false, false, false, false, false, .armed 1, .off, none, none, none, last)

namespace Context.Walks

variable {last : Option Position} {context context' : Context} (h : context.Walks last)
include h

theorem of_stance (same : context'.stance = context.stance) : context'.Walks last := same.trans h

theorem heeded : context.skipped = false := congrArg (·.1) h

theorem attended : context.ignored = false := congrArg (·.2.1) h

theorem untraced : context.tracing = false := congrArg (·.2.2.1) h

theorem live : context.dead = false := congrArg (·.2.2.2.1) h

theorem unforced : context.forced = false := congrArg (·.2.2.2.2.1) h

theorem next : context.stopNext = .armed 1 := congrArg (·.2.2.2.2.2.1) h

theorem line : context.stopLine = .off := congrArg (·.2.2.2.2.2.2.1) h

theorem anywhere : context.targetDepth = none := congrArg (·.2.2.2.2.2.2.2.1) h

theorem unfinished : context.finishDepth = none := congrArg (·.2.2.2.2.2.2.2.2.1) h

theorem plain : context.temporary = none := congrArg (·.2.2.2.2.2.2.2.2.2.1) h

theorem last_eq : context.lastPosition = last := congrArg (·.2.2.2.2.2.2.2.2.2.2) h

theorem returnFrom (method : Option String) : (context.returnFrom method).Walks last := by
  refine h.of_stance ?_
  unfold Context.returnFrom
  rw [if_neg (by rw [h.unfinished]; exact (Option.some_ne_none _).symm)]
  rfl

theorem countLine_stays :
    (context.countLine false).Walks last ∧ (context.countLine false).isStepDue = false := by
  have counted : (context.countLine false).stance = context.stance := by
    simp only [countLine, h.anywhere, tickSteps, h.unforced, Bool.or_self, Bool.false_or,
      Bool.false_eq_true, if_false, h.line, Countdown.tick_off, ite_self]
    unfold stance
    rw [h.line, h.anywhere, h.unforced]
  have walks := h.of_stance counted
  refine ⟨walks, ?_⟩
  unfold isStepDue
  rw [walks.next, walks.line]
  rfl

theorem countLine_moves : (context.countLine true).isStepDue = true := by
  simp only [countLine, h.anywhere, tickSteps, h.unforced, Bool.or_false, Bool.true_or, if_true, isStepDue,
    h.next, Countdown.tick_armed_succ, Countdown.isDue_armed, beq_self_eq_true]

end Context.Walks

structure Context.Rests (position : Position) (context : Context) : Prop where
  stance : context.stance = (false, false, false, false, false, .off, .off, none, none, none, some position)
  reason : context.reason = .step
  framed : context.stack ≠ []

theorem Context.Walks.rests {last : Option Position} {context : Context} (h : context.Walks last)
    {frame : Frame} {rest : CallStack} (top : context.stack = frame :: rest) (binding : Option Binding) :
    Context.Rests frame.position
      { (context.countLine true).setTopBinding binding with reason := .step }.clearSteps.savePosition := by
  obtain ⟨next, line, stepped, counted⟩ := context.countLine_eq true
  rw [counted]
  unfold clearSteps setTopBinding savePosition
  simp only [top, CallStack.modifyTop]
  refine ⟨?_, rfl, List.cons_ne_nil _ _⟩
  unfold stance
  simp only [h.heeded, h.attended, h.untraced, h.live, h.unfinished, h.plain]

theorem Context.Rests.step {position : Position} {context : Context} (h : context.Rests position) :
    ∃ context', context.step 1 false = .ok context' ∧ context'.Walks (some position) := by
  refine ⟨{ context with stopNext := .armed 1, forced := false }, rfl, ?_⟩
  have stance := h.stance
  simp only [Context.stance, Prod.mk.injEq] at stance
  obtain ⟨heeded, attended, untraced, live, _, _, line, anywhere, unfinished, plain, last⟩ := stance
  simp only [Context.Walks, Context.stance, heeded, attended, untraced, live, line, anywhere, unfinished,
    plain, last]

/-! ## Dispatch -/

/-- The position that an event reports as an executed line. The conditions of control structures do not
count. -/
def Event.line? (event : Event) : Option Position :=
  match event.kind with
  | .line false => event.position
  | _ => none

theorem Event.of_line? {event : Event} {position : Position} (line : event.line? = some position) :
    event.kind = .line false ∧ event.position = some position := by
  unfold line? at line
  split at line
  · next kind => exact ⟨kind, line⟩
  · cases line

namespace Debugger

structure OnlySteps (d : Debugger) : Prop where
  untraced : d.settings.tracing = false
  unkept : d.settings.postMortem = false
  unlisted : d.session.map (·.registry) = some []
  uncaught : d.catchpoint = none

theorem context_haltOnLine_captureLine {d : Debugger} {id : ContextId} (known : id < d.contexts.size)
    (system : Nat) (receiver : Option Value) (position : Position) :
    let captured := d.captureLine system id receiver
    (captured.2.haltOnLine id position).2.context id =
      ({ (d.context id).setTopBinding captured.1 with reason := .step } : Context).clearSteps.savePosition := by
  have known' : id < (d.captureLine system id receiver).2.contexts.size :=
    Nat.lt_of_lt_of_le known (d.touches_captureLine system id receiver).size
  have captured : (d.captureLine system id receiver).2.context id =
      { (d.context id).setTopBinding (d.captureLine system id receiver).1 with reason := .step } :=
    context_updateContext_self (d.captureBinding system receiver).2 _ known
  dsimp only
  generalize d.captureLine system id receiver = line at known' captured ⊢
  have cleared := line.2.context_updateContext_self Context.clearSteps known'
  have known'' : id < (line.2.updateContext id Context.clearSteps).contexts.size := by
    rw [size_updateContext]
    exact known'
  have saved := context_updateContext_self
    { line.2.updateContext id Context.clearSteps with
      lastHalted := some ((line.2.updateContext id Context.clearSteps).context id).number }
    Context.savePosition known''
  exact saved.trans (congrArg Context.savePosition (cleared.trans (congrArg Context.clearSteps captured)))

structure Walks (id : ContextId) (last : Option Position) (d : Debugger) : Prop where
  only : d.OnlySteps
  known : id < d.contexts.size
  context : (d.context id).Walks last

theorem OnlySteps.of_rules {d d' : Debugger} (h : d.OnlySteps) (rules : d'.rules = d.rules) :
    d'.OnlySteps := by
  simp only [Debugger.rules, Prod.mk.injEq] at rules
  obtain ⟨settings, registry, catchpoint, -⟩ := rules
  exact ⟨settings ▸ h.untraced, settings ▸ h.unkept, registry ▸ h.unlisted, catchpoint ▸ h.uncaught⟩

namespace Walks

variable {d d' : Debugger} {id : ContextId} {last : Option Position} (h : d.Walks id last)
include h

theorem updateContext {f : Context → Context} (hf : (f (d.context id)).Walks last) :
    (d.updateContext id f).Walks id last := by
  refine ⟨h.only.of_rules rfl, ?_, ?_⟩
  · rw [size_updateContext]
    exact h.known
  · rw [d.context_updateContext_self f h.known]
    exact hf

theorem openFrame (system : Nat) (event : Event) (position : Position) :
    (d.openFrame system id event position).Walks id last := by
  have captured : (d.newFrame system event position).2.Walks id last :=
    ⟨⟨h.only.1, h.only.2, h.only.3, h.only.4⟩, h.known, h.context⟩
  exact captured.updateContext (f := (·.push (d.newFrame system event position).1)) (h.context.of_stance rfl)

theorem noteEvent (event : Event) :
    (d.updateContext id (·.noteEvent event.position event.kind.isLine)).Walks id last :=
  h.updateContext (h.context.of_stance rfl)

theorem placed (system : Nat) (event : Event) (position : Position) :
    (d.placed system id event position).Walks id last := by
  have noted := h.noteEvent event
  unfold Debugger.placed
  dsimp only
  split
  · split
    · exact noted.openFrame system event position
    · exact noted.updateContext (noted.context.of_stance rfl)
  · exact noted

theorem findBreakpoint?_eq (p : Breakpoint → Bool) : d.findBreakpoint? id p = none := by
  have unlisted : d.findListed? p = none := by
    obtain ⟨session, active, empty⟩ := Option.map_eq_some_iff.mp h.only.unlisted
    simp only [findListed?, active, empty, List.find?_nil, Option.map_none]
  simp only [findBreakpoint?, h.context.plain, unlisted, ite_self]

theorem dispatch_other (system : Nat) {event : Event} (other : event.line? = none)
    (stays : event.isExit = false) :
    (d.dispatch system id event).1 = .done ∧ (d.dispatch system id event).2.Walks id last := by
  have noted := h.noteEvent event
  simp only [dispatch, h.context.heeded, Bool.false_eq_true, if_false]
  generalize d.updateContext id (·.noteEvent event.position event.kind.isLine) = d' at noted ⊢
  split
  · next position at' =>
      unfold dispatchAt
      split
      · next conditional kind =>
          obtain rfl : conditional = true := by
            cases conditional with
            | false =>
                unfold Event.line? at other
                rw [kind] at other
                exact absurd (at'.symm.trans other) (Option.some_ne_none _)
            | true => rfl
          refine ⟨rfl, ?_⟩
          simp only [onLine, if_true]
          split
          · exact noted.openFrame system event position
          · exact noted.updateContext (noted.context.of_stance rfl)
      · have opened := noted.openFrame system event position
        simp only [onCall, opened.findBreakpoint?_eq]
        exact ⟨trivial, opened⟩
      · exact ⟨rfl, noted.updateContext (noted.context.returnFrom _)⟩
      · exact ⟨rfl, noted.updateContext (noted.context.returnFrom _)⟩
      · refine ⟨rfl, Walks.openFrame (noted.updateContext ?_) system event position⟩
        exact noted.context.of_stance rfl
      · split
        · exact ⟨rfl, noted.openFrame system event position⟩
        · exact ⟨rfl, noted.updateContext (noted.context.of_stance rfl)⟩
      · split
        · exact ⟨rfl, noted.updateContext (noted.context.returnFrom _)⟩
        · exact ⟨rfl, noted⟩
      · next exception kind =>
          have remains : Host.isExit exception = false := by
            unfold Event.isExit at stays
            rw [kind] at stays
            exact stays
          -- There is no catchpoint, and no copy is kept of what fails.
          have moved : (Debugger.updateContext _ id (·.moveTop event position false)).Walks id last :=
            noted.updateContext (noted.context.of_stance rfl)
          simp only [onRaise, keepPostMortem, moved.only.unkept, remains, moved.only.uncaught, Bool.false_and,
            Bool.false_eq_true, if_false]
          exact ⟨trivial, moved⟩
  · split
    · exact ⟨rfl, noted.updateContext (noted.context.returnFrom _)⟩
    · exact ⟨rfl, noted⟩

theorem stack_placed (system : Nat) {event : Event} (isLine : event.kind.isLine = true)
    (position : Position) :
    ∃ frame rest, ((d.placed system id event position).context id).stack = frame :: rest ∧
      frame.position = position := by
  have noted := h.noteEvent event
  simp only [Debugger.placed, isLine, if_true] at noted ⊢
  generalize d.updateContext id (·.noteEvent event.position true) = d' at noted ⊢
  split
  · rw [context_openFrame noted.known]
    exact ⟨_, _, rfl, rfl⟩
  · next framed =>
      rw [d'.context_updateContext_self _ noted.known]
      unfold Context.moveTop
      cases stack : (d'.context id).stack with
      | nil => exact absurd (List.isEmpty_iff.mpr stack) framed
      | cons frame rest => exact ⟨_, _, rfl, rfl⟩

theorem dispatch_line (system : Nat) {event : Event} {position : Position}
    (line : event.line? = some position) :
    let piece := d.dispatch system id event
    if last = some position then piece.1 = .done ∧ piece.2.Walks id last
    else piece.1 = .call (.line id position) .resumed ∧ piece.2.OnlySteps ∧ id < piece.2.contexts.size ∧
      (piece.2.context id).Rests position := by
  obtain ⟨kind, at'⟩ := Event.of_line? line
  have placed := h.placed system event position
  obtain ⟨frame, rest, top, here⟩ := h.stack_placed system (by rw [kind]; rfl) position
  rw [EventDebugger.dispatch_line system id event position d h.context.heeded at' kind]
  simp only [placed.only.untraced, placed.context.untraced, Bool.or_self, Bool.false_eq_true, if_false,
    h.context.last_eq]
  generalize d.placed system id event position = d₁ at placed top ⊢
  split
  · next same =>
      obtain ⟨walks, undue⟩ := placed.context.countLine_stays
      have counted := placed.updateContext (f := (·.countLine false)) walks
      rw [← d₁.context_updateContext_self (·.countLine false) placed.known] at undue
      simp only [checkLine, same, ne_eq, not_true_eq_false, decide_false, undue, counted.findBreakpoint?_eq,
        Bool.false_eq_true, if_false]
      exact ⟨trivial, same ▸ counted⟩
  · next other =>
      have counted := d₁.context_updateContext_self (·.countLine true) placed.known
      have due := placed.context.countLine_moves
      have rests := placed.context.rests top
      rw [← counted] at due
      simp only [checkLine, ne_eq, other, not_false_eq_true, decide_true, due, if_true]
      have known : id < (d₁.updateContext id (·.countLine true)).contexts.size := by
        rw [size_updateContext]
        exact placed.known
      have only : (d₁.updateContext id (·.countLine true)).OnlySteps := placed.only.of_rules rfl
      generalize d₁.updateContext id (·.countLine true) = d₂ at counted known only
      refine ⟨rfl, ?_, ?_, ?_⟩
      · exact ⟨only.1, only.2, only.3, only.4⟩
      · exact Nat.lt_of_lt_of_le known ((d₂.touches_captureLine system id event.receiver).trans
          (touches_haltAt _ system id position true)).size
      · rw [context_haltOnLine_captureLine known, counted]
        exact here ▸ rests (d₂.captureLine system id event.receiver).1

end Walks

end Debugger

/-! ## Events -/

/-- What a walking context makes of a line, if there is one: it stays where it halted last, or it halts and
is recorded. -/
inductive Lands (last : Option Position) : Option Position → Option Position → List HaltRecord → Prop
  | stays {line : Option Position} (same : line = none ∨ line = last) : Lands last line last []
  | halts (record : HaltRecord) (elsewhere : last ≠ some record.position) (reason : record.reason = .step) :
      Lands last (some record.position) (some record.position) [record]

namespace Recorder

theorem onHalt_rests {d : Debugger} {id : ContextId} {position : Position} (started : d.isStarted)
    (known : id < d.contexts.size) (rests : (d.context id).Rests position) {r : Recorder}
    (mode : r.mode = .step) :
    ∃ record d', onHalt id position (d, r) = (.ok (), d', { r with announced := none }.add (.halt record)) ∧
      record.position = position ∧ record.reason = .step ∧ (d'.context id).Walks (some position) := by
  obtain ⟨context', stepped, walks⟩ := rests.step
  have live : (d.context id).dead = false := congrArg (·.2.2.2.1) rests.stance
  obtain ⟨frame, top⟩ : ∃ frame, (d.context id).frame 0 = .ok frame := by
    cases stack : (d.context id).stack with
    | nil => exact absurd stack rests.framed
    | cons frame rest =>
        have inside : ¬ ((rest.length : Int) + 1 ≤ 0) := by omega
        exact ⟨frame, by
          simp [Context.frame, Context.checkFrame, Context.depth, stack, bind, Except.bind, inside]⟩
  obtain ⟨record, recorded, position_eq, reason⟩ : ∃ record,
      haltRecord d.host.scopes position r.announced (d.context id) = .ok record ∧ record.position = position ∧
        record.reason = .step := by
    unfold haltRecord
    rw [top]
    refine ⟨_, rfl, rfl, ?_⟩
    unfold Context.stopReason
    dsimp only
    rw [live, rests.reason]
    rfl
  refine ⟨record, d.updateContext id fun _ => context', ?_, position_eq, reason, ?_⟩
  · rw [onHalt_eq]
    simp only [Debugger.inspect, started, if_true, recorded]
    have commanded : d.command id r.mode.command = .ok (d.updateContext id fun _ => context') := by
      unfold Debugger.command Debugger.inspect
      rw [if_pos started, mode]
      unfold ResumeMode.command
      dsimp only
      rw [stepped]
      rfl
    dsimp only [add]
    rw [commanded]
  · rw [d.context_updateContext_self _ known]
    exact walks

end Recorder

theorem Debugger.OnlySteps.started {d : Debugger} (h : d.OnlySteps) : d.isStarted := by
  obtain ⟨session, active, _⟩ := Option.map_eq_some_iff.mp h.unlisted
  rw [isStarted, active]
  rfl

theorem Debugger.Walks.handledWithTicket {d : Debugger} {id : ContextId} {last : Option Position}
    (h : d.Walks id last) (system : Nat) {event : Event} (stays : event.isExit = false) {r : Recorder}
    (mode : r.mode = .step) :
    let handled := handleWithTicket Recorder.frontEnd system id event (d, r)
    handled.1 = .ok () ∧ ∃ last' new, Lands last event.line? last' new ∧
      (handled.2.1.context id).Walks last' ∧
      handled.2.2.records.toList = r.records.toList ++ new.map Record.halt := by
  rw [handleWithTicket_eq]
  dsimp only [Outcome.complete]
  cases line : event.line? with
  | none =>
      obtain ⟨done, walks⟩ := h.dispatch_other system line stays
      rw [done, drive_done]
      refine ⟨rfl, last, [], .stays (.inl rfl), ?_, (List.append_nil _).symm⟩
      rw [context_release]
      exact walks.context
  | some position =>
      have dispatched := h.dispatch_line system line
      by_cases same : last = some position
      · simp only [if_pos same] at dispatched
        rw [dispatched.1, drive_done]
        refine ⟨rfl, last, [], .stays (.inr same.symm), ?_, (List.append_nil _).symm⟩
        rw [context_release]
        exact dispatched.2.context
      · simp only [if_neg same] at dispatched
        obtain ⟨halts, only, known, rests⟩ := dispatched
        obtain ⟨record, d', halted, here, reason, walks⟩ :=
          Recorder.onHalt_rests only.started known rests mode
        have driven := Recorder.drive_halted (d.dispatch system id event).2 r id position system 0
        rw [halted] at driven
        have once : (Outcome.call (.line id position) .resumed).rank = 0 + 1 := rfl
        rw [halts, once, driven]
        subst here
        refine ⟨rfl, _, [record], .halts record same reason, ?_, Array.toList_push⟩
        rw [context_release]
        exact walks

structure Walking (thread : Thread) (last : Option Position) (p : Debugger × Recorder) : Prop where
  quiet : p.1.Quiet
  only : p.1.OnlySteps
  context : ∃ id, p.1.contextOf? thread = some id ∧ (p.1.context id).Walks last
  mode : p.2.mode = .step
  settled : p.2.announced = none

theorem Debugger.arrive_known {d : Debugger} {system : Nat} {thread : Thread}
    (bound : d.host.boundTo? system = some thread) {id : ContextId} (found : d.contextOf? thread = some id)
    (attended : (d.context id).ignored = false) (event : Event) :
    (d.arrive system event).2.context id = d.context id ∧
      (d.arrive system event).1 = if Host.isAllocator event.method then none else some (thread, id) := by
  obtain ⟨session, active, stored⟩ := Option.bind_eq_some_iff.mp found
  have tracked : d.counted.track session thread =
      (id, { d.counted with session := some { session with table := session.table.remember thread id } }) := by
    simp only [track, stored]
  have same : (d.counted.track session thread).2.context id = d.context id := by
    rw [tracked]
    rfl
  rw [arrive_of_bound active bound]
  split
  · exact ⟨rfl, rfl⟩
  · simp only [tracked] at same ⊢
    rw [if_neg (by rw [same, attended]; exact Bool.false_ne_true)]
    exact ⟨same, rfl⟩

theorem Walking.handled {thread : Thread} {last : Option Position} {d : Debugger} {r : Recorder}
    (h : Walking thread last (d, r)) {system : Nat} (bound : d.host.boundTo? system = some thread)
    (alive : d.host.isAlive thread) {event : Event} (stays : event.isExit = false)
    (heard : event.line? ≠ none → Host.isAllocator event.method = false) :
    ∃ last' new after, handleEvent Recorder.frontEnd system event (d, r) = (.finished (.ok ()), after) ∧
      Lands last event.line? last' new ∧ Walking thread last' after ∧
      after.2.records.toList = r.records.toList ++ new.map Record.halt := by
  obtain ⟨id, found, walks⟩ := h.context
  obtain ⟨quiet, done, _⟩ := h.quiet.arrive bound event
  obtain ⟨same, arrived⟩ := d.arrive_known bound found walks.attended event
  have found' := done.found h.quiet.well alive found
  rw [h.quiet.handled_eq bound]
  generalize d.arrive system event = arrival at quiet done same arrived found'
  obtain ⟨who, d₁⟩ := arrival
  have only : d₁.OnlySteps := h.only.of_rules done.rules
  have walks' : (d₁.context id).Walks last := same ▸ walks
  obtain rfl := arrived
  cases allocates : Host.isAllocator event.method with
  | true =>
      -- Nothing of the method that allocates objects is dispatched, and no line is in it.
      have none : event.line? = none := by
        by_contra line
        rw [heard line] at allocates
        cases allocates
      rw [if_pos rfl]
      have walking : Walking thread last (d₁, r) := ⟨quiet, only, ⟨id, found', walks'⟩, h.mode, h.settled⟩
      exact ⟨last, [], _, rfl, .stays (.inl none), walking, (List.append_nil _).symm⟩
  | false =>
      rw [if_neg Bool.false_ne_true]
      have held := d₁.doneFor_hold thread
      have holding : (d₁.hold thread).Walks id last :=
        ⟨only.of_rules held.rules, Nat.lt_of_lt_of_le (quiet.well.known found').1 held.size, walks'⟩
      have handled := quiet.handledWithTicket (done.host ▸ bound) found' stays h.settled
      obtain ⟨result, last', new, lands, walks, records⟩ := holding.handledWithTicket system stays h.mode
      refine ⟨last', new, _, Prod.ext (congrArg Progress.finished result) rfl, lands, ?_, records⟩
      exact ⟨handled.quiet, only.of_rules handled.doneFor.rules,
        ⟨id, handled.doneFor.found quiet.well (done.host ▸ alive) found', walks⟩, handled.mode.trans h.mode,
        handled.announced⟩

end EventDebugger
