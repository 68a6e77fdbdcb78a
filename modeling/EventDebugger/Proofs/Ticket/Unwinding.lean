import EventDebugger.Proofs.Ticket.StepOver

/-!
# Finishing frames of nested code

What is remembered of a frame that is to be finished is its depth. As long as events are nested and the frames
return in order, no other frame returns from that depth, so the context halts on no event before the frame has
returned, and after that on the first line that is not at the position of the last halt.

* `Event.Unwinds`: events with which frames return in order.
* `World.halts_once_finished`: where the context halts.
* `World.halts_finished_on_same_line`: a halt on a line that should not count.
-/

namespace EventDebugger

open CallStack (Becomes Seated)

namespace CallStack

theorem length_unbound (stack : CallStack) : List.length stack.unbound = stack.length := length_modifyTop stack _

theorem openedFor_unbound {stack stack' : CallStack} (same : stack'.unbound = stack.unbound) :
    stack'.map (·.openedFor) = stack.map (·.openedFor) := by
  have own (stack : CallStack) : List.map (·.openedFor) stack.unbound = stack.map (·.openedFor) := by
    cases stack <;> rfl
  rw [← own stack', same, own]

theorem length_popMatching_lt {stack : CallStack} (framed : 0 < stack.length) (method : Option String) :
    (stack.popMatching method).length < stack.length := by
  have kept : (stack.dropWhile fun frame => frame.openedFor != method).length ≤ stack.length :=
    (List.dropWhile_sublist _).length_le
  rw [popMatching, List.length_drop]
  omega

end CallStack

/-! ## Frames that return in order -/

namespace Event

variable {opens : Option TypeRef → Bool → Bool} {methods : List (Option String)}
  {events before after : List Event} {frames base stack stack' : CallStack}

/-- Events with which frames that were opened for some methods return, the innermost one first, each after
nested events. -/
inductive Unwinds (opens : Option TypeRef → Bool → Bool) : List (Option String) → List Event → Prop where
  | nil : Unwinds opens [] []
  | frame {method : Option String} {methods : List (Option String)} {body events : List Event} {closing : Event}
      (nested : Balanced body) (returns : closing.returns opens) (same : closing.method = method)
      (outer : Unwinds opens methods events) : Unwinds opens (method :: methods) (body ++ closing :: events)

theorem reshape_seated {closing : Event} {method : Option String} {rest : CallStack}
    (returns : closing.returns opens) (same : closing.method = method) (seated : Seated method rest stack) :
    closing.reshape opens stack = rest := by
  rw [reshape_of_returns returns, same, seated.popMatching]

theorem Unwinds.above (h : Unwinds opens methods events) (opened : frames.map (·.openedFor) = methods)
    (split : before ++ after = events) (remains : after ≠ [])
    (becomes : Becomes opens before (frames ++ base) stack') : base.length < stack'.length := by
  induction h generalizing frames before with
  | nil => exact absurd (List.append_eq_nil_iff.mp split).2 remains
  | @frame method methods body events closing nested returns same outer ih =>
      obtain ⟨frame, inner, rfl, rfl, outside⟩ := List.map_eq_cons_iff.mp opened
      have seated : Seated frame.openedFor (inner ++ base) (frame :: (inner ++ base)) := ⟨frame, rfl, rfl⟩
      have within {front later : List Event} (part : front ++ later = body)
          (becomes : Becomes opens front (frame :: (inner ++ base)) stack') : base.length < stack'.length := by
        obtain ⟨framed, suffix⟩ := nested.above part seated becomes
        have deeper := suffix.length_le
        rw [List.length_append, List.length_tail] at deeper
        have := List.length_pos_iff.mpr framed
        omega
      rcases List.append_eq_append_iff.mp split with ⟨later, part, -⟩ | ⟨front, rfl, part⟩
      · exact within part.symm becomes
      · cases front with
        | nil => exact within (List.append_nil body) (List.append_nil body ▸ becomes)
        | cons closing' front =>
            obtain ⟨rfl, tail⟩ := List.cons.inj part
            obtain ⟨met, first, met', again, second⟩ := CallStack.Becomes.append_iff.mp becomes
            rw [reshape_seated returns same ((nested.seated seated first).rebound again)] at second
            exact ih outside tail.symm second

theorem Unwinds.last (h : Unwinds opens methods events) (opened : frames.map (·.openedFor) = methods)
    (some : methods ≠ []) (base : CallStack) : ∃ front closing, events = front ++ [closing] ∧ closing.returns opens ∧
      ∀ {stack'}, Becomes opens front (frames ++ base) stack' → stack'.length = base.length + 1 := by
  induction h generalizing frames with
  | nil => exact absurd rfl some
  | @frame method methods body events closing nested returns same outer ih =>
      obtain ⟨frame, inner, rfl, rfl, outside⟩ := List.map_eq_cons_iff.mp opened
      have seated : Seated frame.openedFor (inner ++ base) (frame :: (inner ++ base)) := ⟨frame, rfl, rfl⟩
      cases outer with
      | nil =>
          obtain rfl := List.map_eq_nil_iff.mp outside
          refine ⟨body, closing, rfl, returns, fun {stack'} becomes => ?_⟩
          obtain ⟨top, rfl, _⟩ := nested.seated seated becomes
          rfl
      | frame =>
          obtain ⟨front, last, whole, closes, depth⟩ := ih outside (List.cons_ne_nil _ _)
          refine ⟨body ++ closing :: front, last, ?_, closes, fun {stack'} becomes => ?_⟩
          · rw [whole, List.append_assoc, List.cons_append]
          obtain ⟨met, first, met', again, second⟩ := CallStack.Becomes.append_iff.mp becomes
          rw [reshape_seated returns same ((nested.seated seated first).rebound again)] at second
          exact depth second

theorem line?_of_returns {event : Event} (returns : event.returns opens) : event.line? = none := by
  unfold line?
  split
  · next kind =>
      rw [Event.returns, kind] at returns
      cases returns
  · rfl

end Event

/-! ## Contexts -/

namespace Context

def Awaits (depth : Nat) (last : Option Position) (context : Context) : Prop :=
  context.pace = (false, false, false, .off, .off, none, some depth, last)

/-- No step and no step over is armed. -/
structure AtRest (context : Context) : Prop where
  next : context.stopNext = .off
  line : context.stopLine = .off
  anywhere : context.targetDepth = none

namespace Awaits

variable {depth : Nat} {last : Option Position} {context context' : Context} (h : context.Awaits depth last)
include h

theorem heeded : context.skipped = false := congrArg (·.1) h

theorem live : context.dead = false := congrArg (·.2.1) h

theorem last_eq : context.lastPosition = last := congrArg (·.2.2.2.2.2.2.2) h

theorem finish : context.finishDepth = some depth := congrArg (·.2.2.2.2.2.2.1) h

theorem of_pace (same : context'.pace = context.pace) : context'.Awaits depth last := same.trans h

theorem countLine (moved : Bool) : (context.countLine moved).Awaits depth last := by
  have pace := h
  simp only [Awaits, Context.pace, Prod.mk.injEq] at pace
  simp only [Context.countLine, pace, tickSteps, Countdown.tick_off, ite_self]
  exact h.of_pace (by simp only [Context.pace, pace])

theorem not_due : context.isStepDue = false := by
  have next : context.stopNext = .off := congrArg (·.2.2.2.1) h
  have line : context.stopLine = .off := congrArg (·.2.2.2.2.1) h
  rw [isStepDue, next, line]
  rfl

theorem savePosition : ∃ last, context.savePosition.Awaits depth last := by
  have pace := h
  simp only [Awaits, Context.pace, Prod.mk.injEq] at pace
  unfold Context.savePosition
  split
  · exact ⟨last, h⟩
  · next frame _ _ => exact ⟨some frame.position, by simp only [Awaits, Context.pace, pace]⟩

theorem seeing_away {opens : Option TypeRef → Bool → Bool} {event : Event}
    (away : event.returns opens → context.depth ≠ depth) : (context.seeing opens event).Awaits depth last := by
  unfold seeing
  dsimp only
  split
  · next returns =>
      apply h.of_pace
      unfold returnFrom
      rw [if_neg]
      · rfl
      · rw [show (context.noteEvent event.position event.kind.isLine).finishDepth = some depth from h.finish,
          Option.some.injEq]
        exact Ne.symm (away returns)
  · exact h

theorem seeing_return {opens : Option TypeRef → Bool → Bool} {event : Event} (returns : event.returns opens)
    (here : context.depth = depth) : (context.seeing opens event).CountsDown 1 false last := by
  have pace := h
  simp only [Awaits, Context.pace, Prod.mk.injEq] at pace
  have due : (context.noteEvent event.position event.kind.isLine).finishDepth =
      some (context.noteEvent event.position event.kind.isLine).depth := h.finish.trans (congrArg some here.symm)
  simp only [seeing, returns, if_true, returnFrom, due]
  simp only [CountsDown, Context.pace, noteEvent, pace]

end Awaits

end Context

/-! ## Events -/

namespace Debugger

variable {d : Debugger} {system : Nat} {id : ContextId} {event : Event} {depth : Nat} {last : Option Position}
  (known : id < d.contexts.size)
include known

theorem depth_lt_of_returns (system : Nat) (heeded : (d.context id).skipped = false)
    (returns : event.returns d.opensNativeFrame) (framed : 0 < (d.context id).depth) :
    ((d.dispatch system id event).2.context id).depth < (d.context id).depth := by
  have same := congrArg List.length (unbound_dispatch system known heeded event)
  rw [Event.reshape_of_returns returns, CallStack.length_unbound, CallStack.length_unbound] at same
  rw [Context.depth, same]
  exact CallStack.length_popMatching_lt framed event.method

theorem awaits_away (h : (d.context id).Awaits depth last) (ignores : d.Ignores system id event)
    (away : event.returns d.opensNativeFrame → (d.context id).depth ≠ depth) :
    (d.dispatch system id event).1 = .done ∧ ((d.dispatch system id event).2.context id).Awaits depth last := by
  cases line : event.line? with
  | none =>
      obtain ⟨done, gait⟩ := ignores.dismisses.dispatch_other known h.heeded line
      refine ⟨done, (h.seeing_away away).of_pace (Context.pace_eq gait ?_)⟩
      exact (d.traits_dispatch system id event known).trans (Context.traits_seeing _ _ _).symm
  | some position =>
      have placed : ((d.placed system id event position).context id).Awaits depth last :=
        h.of_pace (pace_placed known system event position)
      have counted := placed.countLine (decide ((d.context id).lastPosition ≠ some position))
      have touches := d.touches_placed system id event position
      have known' := Nat.lt_of_lt_of_le known touches.size
      obtain ⟨done, gait⟩ := checkLine_undue known' counted.not_due (ignores.dismisses.fails_line line)
      rw [dispatch_checks known h.heeded ignores.untraced line]
      refine ⟨done, counted.of_pace (Context.pace_eq gait ?_)⟩
      exact ((touches_checkLine _ system id position event.receiver _).traits id known').trans
        (Context.traits_countLine _ _).symm

theorem awaits_return (h : (d.context id).Awaits depth last) (ignores : d.Ignores system id event)
    (returns : event.returns d.opensNativeFrame) (here : (d.context id).depth = depth) :
    (d.dispatch system id event).1 = .done ∧
      (d.dispatch system id event).2.CountsDown id 1 false last := by
  obtain ⟨done, gait⟩ := ignores.dismisses.dispatch_other known h.heeded (Event.line?_of_returns returns)
  have size := (d.lodges_dispatch system id event).size
  refine ⟨done, Nat.lt_of_lt_of_le known size, (h.seeing_return returns here).of_pace (Context.pace_eq gait ?_)⟩
  exact (d.traits_dispatch system id event known).trans (Context.traits_seeing _ _ _).symm

omit known

theorem serve_stopFrame (active : d.isStarted) (s : Nat) (id : ContextId) {frame : Nat}
    (valid : frame < (d.context id).depth) :
    (Request.context id (.stopFrame frame)).serve s d =
      d.updateContext id fun _ => { d.context id with finishDepth := some ((d.context id).depth - frame) } := by
  have chosen : Context.checkFrame (frame : Int) (d.context id).depth = .ok frame := by
    rw [Context.checkFrame, if_neg (by omega), if_neg (by omega), Int.toNat_natCast]
  have commanded : d.command id (·.stopFrame frame) = .ok (d.updateContext id fun _ =>
      { d.context id with finishDepth := some ((d.context id).depth - frame) }) := by
    simp only [command, inspect, active, if_true, Context.stopFrame, chosen]
    rfl
  have served := Script.Attempt.debugger_map (Script.Attempt.perform fun d => d.command id (·.stopFrame frame))
    (fun _ => Script.Reply.done) d (.initial [])
  rw [Script.Attempt.debugger_perform, commanded] at served
  exact served

end Debugger

namespace World

variable {w w' w₀ w₁ w₂ w₃ w₄ : World} {s : Nat} {move : Move} {id : ContextId} {depth : Nat}
  {last : Option Position} {methods : List (Option String)} {events unwinding : List Event}

structure Awaiting (id : ContextId) (depth : Nat) (last : Option Position) (w : World) : Prop where
  known : id < w.debugger.contexts.size
  awaits : (w.debugger.context id).Awaits depth last
  unreported : w.Unreported id

theorem neutral_awaits (depth : Nat) (last : Option Position) : Neutral (Context.Awaits depth last) :=
  ⟨fun h _ _ _ _ _ => h, fun _ _ _ h => h⟩

theorem Awaiting.step (h : w.Awaiting id depth last) (step : w.Step s move w') (ok : w.Undisturbed id s move)
    (positive : 0 < depth) (kept : depth ≤ (w'.debugger.context id).depth) :
    w'.Awaiting id depth last ∧ ¬ w.Halts s move w' id := by
  cases step.regards h.known ok.continues with
  | event tasks stage own is =>
      subst own is
      rename_i task rest event
      have takes : w.takes s .dispatch task.context = [event] := by rw [takes_eq tasks stage, if_pos rfl]
      have ignores := ok.ignores event (takes ▸ List.mem_singleton_self event)
      obtain ⟨done, awaits⟩ := Debugger.awaits_away h.known h.awaits ignores fun returns here => by
        have fewer := Debugger.depth_lt_of_returns h.known s h.awaits.heeded returns (here ▸ positive)
        exact Nat.not_le_of_lt (here ▸ fewer) kept
      exact ⟨⟨step.known h.known, awaits, h.unreported.proceed tasks fun _ => done⟩, not_halts_of_done step rfl done⟩
  | answer tasks stage own is =>
      subst own is
      obtain rfl := h.unreported s _ (mem_innermost tasks) rfl stage
      exact ⟨⟨h.known, h.awaits, h.unreported.proceed tasks fun _ => rfl⟩, not_halts_of_done step rfl rfl⟩
  | apart none silent keeps called =>
      exact ⟨⟨step.known h.known, keeps (neutral_awaits depth last) h.awaits, h.unreported.apart called⟩, silent⟩

theorem Awaiting.returns (h : w.Awaiting id depth last) (step : w.Step s move w') (ok : w.Undisturbed id s move)
    {event : Event} (takes : w.takes s move id = [event]) (returns : event.returns w.debugger.opensNativeFrame)
    (here : (w.debugger.context id).depth = depth) :
    w'.Counting id 1 false last ∧ ¬ w.Halts s move w' id := by
  have ignores := ok.ignores event (takes ▸ List.mem_singleton_self event)
  cases step.regards h.known ok.continues with
  | event tasks stage own is =>
      subst own is
      rw [takes_eq tasks stage, if_pos rfl] at takes
      cases takes
      obtain ⟨done, counts⟩ := Debugger.awaits_return h.known h.awaits ignores returns here
      exact ⟨⟨counts, h.unreported.proceed tasks fun _ => done⟩, not_halts_of_done step rfl done⟩
  | answer => cases takes
  | apart none => cases none.symm.trans takes

theorem unwinding_step {frames base : CallStack} (opened : frames.map (·.openedFor) = methods) (some : methods ≠ [])
    (unwinds : Event.Unwinds w₂.debugger.opensNativeFrame methods unwinding)
    (stack : (w₂.debugger.context id).stack = frames ++ base) (known : id < w₂.debugger.contexts.size)
    (heeded : (w₂.debugger.context id).skipped = false) (passes : Passes (Undisturbed id) id w₂ events w)
    (step : w.Step s move w') (ok : w.Undisturbed id s move) (part : events ++ w.takes s move id <+: unwinding)
    (waits : if events = unwinding then w.Counting id 1 false last else w.Awaiting id (base.length + 1) last) :
    (if events ++ w.takes s move id = unwinding then w'.Counting id 1 false last
        else w'.Awaiting id (base.length + 1) last) ∧ ¬ w.Halts s move w' id := by
  have becomes := passes.becomes known heeded
  have becomes' := (passes.step step ok).becomes known heeded
  rw [stack] at becomes becomes'
  split at waits
  · next complete =>
      -- All has returned, so the step takes no more of these events.
      have none : w.takes s move id = [] := by
        rw [complete] at part
        exact List.append_right_eq_self.mp (part.eq_of_length_le (by simp))
      rw [none, List.append_nil, if_pos complete]
      exact waits.step step ok (by rw [none, List.countP_nil])
  · next going =>
      obtain ⟨later, split⟩ := part
      cases later with
      | cons event later =>
          have proper : events ++ w.takes s move id ≠ unwinding := fun same => by
            rw [same] at split
            exact List.cons_ne_nil _ _ (List.append_right_eq_self.mp split)
          rw [if_neg proper]
          exact waits.step step ok (Nat.succ_pos _)
            (unwinds.above opened split (List.cons_ne_nil _ _) becomes')
      | nil =>
          rw [List.append_nil] at split
          rw [if_pos split]
          obtain ⟨front, closing, whole, returns, depth⟩ := unwinds.last opened some base
          have takes : events = front ∧ w.takes s move id = [closing] := by
            rcases w.takes_eq_nil_or s move id with none | ⟨event, takes⟩
            · rw [none, List.append_nil] at split
              exact absurd split going
            · rw [takes, whole] at split
              obtain ⟨same, last⟩ := List.append_inj' split rfl
              exact ⟨same, takes.trans last⟩
          obtain ⟨rfl, takes⟩ := takes
          exact waits.returns step ok takes (passes.opens ▸ returns) (depth becomes)

theorem Passes.finishing {frames base : CallStack} (passes : Passes (Undisturbed id) id w₂ events w)
    (opened : frames.map (·.openedFor) = methods) (some : methods ≠ [])
    (unwinds : Event.Unwinds w₂.debugger.opensNativeFrame methods unwinding)
    (stack : (w₂.debugger.context id).stack = frames ++ base) (awaiting : w₂.Awaiting id (base.length + 1) last)
    (part : events <+: unwinding) :
    if events = unwinding then w.Counting id 1 false last else w.Awaiting id (base.length + 1) last := by
  induction passes with
  | refl =>
      obtain ⟨front, closing, whole, _⟩ := unwinds.last opened some base
      rw [if_neg]
      · exact awaiting
      · rw [whole]
        exact (List.append_ne_nil_of_right_ne_nil front (List.cons_ne_nil _ _)).symm
  | step passes next ok ih =>
      have before := ih ((List.prefix_append _ _).trans part)
      exact (unwinding_step opened some unwinds stack awaiting.known awaiting.awaits.heeded passes next ok part
        before).1

theorem Counting.halts_iff (h : w.Counting id 1 false last) (step : w.Step s move w') (ok : w.Undisturbed id s move) :
    (w.Halts s move w' id ↔ ∃ event, w.takes s move id = [event] ∧ event.counts false last) ∧
      (w.Halts s move w' id → ∃ event position, w.takes s move id = [event] ∧ event.position = some position ∧
        (w'.tasks s).head?.map (·.stage) = some (.called (.line id position) .resumed) ∧
        (w'.debugger.context id).stopReason = .step ∧ (w'.debugger.context id).Disarmed) := by
  by_cases due : ∃ event, w.takes s move id = [event] ∧ event.counts false last
  · obtain ⟨event, takes, counts⟩ := due
    obtain ⟨halts, position, at', called, reason, disarmed⟩ := h.halts step ok takes counts
    exact ⟨⟨fun _ => ⟨event, takes, counts⟩, fun _ => halts⟩,
      fun _ => ⟨event, position, takes, at', called, reason, disarmed⟩⟩
  · have silent : ¬ w.Halts s move w' id := by
      refine (h.step step ok (m := 0) ?_).2
      rcases w.takes_eq_nil_or s move id with none | ⟨event, takes⟩
      · rw [none, List.countP_nil]
      · have uncounted : event.counts false last = false := by
          rw [← Bool.not_eq_true]
          exact fun counts => due ⟨event, takes, counts⟩
        rw [takes, List.countP_singleton, uncounted]
        rfl
    exact ⟨⟨fun halts => absurd halts silent, fun is => absurd is due⟩, fun halts => absurd halts silent⟩

/-! ## The command -/

theorem Passes.remains {P : Context → Prop} (passes : Passes (Continues id) id w [] w') (neutral : Neutral P)
    (lasting : Context.Lasting P) (known : id < w.debugger.contexts.size) :
    Debugger.Preserves P id w.debugger w'.debugger := by
  generalize none : ([] : List Event) = events at passes
  induction passes with
  | refl => exact fun holds => holds
  | @step before after events s move passes next ok ih =>
      obtain ⟨rfl, takes⟩ := List.append_eq_nil_iff.mp none.symm
      apply (ih rfl).trans
      cases next.regards (passes.known known) ok with
      | event tasks stage own is =>
          rw [takes_eq tasks stage, if_pos own] at takes
          cases takes
      | answer tasks stage own is =>
          rw [is]
          exact Debugger.lasting_run _ s lasting _
      | apart _ _ keeps _ => exact keeps neutral

theorem lasting_awaits (depth : Nat) : Context.Lasting fun context => ∃ last, context.Awaits depth last where
  binds h _ := h
  marks h _ _ := h
  counts h moved := h.imp fun _ awaits => awaits.countLine moved
  clears := by
    rintro context ⟨last, awaits⟩
    simp only [Context.Awaits, Context.pace, Prod.mk.injEq] at awaits
    exact ⟨last, by simp only [Context.Awaits, Context.pace, Context.clearSteps, awaits]⟩
  saves := by
    rintro context ⟨last, awaits⟩
    exact awaits.savePosition

theorem neutral_someAwaits (depth : Nat) : Neutral fun context => ∃ last, context.Awaits depth last :=
  ⟨fun h _ _ _ _ _ => h, fun _ _ _ h => h⟩

theorem context_of_told (active : w.debugger.isStarted) (known : id < w.debugger.contexts.size) {frame : Nat}
    (valid : frame < (w.debugger.context id).depth) {s₁ : Nat}
    (told : w.Step s₁ (.request (.context id (.stopFrame frame))) w₁) :
    w₁.debugger.context id =
        { w.debugger.context id with finishDepth := some ((w.debugger.context id).depth - frame) } ∧
      w₁.tasks = w.tasks := by
  cases told with
  | request _ free =>
      refine ⟨?_, rfl⟩
      change ((Request.context id (.stopFrame frame)).serve s₁ w.debugger).context id = _
      rw [Debugger.serve_stopFrame active s₁ id valid, Debugger.context_updateContext_self _ _ known]

theorem awaiting_of_told (active : w.debugger.isStarted) (known : id < w.debugger.contexts.size)
    (live : (w.debugger.context id).dead = false) (heeded : (w.debugger.context id).skipped = false)
    (rests : (w.debugger.context id).AtRest) (unforced : (w.debugger.context id).forced = false) {frame : Nat}
    (valid : frame < (w.debugger.context id).depth) {s₁ : Nat}
    (told : w.Step s₁ (.request (.context id (.stopFrame frame))) w₁) (rest : Passes (Continues id) id w₁ [] w₂) :
    id < w₂.debugger.contexts.size ∧
      (∃ last, (w₂.debugger.context id).Awaits ((w.debugger.context id).depth - frame) last) ∧
      (w₂.debugger.context id).stack.unbound = (w.debugger.context id).stack.unbound := by
  obtain ⟨context, -⟩ := context_of_told active known valid told
  have known₁ : id < w₁.debugger.contexts.size := told.known known
  have awaits : (w₁.debugger.context id).Awaits ((w.debugger.context id).depth - frame)
      (w.debugger.context id).lastPosition := by
    rw [context]
    simp only [Context.Awaits, Context.pace, live, heeded, unforced, rests.next, rests.line, rests.anywhere]
  have unbound := rest.becomes known₁ (by rw [context]; exact heeded)
  refine ⟨rest.known known₁, rest.remains (neutral_someAwaits _) (lasting_awaits _) known₁ ⟨_, awaits⟩, ?_⟩
  rw [CallStack.Becomes, context] at unbound
  exact unbound

/-- A context that was told to finish a frame halts on no event before the frame has returned, if events are
nested and frames return in order, and after that on the first line that is not at the position of its last
halt. What was on its way at the command is over before. -/
theorem halts_once_finished (idle : ∀ s, w₀.tasks s = []) (own : w₀.debugger.host.OwnThreads)
    (tracked : w₀.debugger.WellTracked) (fresh : (w₀.debugger.context id).lastPosition = none)
    (active : w.debugger.isStarted) (known : id < w.debugger.contexts.size)
    (live : (w.debugger.context id).dead = false) (heeded : (w.debugger.context id).skipped = false)
    (rests : (w.debugger.context id).AtRest) (unforced : (w.debugger.context id).forced = false) (frame : Nat)
    (valid : frame < (w.debugger.context id).depth) {s₁ : Nat}
    (told : w.Step s₁ (.request (.context id (.stopFrame frame))) w₁) (rest : Passes (Continues id) id w₁ [] w₂)
    (unreported : w₂.Unreported id) (halted : LastHalt (fun w s => ¬ w.ReportsUnframed s) id w₀ w₂ last)
    (unwinds : Event.Unwinds w₂.debugger.opensNativeFrame
      (((w.debugger.context id).stack.take (frame + 1)).map (·.openedFor)) unwinding)
    (passes : Passes (Undisturbed id) id w₂ events w₃) (step : w₃.Step s move w₄)
    (ok : w₃.Undisturbed id s move) :
    (events ++ w₃.takes s move id <+: unwinding → ¬ w₃.Halts s move w₄ id) ∧
      ∀ later, events = unwinding ++ later → later.countP (·.counts false last) = 0 →
        (w₃.Halts s move w₄ id ↔ ∃ event, w₃.takes s move id = [event] ∧ event.counts false last) ∧
          (w₃.Halts s move w₄ id → ∃ event position, w₃.takes s move id = [event] ∧
            event.position = some position ∧
            (w₄.tasks s).head?.map (·.stage) = some (.called (.line id position) .resumed) ∧
            (w₄.debugger.context id).stopReason = .step ∧ (w₄.debugger.context id).Disarmed) := by
  obtain ⟨known₂, ⟨saved, awaits⟩, unbound⟩ :=
    awaiting_of_told active known live heeded rests unforced valid told rest
  obtain rfl : saved = last := by
    have keeps := (halted.position idle own tracked fresh).resolve_left (by rw [awaits.live]; nofun)
    exact awaits.last_eq.symm.trans keeps
  -- The frames up to the one to be finished, and those below it.
  have opened := CallStack.openedFor_unbound unbound
  have size := congrArg List.length opened
  simp only [List.length_map] at size
  rw [List.map_take, ← opened, ← List.map_take] at unwinds
  have stack := (List.take_append_drop (frame + 1) (w₂.debugger.context id).stack).symm
  have below : ((w₂.debugger.context id).stack.drop (frame + 1)).length + 1 =
      (w.debugger.context id).depth - frame := by
    rw [List.length_drop, size]
    change (w.debugger.context id).depth - (frame + 1) + 1 = _
    omega
  have some : ((w₂.debugger.context id).stack.take (frame + 1)).map (·.openedFor) ≠ [] := by
    intro none
    have length := congrArg List.length none
    rw [List.length_map, List.length_take, size, List.length_nil] at length
    change min (frame + 1) (w.debugger.context id).depth = 0 at length
    omega
  have awaiting : w₂.Awaiting id (((w₂.debugger.context id).stack.drop (frame + 1)).length + 1) saved :=
    ⟨known₂, below ▸ awaits, unreported⟩
  constructor
  · intro part
    have before := passes.finishing rfl some unwinds stack awaiting ((List.prefix_append _ _).trans part)
    exact (unwinding_step rfl some unwinds stack known₂ awaits.heeded passes step ok part before).2
  · rintro later rfl uncounted
    obtain ⟨met, first, second⟩ := passes.split
    have counting := first.finishing rfl some unwinds stack awaiting (List.prefix_refl _)
    rw [if_pos rfl] at counting
    have now := second.counting counting (m := 0) (by rw [uncounted])
    exact now.halts_iff step ok

/-! ## A method that calls itself -/

def toInner : List Move :=
  [.request (.debugger .start)] ++ Move.ofEvent (lineOf 1) ++ Move.ofEvent (entryOf 5) ++
    [.request (.context 0 (.step 1 false)), .arrive (lineOf 6), .ask]

def beforeInner : World := unstarted.afterwards (ofFirst toInner)

def onInner : World := beforeInner.afterwards (ofFirst [.dispatch])

def toldToFinish (w : World) : World := w.become ((Request.context 0 (.stopFrame 0)).serve 0 w.debugger)

def returning : List Event :=
  [eventOf .call "f" 5, eventOf .return "f" 8, lineOf 7, eventOf .return "f" 8]

def beforeOuter : World :=
  (toldToFinish onInner).afterwards
    (ofFirst ([.answer, .release] ++ returning.flatMap Move.ofEvent ++ [.arrive (lineOf 2), .ask]))

theorem unwinds_returning (opens : Option TypeRef → Bool → Bool) :
    Event.Unwinds opens [some "f"] returning := by
  have closes : Event.Closes (eventOf .call "f" 5) (eventOf .return "f" 8) := .call rfl rfl rfl
  have call : Event.Balanced [eventOf .call "f" 5, eventOf .return "f" 8] := .block closes rfl .nil
  have line : Event.Balanced [lineOf 7] := .inner rfl rfl
  exact .frame (call.append line) rfl rfl .nil

theorem halts_in_caller_of_nested :
    let w' := beforeOuter.afterwards (ofFirst [.dispatch])
    (onInner.debugger.context 0).depth = 2 ∧
      Passes (Undisturbed 0) 0 (toldToFinish onInner) returning beforeOuter ∧ beforeOuter.Halts 0 .dispatch w' 0 ∧
      (w'.debugger.context 0).depth = 1 ∧ (w'.debugger.context 0).stopReason = .step := by
  have before : Course Plain unstarted beforeInner := course_of_follow? (ofFirst toInner) rfl
  have halts : beforeInner.Halts 0 .dispatch onInner 0 :=
    ⟨step_of_perform? rfl, rfl, _, rfl, ⟨"a.rb", 6⟩, .resumed, rfl⟩
  have framed : ¬ beforeInner.ReportsUnframed 0 := by
    rintro ⟨task, first, _, _, stage, _⟩
    cases first
    cases stage
  have told : onInner.Step 0 (.request (.context 0 (.stopFrame 0))) (toldToFinish onInner) :=
    .request _ (by rintro _ ⟨⟩; rfl)
  have silent : Silent 0 onInner 0 (.move (.request (.context 0 (.stopFrame 0)))) := by
    rintro move w' ⟨⟩ halts
    cases halts.dispatches
  have halted : LastHalt (fun w s => ¬ w.ReportsUnframed s) 0 unstarted (toldToFinish onInner) (some ⟨"a.rb", 6⟩) :=
    .once before halts framed rfl rfl ((Course.refl _).step (.move told) silent)
  have passes : Passes (Undisturbed 0) 0 (toldToFinish onInner) returning beforeOuter := by
    have none : Passes (Undisturbed 0) 0 (toldToFinish onInner) [] (toldToFinish onInner) := .refl
    have followed : (toldToFinish onInner).follow? (Ignored 0) (ofFirst ([.answer, .release] ++
      returning.flatMap Move.ofEvent ++ [.arrive (lineOf 2), .ask])) = some beforeOuter := rfl
    exact none.follow _ (fun _ _ _ => undisturbed_of_ignored) followed
  have last : beforeOuter.Step 0 .dispatch (beforeOuter.afterwards (ofFirst [.dispatch])) := step_of_perform? rfl
  have finished := halts_once_finished (fun _ => rfl) Host.ownThreads_initial (.of_ended rfl) rfl rfl (by decide) rfl
    rfl ⟨rfl, rfl, rfl⟩ rfl 0 (by decide) told .refl (.of_halted rfl rfl fun _ => rfl) halted
    (unwinds_returning _) passes last (undisturbed_of_ignored (by decide))
  have now := (finished.2 [] (List.append_nil _).symm rfl).1.mpr ⟨lineOf 2, rfl, by decide⟩
  exact ⟨rfl, passes, now, rfl, rfl⟩

/-! ## A line that does not count -/

def calledAfterRaise : World :=
  (haltedOnRaise []).afterwards (ofFirst ([.answer, .release] ++ Move.ofEvent (entryOf 5)))

def beforeOuterRaise : World :=
  (toldToFinish calledAfterRaise).afterwards
    (ofFirst (Move.ofEvent (eventOf .return "f" 7) ++ [.arrive (lineOf 2), .ask]))

/-- The thread halts again at the position of its last halt, where no line counts. -/
theorem halts_finished_on_same_line :
    let w := calledAfterRaise
    let w' := beforeOuterRaise.afterwards (ofFirst [.dispatch])
    w.debugger.isStarted ∧ (w.debugger.context 0).dead = false ∧ (w.debugger.context 0).AtRest ∧
      (w.debugger.context 0).forced = false ∧ (w.debugger.context 0).stack.map (·.openedFor) = [some "f"] ∧
      w.Step 0 (.request (.context 0 (.stopFrame 0))) (toldToFinish w) ∧ (toldToFinish w).Unreported 0 ∧
      LastHalt (fun _ _ => True) 0 unstarted (toldToFinish w) (some ⟨"a.rb", 2⟩) ∧
      Event.Unwinds (toldToFinish w).debugger.opensNativeFrame [some "f"] [eventOf .return "f" 7] ∧
      Passes (Undisturbed 0) 0 (toldToFinish w) [eventOf .return "f" 7] beforeOuterRaise ∧
      beforeOuterRaise.Step 0 .dispatch w' ∧ beforeOuterRaise.Undisturbed 0 0 .dispatch ∧
      beforeOuterRaise.takes 0 .dispatch 0 = [lineOf 2] ∧
      (lineOf 2).counts false (some ⟨"a.rb", 2⟩) = false ∧ beforeOuterRaise.Halts 0 .dispatch w' 0 := by
  have before : Course Plain unstarted (toldOf []) := course_of_follow? (catching []) rfl
  have told : calledAfterRaise.Step 0 (.request (.context 0 (.stopFrame 0))) (toldToFinish calledAfterRaise) :=
    .request _ (by rintro _ ⟨⟩)
  have since : Course (Silent 0) (haltedOnRaise []) (toldToFinish calledAfterRaise) := by
    have quiet : Course (CallsNoLine 0) (haltedOnRaise []) (toldToFinish calledAfterRaise) :=
      course_of_follow? (ofFirst ([.answer, .release] ++ Move.ofEvent (entryOf 5) ++
        [.request (.context 0 (.stopFrame 0))])) rfl
    exact quiet.mono silent_of_callsNoLine
  have halted : LastHalt (fun _ _ => True) 0 unstarted (toldToFinish calledAfterRaise) (some ⟨"a.rb", 2⟩) :=
    .once before (halts_raise rfl rfl) trivial rfl rfl since
  have unreported : (toldToFinish calledAfterRaise).Unreported 0 := by
    intro s task member
    cases s <;> cases member
  have passes : Passes (Undisturbed 0) 0 (toldToFinish calledAfterRaise) [eventOf .return "f" 7] beforeOuterRaise := by
    have none : Passes (Undisturbed 0) 0 (toldToFinish calledAfterRaise) [] _ := .refl
    have followed : (toldToFinish calledAfterRaise).follow? (Ignored 0) (ofFirst (Move.ofEvent
      (eventOf .return "f" 7) ++ [.arrive (lineOf 2), .ask])) = some beforeOuterRaise := rfl
    exact none.follow _ (fun _ _ _ => undisturbed_of_ignored) followed
  have last : beforeOuterRaise.Step 0 .dispatch (beforeOuterRaise.afterwards (ofFirst [.dispatch])) :=
    step_of_perform? rfl
  exact ⟨rfl, rfl, ⟨rfl, rfl, rfl⟩, rfl, rfl, told, unreported, halted, .frame .nil rfl rfl .nil, passes, last,
    undisturbed_of_ignored (by decide), rfl, rfl, last, rfl, _, rfl, ⟨"a.rb", 2⟩, .resumed, rfl⟩

end World

end EventDebugger
