import EventDebugger.Proofs.Ticket.Gait

/-!
# Counting lines

A context that was told to make steps counts the lines that are not at the position of its last halt, or all
of them if it was told so. The one with which no step remains halts; no other event does, unless for a
breakpoint or an exception.

* `Debugger.CountsDown.dispatch`: an event that does not halt.
* `Debugger.CountsDown.halts`: the line that is due.
-/

namespace EventDebugger

/-- Whether an event is a line that counts for armed steps, where the last halt was at a position. -/
def Event.counts (force : Bool) (last : Option Position) (event : Event) : Bool :=
  event.line?.any fun position => decide (last ≠ some position) || force

def Context.pace (context : Context) :
    Bool × Bool × Bool × Countdown × Countdown × Option Nat × Option Nat × Option Position :=
  (context.skipped, context.dead, context.forced, context.stopNext, context.stopLine, context.targetDepth,
    context.finishDepth, context.lastPosition)

theorem Context.pace_eq {context context' : Context} (same : context'.gait = context.gait)
    (lasting : context'.traits = context.traits) : context'.pace = context.pace := by
  simp only [gait, steps, traits, Prod.mk.injEq] at same lasting
  simp only [pace, same, lasting]

theorem Context.pace_seeing {context : Context} (opens : Option TypeRef → Bool → Bool) (event : Event)
    (unfinished : context.finishDepth ≠ some context.depth) :
    (context.seeing opens event).pace = context.pace := by
  unfold seeing
  dsimp only
  split
  · unfold returnFrom
    rw [if_neg (by exact unfinished)]
    rfl
  · rfl

theorem Context.traits_seeing (opens : Option TypeRef → Bool → Bool) (event : Event) (context : Context) :
    (context.seeing opens event).traits = context.traits := by
  unfold seeing
  dsimp only
  split
  · exact traits_returnFrom event.method _
  · rfl

def Context.CountsDown (n : Nat) (force : Bool) (last : Option Position) (context : Context) : Prop :=
  context.pace = (false, false, force, .armed n, .off, none, none, last)

namespace Context.CountsDown

variable {n : Nat} {force : Bool} {last : Option Position} {context context' : Context}
  (h : context.CountsDown n force last)
include h

theorem of_pace (same : context'.pace = context.pace) : context'.CountsDown n force last := same.trans h

theorem heeded : context.skipped = false := congrArg (·.1) h

theorem live : context.dead = false := congrArg (·.2.1) h

theorem forced_eq : context.forced = force := congrArg (·.2.2.1) h

theorem next : context.stopNext = .armed n := congrArg (·.2.2.2.1) h

theorem line : context.stopLine = .off := congrArg (·.2.2.2.2.1) h

theorem anywhere : context.targetDepth = none := congrArg (·.2.2.2.2.2.1) h

theorem unfinished : context.finishDepth = none := congrArg (·.2.2.2.2.2.2.1) h

theorem last_eq : context.lastPosition = last := congrArg (·.2.2.2.2.2.2.2) h

theorem isStepDue : context.isStepDue = (n == 0) := by
  simp only [Context.isStepDue, h.next, h.line, Countdown.isDue_armed]
  exact Bool.or_false _

omit h in
theorem countLine (h : context.CountsDown (n + 1) force last) (moved : Bool) :
    (context.countLine moved).CountsDown (if moved || force then n else n + 1) force last := by
  simp only [Context.countLine, h.anywhere, tickSteps, h.forced_eq, h.line, Countdown.tick_off, ite_self]
  unfold CountsDown pace
  simp only [h.heeded, h.live, h.next, h.unfinished, h.last_eq]
  split <;> rfl

end Context.CountsDown

namespace Debugger

structure CountsDown (id : ContextId) (n : Nat) (force : Bool) (last : Option Position) (d : Debugger) :
    Prop where
  known : id < d.contexts.size
  context : (d.context id).CountsDown n force last

/-- Nothing but an armed step halts on an event: lines are not traced, the guard of every breakpoint that
the event meets fails, and the catch-point does not name what is raised. -/
structure Ignores (d : Debugger) (system : Nat) (id : ContextId) (event : Event) : Prop where
  untraced : (d.settings.tracing || (d.context id).tracing) = false
  fails : ∀ position ∈ event.position,
    let d' := d.placed system id event position
    ∀ bp ∈ d'.breakpointsFor id, event.meets position bp → d'.guardHoldsFor system event.receiver bp = false
  uncaught : ∀ exception ∈ event.raised?, ∀ className ∈ d.catchpoint,
    (d.host.ancestors exception).contains className = false

instance (d : Debugger) (system : Nat) (id : ContextId) (event : Event) :
    Decidable (d.Ignores system id event) :=
  decidable_of_iff ((d.settings.tracing || (d.context id).tracing) = false ∧
      (∀ position ∈ event.position,
        let d' := d.placed system id event position
        ∀ bp ∈ d'.breakpointsFor id, event.meets position bp →
          d'.guardHoldsFor system event.receiver bp = false) ∧
      ∀ exception ∈ event.raised?, ∀ className ∈ d.catchpoint,
        (d.host.ancestors exception).contains className = false)
    ⟨fun ⟨untraced, fails, uncaught⟩ => ⟨untraced, fails, uncaught⟩,
      fun h => ⟨h.untraced, h.fails, h.uncaught⟩⟩

variable {d d' : Debugger} {system : Nat} {id : ContextId} {event : Event} {n : Nat} {force : Bool}
  {last : Option Position}

theorem Ignores.dismisses (h : d.Ignores system id event) : d.Dismisses system id event := ⟨h.fails, h.uncaught⟩

theorem pace_placed (known : id < d.contexts.size) (system : Nat) (event : Event) (position : Position) :
    ((d.placed system id event position).context id).pace = (d.context id).pace :=
  (Context.pace_eq (gait_placed known system event position)
    ((d.touches_placed system id event position).traits id known)).trans rfl

namespace CountsDown

theorem placed (h : d.CountsDown id n force last) (system : Nat) (event : Event) (position : Position) :
    (d.placed system id event position).CountsDown id n force last :=
  ⟨Nat.lt_of_lt_of_le h.known (d.touches_placed system id event position).size,
    h.context.of_pace (pace_placed h.known system event position)⟩

theorem dispatch_other (h : d.CountsDown id n force last) (ignores : d.Ignores system id event)
    (other : event.line? = none) :
    (d.dispatch system id event).1 = .done ∧ (d.dispatch system id event).2.CountsDown id n force last := by
  obtain ⟨done, gait⟩ := ignores.dismisses.dispatch_other h.known h.context.heeded other
  have traits := d.traits_dispatch system id event h.known
  refine ⟨done, Nat.lt_of_lt_of_le h.known (d.lodges_dispatch system id event).size, h.context.of_pace ?_⟩
  calc ((d.dispatch system id event).2.context id).pace
      = ((d.context id).seeing d.opensNativeFrame event).pace :=
        Context.pace_eq gait (traits.trans (Context.traits_seeing _ _ _).symm)
    _ = (d.context id).pace := by
        apply Context.pace_seeing
        rw [h.context.unfinished]
        exact (Option.some_ne_none _).symm

/-! ## Lines -/

theorem checkLine (h : d.CountsDown id (n + 1) force last) {position : Position} {receiver : Option Value}
    (fails : ∀ bp ∈ d.breakpointsFor id, bp.matchesPosition position → d.guardHoldsFor system receiver bp = false)
    {moved : Bool} {m : Nat} (remain : (if moved || force then n else n + 1) = m + 1) :
    (d.checkLine system id position receiver moved).1 = .done ∧
      (d.checkLine system id position receiver moved).2.CountsDown id (m + 1) force last := by
  have counted := h.context.countLine moved
  rw [remain] at counted
  obtain ⟨done, gait⟩ := checkLine_undue h.known counted.isStepDue fails
  have touches := d.touches_checkLine system id position receiver moved
  refine ⟨done, Nat.lt_of_lt_of_le h.known touches.size, counted.of_pace (Context.pace_eq gait ?_)⟩
  exact (touches.traits id h.known).trans (Context.traits_countLine moved _).symm

theorem dispatch_line (h : d.CountsDown id n force last) (ignores : d.Ignores system id event) {position : Position}
    (line : event.line? = some position) :
    d.dispatch system id event = (d.placed system id event position).checkLine system id position event.receiver
      (decide (last ≠ some position)) := by
  rw [dispatch_checks h.known h.context.heeded ignores.untraced line, h.context.last_eq]

theorem counts_of_line {position : Position} (line : event.line? = some position) :
    event.counts force last = (decide (last ≠ some position) || force) := by
  rw [Event.counts, line, Option.any_some]

theorem dispatch (h : d.CountsDown id (n + 1) force last) (ignores : d.Ignores system id event) {m : Nat}
    (remain : (if event.counts force last then n else n + 1) = m + 1) :
    (d.dispatch system id event).1 = .done ∧ (d.dispatch system id event).2.CountsDown id (m + 1) force last := by
  cases line : event.line? with
  | none =>
      rw [Event.counts, line, Option.any_none, if_neg Bool.false_ne_true] at remain
      exact remain ▸ h.dispatch_other ignores line
  | some position =>
      rw [counts_of_line line] at remain
      rw [h.dispatch_line ignores line]
      exact (h.placed system event position).checkLine (ignores.dismisses.fails_line line) remain

theorem halts (h : d.CountsDown id 1 force last) (ignores : d.Ignores system id event)
    (counts : event.counts force last) : ∃ position, event.position = some position ∧
      (d.dispatch system id event).1 = .call (.line id position) .resumed ∧
      ((d.dispatch system id event).2.context id).reason = .step ∧
      ((d.dispatch system id event).2.context id).Disarmed := by
  cases line : event.line? with
  | none =>
      rw [Event.counts, line] at counts
      cases counts
  | some position =>
      rw [counts_of_line line] at counts
      have placed := h.placed system event position
      have counted := placed.context.countLine (decide (last ≠ some position))
      rw [if_pos counts] at counted
      obtain ⟨outcome, reason, disarmed⟩ := checkLine_due system position event.receiver placed.known counted.isStepDue
      rw [placed.context.unfinished] at disarmed
      rw [h.dispatch_line ignores line]
      exact ⟨position, (Event.of_line? line).2, outcome, reason, disarmed⟩

end CountsDown

end Debugger

end EventDebugger
