import EventDebugger.Condition
import EventDebugger.Debugger.Activation
import EventDebugger.Debugger.Breakpoints
import EventDebugger.Debugger.Tracking

/-!
# Dispatch of events

What the debugger does with the event of a thread that holds the ticket: it keeps the call stack of
the context, counts the armed steps, looks for breakpoints and the catch-point, and halts.

A halt calls the front-end, which may issue any command before it returns. Dispatch therefore comes in
pieces: `dispatch` runs up to the first call of the front-end, and `Continuation.run` from the return
of a call up to the next one. Between two pieces nothing is kept but a `Continuation`.

* `Continuation.rank_run_lt`: every call is nearer to the end, so an event makes three calls at most.
-/

namespace EventDebugger

/-- A call of the front-end. -/
inductive Callback where
  | line (context : ContextId) (position : Position)
  | breakpoint (context : ContextId) (bp : Breakpoint)
  | catchpoint (context : ContextId) (exception : Value)
  | tracing (context : ContextId) (position : Position)
deriving DecidableEq, Repr

/-- The context that a call of the front-end is about. -/
def Callback.context : Callback → ContextId
  | .line id _ | .breakpoint id _ | .catchpoint id _ | .tracing id _ => id

/-- What remains to be done with an event after a call of the front-end has returned. -/
inductive Continuation where
  /-- The line was reported: count steps and look for breakpoints. -/
  | lineTraced (position : Position) (receiver : Option Value) (moved : Bool)
  /-- The breakpoint was reported: halt. A halt on a line turns off the armed steps. -/
  | breakpointReported (position : Position) (onLine : Bool)
  /-- The exception was reported: halt. -/
  | exceptionReported (position : Position) (receiver : Option Value) (binding : Option Binding)
  /-- The halt is over. -/
  | resumed
deriving DecidableEq, Repr

/-- How a piece of dispatch ends: with the event, or with a call of the front-end. -/
inductive Outcome where
  | done
  | call (callback : Callback) (next : Continuation)
deriving DecidableEq, Repr

/-- How many calls of the front-end can follow, counting the one that is awaited. -/
def Continuation.rank : Continuation → Nat
  | .lineTraced .. => 3
  | .breakpointReported .. | .exceptionReported .. => 2
  | .resumed => 1

/-- How many calls of the front-end can follow. -/
def Outcome.rank : Outcome → Nat
  | .done => 0
  | .call _ next => next.rank

namespace Context

/-- The context after an event at a position, or without one, was seen. -/
def noteEvent (context : Context) (position : Option Position) (isLine : Bool) : Context :=
  { context with
    moved := context.moved || (position.isSome && position != context.lastPosition)
    stepped := context.stepped || !isLine }

/-- Counts a line for the armed steps, in a frame where they count. A step over also counts a line at
the same position if something else than a line happened before. -/
def tickSteps (context : Context) (moved : Bool) : Context :=
  let counts := moved || context.forced
  { context with
    stopNext := if counts then context.stopNext.tick else context.stopNext
    stopLine := if counts || context.stepped then context.stopLine.tick else context.stopLine
    stepped := false }

/-- Counts a line for the armed steps. A target depth that was left makes the next halt due; deeper
frames do not count. -/
def countLine (context : Context) (moved : Bool) : Context :=
  match context.targetDepth with
  | none => context.tickSteps moved
  | some target =>
      if context.depth < target then { context with stopNext := .armed 0 }
      else if target < context.depth then context
      else context.tickSteps moved

/-- Whether an armed step halts now. -/
def isStepDue (context : Context) : Bool := context.stopNext.isDue || context.stopLine.isDue

/-- Moves the innermost frame to the place of an event. Native calls have no scope of their own. -/
def moveTop (context : Context) (event : Event) (position : Position) (native : Bool) : Context :=
  { context with stack := context.stack.modifyTop fun frame =>
      { frame with
        receiver := event.receiver
        position := position
        method := event.method
        locals := if !native && event.scope.isSome then .live event.scope else frame.locals } }

/-- Opens a frame. -/
def push (context : Context) (frame : Frame) : Context :=
  { context with stack := frame :: context.stack }

/-- Gives the innermost frame a binding, or takes it away. -/
def setTopBinding (context : Context) (binding : Option Binding) : Context :=
  { context with stack := context.stack.modifyTop fun frame => { frame with binding } }

/-- Closes the frames up to the one of a method. The return of the frame that was to be finished arms
a single step. -/
def returnFrom (context : Context) (method : Option String) : Context :=
  let context :=
    if context.finishDepth = some context.depth then
      { context with stopNext := .armed 1, finishDepth := none }
    else context
  { context with stack := context.stack.popMatching method }

end Context

namespace Debugger

/-! ## Parts of dispatch -/

/-- A binding of a receiver that is there, in the scope of the current thread. -/
def captureBinding (d : Debugger) (system : Nat) (receiver : Option Value) :
    Option Binding × Debugger :=
  let (binding, host) := d.host.createBinding? system receiver
  (binding, { d with host })

/-- The frame that an event opens. -/
def newFrame (d : Debugger) (system : Nat) (event : Event) (position : Position) :
    Frame × Debugger :=
  let (binding, d) :=
    d.captureBinding system (if d.settings.keepFrameBinding then event.receiver else none)
  (⟨event.method, event.method, position, binding, event.receiver, event.enclosingType,
    .live event.scope⟩, d)

/-- Opens the frame of an event. -/
def openFrame (d : Debugger) (system : Nat) (id : ContextId) (event : Event)
    (position : Position) : Debugger :=
  let (frame, d) := d.newFrame system event position
  d.updateContext id (·.push frame)

/-- Whether a native call opens a frame: it has a block, or its type hosts blocks. -/
def opensNativeFrame (d : Debugger) (type : Option TypeRef) (blockGiven : Bool) : Bool :=
  blockGiven || match type.map TypeRef.unwrap with
    | none => false
    | some type =>
        type.isNamespace && match type.ownName? with
          | none => false
          | some name => d.settings.blockHostTypes.contains name

/-- A breakpoint that an event meets. -/
inductive Found where
  /-- The temporary one of the context, and how many the context was given up to this one. -/
  | temporary (bp : Breakpoint) (number : Nat)
  | listed (bp : Breakpoint)
deriving DecidableEq, Repr

/-- The breakpoint behind. -/
def Found.breakpoint : Found → Breakpoint
  | .temporary bp _ | .listed bp => bp

/-- Whether the breakpoint is the temporary one of the context that met it. -/
def Found.isTemporary : Found → Bool
  | .temporary _ _ => true
  | .listed _ => false

/-- Whether a breakpoint that was met is the temporary one that a context has. -/
def Found.isOwn : Found → Context → Bool
  | .temporary _ number, context => context.temporary.isSome && context.temporaryCount == number
  | .listed _, _ => false

/-- The first persistent breakpoint with a property. -/
def findListed? (d : Debugger) (p : Breakpoint → Bool) : Option Found :=
  match d.session with
  | none => none
  | some session => (List.find? p session.registry).map .listed

/-- The breakpoint with a property that a context meets: its temporary one or the first persistent
one. A context that did not move since its last halt meets none. -/
def findBreakpoint? (d : Debugger) (id : ContextId) (p : Breakpoint → Bool) : Option Found :=
  let context := d.context id
  if context.moved then
    match context.temporary with
    | some bp => if p bp then some (.temporary bp context.temporaryCount) else d.findListed? p
    | none => d.findListed? p
  else none

/-- Reads the variables that a guard can mention. -/
def readVariable (d : Debugger) (binding : Option Binding) (name : String) : Option Value :=
  binding.bind fun binding => binding.lookup? d.host.scopes name

/-- Whether the guard of a breakpoint holds. One that cannot be evaluated does not. -/
def guardHolds (d : Debugger) (bp : Breakpoint) (binding : Option Binding) : Bool :=
  match bp.guard with
  | none => true
  | some guard =>
      match Condition.evaluate (d.readVariable binding) guard with
      | .ok holds => holds
      | .error _ => false

/-- Halts: the front-end is called on the position. -/
def halt (d : Debugger) (id : ContextId) (position : Position) : Outcome × Debugger :=
  let d := { d with lastHalted := some (d.context id).number }
  (.call (.line id position) .resumed, d.updateContext id Context.savePosition)

/-- Halts on a line, which turns off the armed steps. -/
def haltOnLine (d : Debugger) (id : ContextId) (position : Position) : Outcome × Debugger :=
  (d.updateContext id Context.clearSteps).halt id position

/-- Halts on a line or on the entry of a method. -/
def haltAt (d : Debugger) (id : ContextId) (position : Position) (onLine : Bool) :
    Outcome × Debugger :=
  if onLine then d.haltOnLine id position else d.halt id position

/-- Halts on a breakpoint. The temporary one of the context is cleared; any other one is reported first, also a
temporary one that the context has no more. -/
def haltOnBreakpoint (d : Debugger) (id : ContextId) (found : Found) (position : Position)
    (onLine : Bool) : Outcome × Debugger :=
  if found.isOwn (d.context id) then
    (d.updateContext id fun context => { context with temporary := none }).haltAt id position onLine
  else
    (.call (.breakpoint id found.breakpoint) (.breakpointReported position onLine),
      d.updateContext id fun context => { context with reason := .breakpoint })

theorem Found.isSome_of_isOwn {found : Found} {context : Context} (own : found.isOwn context) :
    context.temporary.isSome := by
  cases found with
  | temporary bp number => exact (Bool.and_eq_true_iff.mp own).1
  | listed bp => cases own

theorem Found.isOwn_listed (bp : Breakpoint) (context : Context) :
    (Found.listed bp).isOwn context = (Found.listed bp).isTemporary := rfl

theorem isOwn_of_findListed? {d : Debugger} {p : Breakpoint → Bool} {found : Found}
    (met : d.findListed? p = some found) (context : Context) : found.isOwn context = found.isTemporary := by
  simp only [findListed?] at met
  split at met
  · cases met
  · obtain ⟨bp, -, rfl⟩ := Option.map_eq_some_iff.mp met
    rfl

/-- A context has the temporary breakpoint that it meets. -/
theorem isOwn_of_found {d : Debugger} {id : ContextId} {p : Breakpoint → Bool} {found : Found}
    (met : d.findBreakpoint? id p = some found) : found.isOwn (d.context id) = found.isTemporary := by
  simp only [findBreakpoint?] at met
  split at met
  · split at met
    · next bp temporary =>
        split at met
        · cases met
          simp only [Found.isOwn, Found.isTemporary, temporary, Option.isSome_some, BEq.rfl, Bool.and_self]
        · exact isOwn_of_findListed? met _
    · exact isOwn_of_findListed? met _
  · cases met

theorem haltOnBreakpoint_of_own {d : Debugger} {id : ContextId} {found : Found}
    (own : found.isOwn (d.context id) = found.isTemporary) (position : Position) (onLine : Bool) :
    d.haltOnBreakpoint id found position onLine =
      match found with
      | .temporary _ _ =>
          (d.updateContext id fun context => { context with temporary := none }).haltAt id position onLine
      | .listed bp =>
          (.call (.breakpoint id bp) (.breakpointReported position onLine),
            d.updateContext id fun context => { context with reason := .breakpoint }) := by
  rw [haltOnBreakpoint, own]
  cases found <;> rfl

/-- Captures the binding of a line on which the context may halt. -/
def captureLine (d : Debugger) (system : Nat) (id : ContextId) (receiver : Option Value) :
    Option Binding × Debugger :=
  let (binding, d) := d.captureBinding system receiver
  (binding, d.updateContext id fun context =>
    { context.setTopBinding binding with reason := .step })

/-- Counts a line for the armed steps and looks for breakpoints. -/
def checkLine (d : Debugger) (system : Nat) (id : ContextId) (position : Position)
    (receiver : Option Value) (moved : Bool) : Outcome × Debugger :=
  let d := d.updateContext id (·.countLine moved)
  if (d.context id).isStepDue then
    let (_, d) := d.captureLine system id receiver
    d.haltOnLine id position
  else
    match d.findBreakpoint? id (·.matchesPosition position) with
    | none => (.done, d)
    | some found =>
        let (binding, d) := d.captureLine system id receiver
        if d.guardHolds found.breakpoint binding then d.haltOnBreakpoint id found position true
        else (.done, d)

/-! ## Events -/

/-- A line. The conditions of control structures never halt. -/
def onLine (d : Debugger) (system : Nat) (id : ContextId) (event : Event) (position : Position)
    (conditional moved : Bool) : Outcome × Debugger :=
  let d :=
    if (d.context id).stack.isEmpty then d.openFrame system id event position
    else d.updateContext id (·.moveTop event position false)
  if conditional then (.done, d)
  else if d.settings.tracing || (d.context id).tracing then
    (.call (.tracing id position) (.lineTraced position event.receiver moved), d)
  else d.checkLine system id position event.receiver moved

/-- The entry of a method. -/
def onCall (d : Debugger) (system : Nat) (id : ContextId) (event : Event) (position : Position) :
    Outcome × Debugger :=
  let d := d.openFrame system id event position
  let typeName := (event.enclosingType.map TypeRef.unwrap).bind TypeRef.ownName?
  match d.findBreakpoint? id (·.matchesMethod typeName event.method) with
  | none => (.done, d)
  | some found =>
      let kept := (d.context id).stack.head?.bind (·.binding)
      let (binding, d) := match kept with
        | some binding => (some binding, d)
        | none => d.captureBinding system event.receiver
      let d := d.updateContext id (·.setTopBinding binding)
      if d.guardHolds found.breakpoint binding then d.haltOnBreakpoint id found position false
      else (.done, d)

/-- Attaches what it keeps of its place to an exception. -/
def attachPostMortem (d : Debugger) (exception : Value) (postMortem : PostMortem) : Debugger :=
  match exception with
  | .exception _ number =>
      if d.postMortems.any fun entry => entry.1 == number then
        { d with postMortems := d.postMortems.map fun entry =>
            if entry.1 = number then (number, postMortem) else entry }
      else { d with postMortems := d.postMortems ++ [(number, postMortem)] }
  | _ => d

/-- What an exception keeps of the place where it was raised. -/
def postMortem? (d : Debugger) (exception : Value) : Option PostMortem :=
  match exception with
  | .exception _ number => d.postMortems.lookup number
  | _ => none

/-- Copies the context of a raised exception, if that is wanted and there is a receiver. -/
def keepPostMortem (d : Debugger) (system : Nat) (id : ContextId) (event : Event)
    (position : Position) (exception : Value) : Option Binding × Debugger :=
  if d.settings.postMortem && event.receiver.isSome then
    let (binding, d) := d.captureBinding system event.receiver
    let (dead, d) := d.addContext ((d.context id).freeze d.host.scopes)
    (binding, d.attachPostMortem exception ⟨position, binding, dead⟩)
  else (none, d)

/-- A raise. The exit exception ends the session; one that the catch-point names is reported. -/
def onRaise (d : Debugger) (system : Nat) (id : ContextId) (event : Event) (position : Position)
    (exception : Value) : Outcome × Debugger :=
  let d := d.updateContext id (·.moveTop event position false)
  let (binding, d) := d.keepPostMortem system id event position exception
  if Host.isExit exception then (.done, d.forceStop)
  else
    match d.catchpoint with
    | none => (.done, d)
    | some className =>
        if (d.host.ancestors exception).contains className then
          (.call (.catchpoint id exception) (.exceptionReported position event.receiver binding),
            d.updateContext id fun context => { context with reason := .catchpoint })
        else (.done, d)

/-- Handles an event with a position. -/
def dispatchAt (d : Debugger) (system : Nat) (id : ContextId) (event : Event) (position : Position)
    (moved : Bool) : Outcome × Debugger :=
  match event.kind with
  | .line conditional => d.onLine system id event position conditional moved
  | .call => d.onCall system id event position
  | .return | .classClose => (.done, d.updateContext id (·.returnFrom event.method))
  | .classOpen =>
      let d := d.updateContext id fun context =>
        { context with stack := context.stack.modifyTop fun frame => { frame with method := none } }
      (.done, d.openFrame system id event position)
  | .nativeCall blockGiven =>
      if d.opensNativeFrame event.enclosingType blockGiven then
        (.done, d.openFrame system id event position)
      else (.done, d.updateContext id (·.moveTop event position true))
  | .nativeReturn blockGiven =>
      if d.opensNativeFrame event.enclosingType blockGiven then
        (.done, d.updateContext id (·.returnFrom event.method))
      else (.done, d)
  | .raise exception => d.onRaise system id event position exception

/-- Handles an event up to the first call of the front-end. Without a position only returns matter,
and a skipped context handles nothing. -/
def dispatch (d : Debugger) (system : Nat) (id : ContextId) (event : Event) : Outcome × Debugger :=
  let context := d.context id
  if context.skipped then (.done, d)
  else
    let d := d.updateContext id (·.noteEvent event.position event.kind.isLine)
    match event.position with
    | some position =>
        d.dispatchAt system id event position (decide (context.lastPosition ≠ some position))
    | none =>
        if event.kind = .return then (.done, d.updateContext id (·.returnFrom event.method))
        else (.done, d)

end Debugger

/-- Handles an event from the return of a call of the front-end up to the next one. -/
def Continuation.run (next : Continuation) (d : Debugger) (system : Nat) (id : ContextId) :
    Outcome × Debugger :=
  match next with
  | .lineTraced position receiver moved => d.checkLine system id position receiver moved
  | .breakpointReported position onLine => d.haltAt id position onLine
  | .exceptionReported position receiver binding =>
      let (binding, d) := match binding with
        | some binding => (some binding, d)
        | none => d.captureBinding system receiver
      (d.updateContext id (·.setTopBinding binding)).halt id position
  | .resumed => (.done, d)

theorem Debugger.rank_haltAt (d : Debugger) (id : ContextId) (position : Position) (onLine : Bool) :
    (d.haltAt id position onLine).1.rank = 1 := by
  cases onLine <;> rfl

theorem Debugger.rank_haltOnBreakpoint_le (d : Debugger) (id : ContextId) (found : Found)
    (position : Position) (onLine : Bool) :
    (d.haltOnBreakpoint id found position onLine).1.rank ≤ 2 := by
  simp only [haltOnBreakpoint]
  split
  · rw [rank_haltAt]
    exact Nat.le_succ 1
  · exact Nat.le_refl 2

theorem Debugger.rank_checkLine_le (d : Debugger) (system : Nat) (id : ContextId)
    (position : Position) (receiver : Option Value) (moved : Bool) :
    (d.checkLine system id position receiver moved).1.rank ≤ 2 := by
  simp only [checkLine]
  split
  · exact Nat.le_succ 1
  · split
    · exact Nat.zero_le _
    · split
      · exact rank_haltOnBreakpoint_le ..
      · exact Nat.zero_le _

theorem Continuation.rank_run_lt (next : Continuation) (d : Debugger) (system : Nat)
    (id : ContextId) : (next.run d system id).1.rank < next.rank := by
  cases next with
  | lineTraced position receiver moved =>
      exact Nat.lt_succ_of_le (Debugger.rank_checkLine_le ..)
  | breakpointReported position onLine =>
      simp only [run, Debugger.rank_haltAt]
      exact Nat.lt_succ_self 1
  | exceptionReported position receiver binding => exact Nat.lt_succ_self 1
  | resumed => exact Nat.lt_succ_self 0

end EventDebugger
