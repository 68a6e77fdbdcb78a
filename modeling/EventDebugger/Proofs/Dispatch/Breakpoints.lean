import EventDebugger.Proofs.Calls
import EventDebugger.Proofs.Dispatch.Locality

/-!
# Which breakpoint halts

A context looks for breakpoints on a line on which no step is due, and on the entry of a method. Its
temporary breakpoint comes first and then those of the registry in their order. Only the first one that
the event meets counts: if its guard fails, the event does not halt, whatever others it meets.

* `halts_iff_first`: an event halts if and only if the guard of the first breakpoint that it meets holds.
* `not_halts_on_second`: a second breakpoint on the same line, without any guard, does not halt.
-/

namespace EventDebugger

/-! ## Breakpoints and guards -/

namespace Debugger

/-- The breakpoints that a context can meet, in the order in which they are looked for. -/
def breakpointsFor (d : Debugger) (id : ContextId) : List Breakpoint :=
  (d.context id).temporary.toList ++ d.session.elim [] (·.registry)

/-- Whether the guard of a breakpoint holds in the binding of a receiver. -/
def guardHoldsFor (d : Debugger) (system : Nat) (receiver : Option Value) (bp : Breakpoint) : Bool :=
  let (binding, d) := d.captureBinding system receiver
  d.guardHolds bp binding

theorem guardHolds_congr {d d' : Debugger} (host : d'.host = d.host) (bp : Breakpoint)
    (binding : Option Binding) : d'.guardHolds bp binding = d.guardHolds bp binding := by
  have reads : d'.readVariable binding = d.readVariable binding := by
    funext name
    simp only [readVariable, host]
  simp only [guardHolds, reads]

theorem guardHoldsFor_congr {d d' : Debugger} (host : d'.host = d.host) (system : Nat)
    (receiver : Option Value) (bp : Breakpoint) :
    d'.guardHoldsFor system receiver bp = d.guardHoldsFor system receiver bp := by
  simp only [guardHoldsFor, captureBinding, host]
  exact guardHolds_congr rfl bp _

theorem listed_of_found {d : Debugger} {id : ContextId} {p : Breakpoint → Bool} {bp : Breakpoint}
    (found : d.findBreakpoint? id p = some (.listed bp)) :
    (∃ session, d.session = some session ∧ bp ∈ session.registry) ∧ p bp := by
  have listed (found : d.findListed? p = some (.listed bp)) :
      (∃ session, d.session = some session ∧ bp ∈ session.registry) ∧ p bp := by
    simp only [findListed?] at found
    split at found
    · cases found
    · next session active =>
        obtain ⟨first, same, is⟩ := Option.map_eq_some_iff.mp found
        cases is
        exact ⟨⟨session, active, List.mem_of_find?_eq_some same⟩, List.find?_some same⟩
  simp only [findBreakpoint?] at found
  split at found
  · split at found
    · split at found
      · cases found
      · exact listed found
    · exact listed found
  · cases found

theorem findListed?_eq (d : Debugger) (p : Breakpoint → Bool) :
    (d.findListed? p).map Found.breakpoint = (d.session.elim [] (·.registry)).find? p := by
  simp only [findListed?]
  split
  · next ended => simp [ended]
  · next session active => simp [active, Option.map_map, Function.comp_def, Found.breakpoint]

theorem findBreakpoint?_eq {d : Debugger} {id : ContextId} (moved : (d.context id).moved)
    (p : Breakpoint → Bool) :
    (d.findBreakpoint? id p).map Found.breakpoint = (d.breakpointsFor id).find? p := by
  simp only [findBreakpoint?, moved, if_true, breakpointsFor, List.find?_append]
  split
  · next bp temporary =>
      rw [temporary]
      by_cases meets : p bp
      · simp [meets, Found.breakpoint]
      · simp [meets, findListed?_eq]
  · next temporary => simp [temporary, findListed?_eq]

theorem findBreakpoint?_congr {d d' : Debugger} {id : ContextId} (session : d'.session = d.session)
    (moved : (d'.context id).moved = (d.context id).moved)
    (temporary : (d'.context id).temporary = (d.context id).temporary)
    (count : (d'.context id).temporaryCount = (d.context id).temporaryCount) (p : Breakpoint → Bool) :
    d'.findBreakpoint? id p = d.findBreakpoint? id p := by
  simp only [findBreakpoint?, findListed?, session, moved, temporary, count]

theorem known_of_moved {d : Debugger} {id : ContextId} (moved : (d.context id).moved) :
    id < d.contexts.size := by
  apply Nat.lt_of_not_le
  intro unknown
  have absent : d.context id = .initial default 0 false := by
    simp only [context, Array.getD_eq_getD_getElem?, Array.getElem?_eq_none unknown, Option.getD_none]
  rw [absent] at moved
  cases moved

theorem halts_iff_of_found {id : ContextId} {position : Position} {outcome : Outcome}
    {found : Option Found} {first : Option Breakpoint} {holds : Breakpoint → Bool}
    (sought : found.map Found.breakpoint = first) (spared : found = none → outcome = .done)
    (met : ∀ hit, found = some hit →
      if holds hit.breakpoint then outcome.Halts id position else outcome = .done) :
    (outcome = .done ∨ outcome.Halts id position) ∧
      (outcome.Halts id position ↔ ∃ bp, first = some bp ∧ holds bp) := by
  subst sought
  cases found with
  | none =>
      have done := spared rfl
      subst done
      constructor
      · exact .inl rfl
      · constructor
        · intro halts
          cases halts
        · rintro ⟨bp, first, _⟩
          cases first
  | some hit =>
      have decided := met hit rfl
      by_cases guarded : holds hit.breakpoint
      · rw [if_pos guarded] at decided
        exact ⟨.inr decided, fun _ => ⟨hit.breakpoint, rfl, guarded⟩, fun _ => decided⟩
      · rw [if_neg guarded] at decided
        subst decided
        constructor
        · exact .inl rfl
        · constructor
          · intro halts
            cases halts
          · rintro ⟨bp, first, holds⟩
            cases first
            exact absurd holds guarded

/-! ## Lines -/

variable {d : Debugger} {id : ContextId}

theorem breakpointsFor_countLine (known : id < d.contexts.size) (moved : Bool) :
    (d.updateContext id (·.countLine moved)).breakpointsFor id = d.breakpointsFor id := by
  obtain ⟨_, _, _, eq⟩ := (d.context id).countLine_eq moved
  simp only [breakpointsFor, context_updateContext_self _ _ known, eq]
  rfl

theorem moved_countLine (context : Context) (moved : Bool) :
    (context.countLine moved).moved = context.moved := by
  obtain ⟨_, _, _, eq⟩ := context.countLine_eq moved
  rw [eq]

theorem guardHolds_captureLine (d : Debugger) (system : Nat) (id : ContextId) (receiver : Option Value)
    (fresh : Bool) (bp : Breakpoint) :
    let captured := (d.updateContext id (·.countLine fresh)).captureLine system id receiver
    captured.2.guardHolds bp captured.1 = d.guardHoldsFor system receiver bp := guardHolds_congr rfl _ _

theorem checkLine_halts_iff (moved : (d.context id).moved) (system : Nat) (position : Position)
    (receiver : Option Value) (fresh : Bool) (undue : ((d.context id).countLine fresh).isStepDue = false) :
    let outcome := (d.checkLine system id position receiver fresh).1
    (outcome = .done ∨ outcome.Halts id position) ∧
      (outcome.Halts id position ↔ ∃ bp, (d.breakpointsFor id).find? (·.matchesPosition position) = some bp ∧
        d.guardHoldsFor system receiver bp) := by
  have known := known_of_moved moved
  have counted := d.context_updateContext_self (·.countLine fresh) known
  have still : ((d.updateContext id (·.countLine fresh)).context id).moved := by
    rw [counted, moved_countLine]
    exact moved
  have found := findBreakpoint?_eq still (·.matchesPosition position)
  rw [breakpointsFor_countLine known] at found
  apply halts_iff_of_found found
  · intro none
    simp only [checkLine, counted, undue, none]
    rfl
  · intro hit some
    simp only [checkLine, counted, undue, some, guardHolds_captureLine, Bool.false_eq_true, if_false]
    by_cases holds : d.guardHoldsFor system receiver hit.breakpoint
    · simp only [holds, if_true]
      exact halts_haltOnBreakpoint _ id hit position true
    · simp only [holds, Bool.false_eq_true, if_false]

/-! ## Calls -/

def enteredType (event : Event) : Option String :=
  (event.enclosingType.map TypeRef.unwrap).bind TypeRef.ownName?

theorem context_openFrame (known : id < d.contexts.size) (system : Nat) (event : Event)
    (position : Position) : (d.openFrame system id event position).context id =
      (d.context id).push (d.newFrame system event position).1 :=
  (d.newFrame system event position).2.context_updateContext_self
    (·.push (d.newFrame system event position).1) known

/-- The binding in which the guard of a method breakpoint is evaluated: the one that the new frame keeps,
or else one that is captured now. -/
def callBinding (d : Debugger) (system : Nat) (id : ContextId) (receiver : Option Value) :
    Option Binding × Debugger :=
  match (d.context id).stack.head?.bind (·.binding) with
  | some binding => (some binding, d)
  | none => d.captureBinding system receiver

theorem callBinding_openFrame (known : id < d.contexts.size) (system : Nat) (event : Event)
    (position : Position) :
    let bound := (d.openFrame system id event position).callBinding system id event.receiver
    let captured := d.captureBinding system event.receiver
    bound.1 = captured.1 ∧ bound.2.host = captured.2.host := by
  have kept : ((d.openFrame system id event position).context id).stack.head?.bind (·.binding) =
      (d.captureBinding system (if d.settings.keepFrameBinding then event.receiver else none)).1 := by
    rw [context_openFrame known]
    rfl
  have host : (d.openFrame system id event position).host =
      (d.captureBinding system (if d.settings.keepFrameBinding then event.receiver else none)).2.host := rfl
  simp only [callBinding, kept]
  cases keeps : d.settings.keepFrameBinding with
  | false =>
      rw [keeps, if_neg Bool.false_ne_true] at host
      simp only [if_neg Bool.false_ne_true, captureBinding, host]
      exact ⟨rfl, rfl⟩
  | true =>
      rw [keeps, if_pos rfl] at host
      rw [if_pos rfl]
      cases receiver : event.receiver with
      | none =>
          rw [receiver] at host
          exact ⟨rfl, host⟩
      | some value =>
          rw [receiver] at host
          exact ⟨rfl, host⟩

theorem guardHolds_callBinding (known : id < d.contexts.size) (system : Nat) (event : Event)
    (position : Position) (bp : Breakpoint) :
    let bound := (d.openFrame system id event position).callBinding system id event.receiver
    (bound.2.updateContext id (·.setTopBinding bound.1)).guardHolds bp bound.1 =
      d.guardHoldsFor system event.receiver bp := by
  obtain ⟨binding, host⟩ := callBinding_openFrame known system event position
  simp only
  rw [binding, guardHoldsFor]
  exact guardHolds_congr host _ _

theorem onCall_eq (d : Debugger) (system : Nat) (id : ContextId) (event : Event) (position : Position) :
    d.onCall system id event position =
      let d := d.openFrame system id event position
      match d.findBreakpoint? id (·.matchesMethod (enteredType event) event.method) with
      | none => (.done, d)
      | some found =>
          let bound := d.callBinding system id event.receiver
          let d := bound.2.updateContext id (·.setTopBinding bound.1)
          if d.guardHolds found.breakpoint bound.1 then d.haltOnBreakpoint id found position false
          else (.done, d) := rfl

theorem onCall_halts_iff (moved : (d.context id).moved) (system : Nat) (event : Event)
    (position : Position) :
    let outcome := (d.onCall system id event position).1
    let meets : Breakpoint → Bool := (·.matchesMethod (enteredType event) event.method)
    (outcome = .done ∨ outcome.Halts id position) ∧
      (outcome.Halts id position ↔ ∃ bp, (d.breakpointsFor id).find? meets = some bp ∧
        d.guardHoldsFor system event.receiver bp) := by
  have known := known_of_moved moved
  have opened := context_openFrame known system event position
  have still : ((d.openFrame system id event position).context id).moved := by
    rw [opened]
    exact moved
  have same : (d.openFrame system id event position).breakpointsFor id = d.breakpointsFor id := by
    simp only [breakpointsFor, opened]
    rfl
  have found := findBreakpoint?_eq still (·.matchesMethod (enteredType event) event.method)
  rw [same] at found
  have guarded := guardHolds_callBinding known system event position
  rw [onCall_eq]
  generalize d.openFrame system id event position = d' at *
  apply halts_iff_of_found found
  · intro none
    simp only [none]
  · intro hit some
    simp only [some, guarded]
    by_cases holds : d.guardHoldsFor system event.receiver hit.breakpoint
    · simp only [holds, if_true]
      exact halts_haltOnBreakpoint _ id hit position false
    · simp only [holds, Bool.false_eq_true, if_false]

end Debugger

/-! ## Events -/

open Debugger

/-- Whether a breakpoint stands on the line, or on the method, of an event. -/
def Event.meets (event : Event) (position : Position) (bp : Breakpoint) : Bool :=
  match event.kind with
  | .line _ => bp.matchesPosition position
  | .call => bp.matchesMethod (enteredType event) event.method
  | _ => false

namespace Debugger

/-- The debugger once an event was seen and, if it is a line, has its frame. -/
def placed (d : Debugger) (system : Nat) (id : ContextId) (event : Event) (position : Position) :
    Debugger :=
  let d := d.updateContext id (·.noteEvent event.position event.kind.isLine)
  if event.kind.isLine then
    if (d.context id).stack.isEmpty then d.openFrame system id event position
    else d.updateContext id (·.moveTop event position false)
  else d

end Debugger

variable {σ ε : Type} (front : FrontEnd σ ε) (system : Nat) (id : ContextId) (event : Event)
  (position : Position) (d : Debugger) (state : σ)

/-- The debugger and the front-end when an event looks for breakpoints. If lines are traced, the front-end
was called before. -/
def sought : Debugger × σ :=
  let d := d.placed system id event position
  if event.kind.isLine && (d.settings.tracing || (d.context id).tracing) then
    (front system (.tracing id position) (d, state)).2
  else (d, state)

/-- An event that looks for breakpoints: a line on which no step is due or the entry of a method, in a
context that is not skipped and that moved since its last halt. -/
structure Seeks : Prop where
  heeded : (d.context id).skipped = false
  placed : event.position = some position
  moved : ((sought front system id event position d state).1.context id).moved
  kind : event.kind = .call ∨ event.kind = .line false ∧
    (((sought front system id event position d state).1.context id).countLine
      (decide ((d.context id).lastPosition ≠ some position))).isStepDue = false

/-- The front-end is called on the line of an event if and only if the guard of the first breakpoint that
the event meets holds. -/
def FirstDecides : Prop :=
  let d' := (sought front system id event position d state).1
  .line id position ∈ callsOf front system id event d state ↔
    ∃ bp, (d'.breakpointsFor id).find? (event.meets position) = some bp ∧
      d'.guardHoldsFor system event.receiver bp

theorem dispatch_line (heeded : (d.context id).skipped = false) (at' : event.position = some position)
    (kind : event.kind = .line false) :
    d.dispatch system id event =
      let moved := decide ((d.context id).lastPosition ≠ some position)
      let d := d.placed system id event position
      if d.settings.tracing || (d.context id).tracing then
        (.call (.tracing id position) (.lineTraced position event.receiver moved), d)
      else d.checkLine system id position event.receiver moved := by
  simp only [dispatch, heeded, at', dispatchAt, kind, Bool.false_eq_true, if_false]
  simp only [onLine, placed, at', kind, EventKind.isLine, if_true, Bool.false_eq_true, if_false]
  rfl

theorem dispatch_call (heeded : (d.context id).skipped = false) (at' : event.position = some position)
    (kind : event.kind = .call) :
    d.dispatch system id event = (d.placed system id event position).onCall system id event position := by
  simp only [dispatch, heeded, at', dispatchAt, placed, kind, EventKind.isLine, Bool.false_eq_true, if_false]

variable {front system id event position d state}

theorem calls_line_iff (succeeds : front.Succeeds) (seeks : Seeks front system id event position d state)
    (kind : event.kind = .line false)
    (undue : (((sought front system id event position d state).1.context id).countLine
      (decide ((d.context id).lastPosition ≠ some position))).isStepDue = false) :
    FirstDecides front system id event position d state := by
  have meets : event.meets position = (·.matchesPosition position) := by
    funext bp
    simp only [Event.meets, kind]
  obtain ⟨either, halts⟩ := checkLine_halts_iff seeks.moved system position event.receiver _ undue
  rw [FirstDecides, callsOf_eq, dispatch_line system id event position d seeks.heeded seeks.placed kind, meets]
  have reached : sought front system id event position d state =
      let d' := d.placed system id event position
      if d'.settings.tracing || (d'.context id).tracing then
        (front system (.tracing id position) (d', state)).2
      else (d', state) := by
    simp only [sought, kind, EventKind.isLine, Bool.true_and]
  generalize sought front system id event position d state = reach at *
  generalize d.placed system id event position = d' at *
  simp only at reached ⊢
  split at reached
  · next traced =>
      subst reached
      rw [if_pos traced]
      simp only [Outcome.rank, Continuation.rank]
      rw [succeeds.calls, List.mem_cons]
      simp only [Continuation.run, reduceCtorEq, false_or]
      rw [Outcome.mem_calls_iff succeeds system either (rank_checkLine_le ..)]
      exact halts
  · next untraced =>
      subst reached
      rw [if_neg untraced, Outcome.mem_calls_iff succeeds system either (Nat.le_refl _)]
      exact halts

theorem calls_call_iff (succeeds : front.Succeeds) (seeks : Seeks front system id event position d state)
    (kind : event.kind = .call) :
    FirstDecides front system id event position d state := by
  have meets : event.meets position = (·.matchesMethod (enteredType event) event.method) := by
    funext bp
    simp only [Event.meets, kind]
  have reached : sought front system id event position d state = (d.placed system id event position, state) := by
    simp only [sought, kind, EventKind.isLine, Bool.false_and, Bool.false_eq_true, if_false]
  have moved := seeks.moved
  rw [reached] at moved
  obtain ⟨either, halts⟩ := onCall_halts_iff moved system event position
  rw [FirstDecides, reached, callsOf_eq, dispatch_call system id event position d seeks.heeded seeks.placed kind, meets,
    Outcome.mem_calls_iff succeeds system either (Nat.le_refl _)]
  exact halts

/-- An event that looks for breakpoints halts if and only if the guard of the first one that it meets
holds. This is the same as that the guard of some breakpoint that it meets holds, unless that one comes
after another one whose guard fails. -/
theorem halts_iff_first (succeeds : front.Succeeds) (seeks : Seeks front system id event position d state) :
    let d' := (sought front system id event position d state).1
    let bps := (d'.breakpointsFor id).filter (event.meets position)
    let holds := d'.guardHoldsFor system event.receiver
    let halts := .line id position ∈ callsOf front system id event d state
    (halts ↔ ∃ bp, bps.head? = some bp ∧ holds bp) ∧
      ((∀ bp, bps.head? = some bp → holds bp = false → ∀ other ∈ bps, holds other = false) →
        (halts ↔ ∃ bp ∈ bps, holds bp)) := by
  have calls : FirstDecides front system id event position d state := by
    rcases seeks.kind with call | ⟨line, undue⟩
    · exact calls_call_iff succeeds seeks call
    · exact calls_line_iff succeeds seeks line undue
  simp only [List.head?_filter]
  refine ⟨calls, fun unhidden => calls.trans ?_⟩
  constructor
  · rintro ⟨bp, first, holds⟩
    exact ⟨bp, List.mem_filter.mpr ⟨List.mem_of_find?_eq_some first, List.find?_some first⟩, holds⟩
  · -- A guard that holds somewhere holds for the first breakpoint: if it failed there, it would fail everywhere.
    rintro ⟨bp, met, holds⟩
    obtain ⟨listed, meets⟩ := List.mem_filter.mp met
    obtain ⟨first, found⟩ := Option.isSome_iff_exists.mp (List.find?_isSome.mpr ⟨bp, listed, meets⟩)
    refine ⟨first, found, ?_⟩
    by_cases fails : (sought front system id event position d state).1.guardHoldsFor system event.receiver first
    · exact fails
    · have hidden := unhidden first found (Bool.not_eq_true _ ▸ fails) bp met
      rw [holds] at hidden
      cases hidden

/-! ## Two breakpoints on a line -/

def bareLine : Event :=
  { Event.ofKind (.line false) with position := some ⟨"a.rb", 1⟩, receiver := some .nil }

def onTwo (unguardedFirst : Bool) : Debugger :=
  let add (d : Debugger) (guard : Option String) : Debugger :=
    match d.addBreakpoint "a.rb" (.line 1) guard with
    | .ok (_, d) => d
    | .error _ => d
  let started := (Debugger.initial .standard).start.2
  let d :=
    if unguardedFirst then add (add started none) (some "x == 2")
    else add (add started (some "x == 2")) none
  ((d.arrive 0 bareLine).2.contend ⟨1, "main"⟩ 0 false).2

def silent : FrontEnd Unit Error := fun _ _ => return .ok ()

theorem seeks_onTwo (unguardedFirst : Bool) :
    Seeks silent 0 0 bareLine ⟨"a.rb", 1⟩ (onTwo unguardedFirst) () := by
  cases unguardedFirst with
  | true => exact ⟨by decide, rfl, by decide, .inr ⟨rfl, by decide⟩⟩
  | false => exact ⟨by decide, rfl, by decide, .inr ⟨rfl, by decide⟩⟩

theorem halts_on_first : .line 0 ⟨"a.rb", 1⟩ ∈ callsOf silent 0 0 bareLine (onTwo true) () :=
  (halts_iff_first (fun _ _ _ => rfl) (seeks_onTwo true)).1.mpr
    ⟨⟨1, "a.rb", .line 1, none⟩, by decide, by decide⟩

/-- The second breakpoint on the line has no guard, but the guard of the first one fails. -/
theorem not_halts_on_second :
    let d := onTwo false
    let d' := (sought silent 0 0 bareLine ⟨"a.rb", 1⟩ d ()).1
    silent.Succeeds ∧ Seeks silent 0 0 bareLine ⟨"a.rb", 1⟩ d () ∧
      (∃ bp ∈ (d'.breakpointsFor 0).filter (bareLine.meets ⟨"a.rb", 1⟩),
        d'.guardHoldsFor 0 bareLine.receiver bp) ∧
      .line 0 ⟨"a.rb", 1⟩ ∉ callsOf silent 0 0 bareLine d () := by
  refine ⟨fun _ _ _ => rfl, seeks_onTwo false, ⟨⟨2, "a.rb", .line 1, none⟩, ?_, ?_⟩, ?_⟩
  · decide
  · decide
  · decide

end EventDebugger
