import EventDebugger.Proofs.Histories
import EventDebugger.Proofs.Ticket.Heard

/-!
# The context that halted last

A debugger remembers the number of the context that halted last, across activations, and looks for it in the table
of the current one. In every run it finds the context of the latest halt of this activation, as long as this is in
the table, and nothing otherwise.

* `Debugger.notes_dispatch`, `Debugger.notes_run`: only halts change the number.
* `World.lastContext_of_latest`: which context is found, and what a post-mortem does to it.
-/

namespace EventDebugger

def Outcome.isHalt : Outcome → Bool
  | .call (.line ..) _ => true
  | _ => false

namespace Debugger

variable {d d' : Debugger} {system : Nat} {id : ContextId} {piece : Outcome × Debugger}

/-! ## The number of the last halt -/

def Notes (id : ContextId) (d : Debugger) (piece : Outcome × Debugger) : Prop :=
  piece.2.lastHalted = if piece.1.isHalt then some (d.context id).number else d.lastHalted

structure Readies (system : Nat) (id : ContextId) (d d' : Debugger) : Prop where
  touches : Touches system id d d'
  same : d'.lastHalted = d.lastHalted

theorem Readies.trans {d'' : Debugger} (first : Readies system id d d') (second : Readies system id d' d'') :
    Readies system id d d'' := ⟨first.touches.trans second.touches, second.same.trans first.same⟩

theorem Readies.known (readies : Readies system id d d') (known : id < d.contexts.size) : id < d'.contexts.size :=
  Nat.lt_of_lt_of_le known readies.touches.size

theorem Readies.notes (readies : Readies system id d d') (known : id < d.contexts.size) (notes : Notes id d' piece) :
    Notes id d piece := by
  have number : (d'.context id).number = (d.context id).number :=
    congrArg (·.2.1) (readies.touches.traits id known)
  rwa [Notes, number, readies.same] at notes

theorem notes_done (d : Debugger) (id : ContextId) : Notes id d (.done, d) := rfl

theorem readies_updateContext (d : Debugger) (system : Nat) (id : ContextId) {f : Context → Context}
    (hf : ∀ context, (f context).traits = context.traits) : Readies system id d (d.updateContext id f) :=
  ⟨d.touches_updateContext system id f hf, rfl⟩

theorem notes_haltAt (known : id < d.contexts.size) (position : Position) (onLine : Bool) :
    Notes id d (d.haltAt id position onLine) := by
  cases onLine with
  | false => rfl
  | true =>
      exact (d.readies_updateContext 0 id (f := Context.clearSteps) fun _ => rfl).notes known rfl

theorem notes_haltOnBreakpoint (known : id < d.contexts.size) (found : Found) (position : Position)
    (onLine : Bool) : Notes id d (d.haltOnBreakpoint id found position onLine) := by
  simp only [haltOnBreakpoint]
  split
  · have readies := d.readies_updateContext 0 id (f := fun context => { context with temporary := none }) fun _ => rfl
    exact readies.notes known (notes_haltAt (readies.known known) position onLine)
  · rfl

theorem readies_captureBinding (d : Debugger) (system : Nat) (id : ContextId) (receiver : Option Value) :
    Readies system id d (d.captureBinding system receiver).2 := ⟨d.touches_captureBinding system id receiver, rfl⟩

theorem readies_captureLine (d : Debugger) (system : Nat) (id : ContextId) (receiver : Option Value) :
    Readies system id d (d.captureLine system id receiver).2 := ⟨d.touches_captureLine system id receiver, rfl⟩

theorem readies_openFrame (d : Debugger) (system : Nat) (id : ContextId) (event : Event) (position : Position) :
    Readies system id d (d.openFrame system id event position) := ⟨d.touches_openFrame system id event position, rfl⟩

theorem notes_checkLine (known : id < d.contexts.size) (system : Nat) (position : Position)
    (receiver : Option Value) (moved : Bool) : Notes id d (d.checkLine system id position receiver moved) := by
  have counted := d.readies_updateContext system id (f := (·.countLine moved)) (Context.traits_countLine moved)
  have captured := counted.trans (readies_captureLine _ system id receiver)
  simp only [checkLine]
  split
  · exact captured.notes known (notes_haltAt (captured.known known) position true)
  · split
    · exact counted.notes known (notes_done _ id)
    · split
      · exact captured.notes known (notes_haltOnBreakpoint (captured.known known) _ position true)
      · exact captured.notes known (notes_done _ id)

theorem notes_onLine (known : id < d.contexts.size) (system : Nat) (event : Event) (position : Position)
    (conditional moved : Bool) : Notes id d (d.onLine system id event position conditional moved) := by
  have placed : Readies system id d (if (d.context id).stack.isEmpty then d.openFrame system id event position
      else d.updateContext id (·.moveTop event position false)) := by
    split
    · exact d.readies_openFrame system id event position
    · exact d.readies_updateContext system id fun _ => rfl
  simp only [onLine]
  generalize (if (d.context id).stack.isEmpty then d.openFrame system id event position
    else d.updateContext id (·.moveTop event position false)) = d' at placed ⊢
  split
  · exact placed.notes known (notes_done _ id)
  · split
    · exact placed.notes known rfl
    · exact placed.notes known (notes_checkLine (placed.known known) system position event.receiver moved)

theorem notes_onCall (known : id < d.contexts.size) (system : Nat) (event : Event) (position : Position) :
    Notes id d (d.onCall system id event position) := by
  have opened := d.readies_openFrame system id event position
  have bound (d' : Debugger) (binding : Option Binding) :
      Readies system id d' (d'.updateContext id (·.setTopBinding binding)) :=
    d'.readies_updateContext system id fun _ => rfl
  have ends {d' : Debugger} (readies : Readies system id d d') (found : Found) (guard : Prop) [Decidable guard] :
      Notes id d (if guard then d'.haltOnBreakpoint id found position false else (.done, d')) := by
    split
    · exact readies.notes known (notes_haltOnBreakpoint (readies.known known) found position false)
    · exact readies.notes known (notes_done _ id)
  simp only [onCall]
  split
  · exact opened.notes known (notes_done _ id)
  · split
    · exact ends (opened.trans (bound _ _)) _ _
    · exact ends ((opened.trans (readies_captureBinding _ system id _)).trans (bound _ _)) _ _

theorem readies_keepPostMortem (d : Debugger) (system : Nat) (id : ContextId) (event : Event) (position : Position)
    (exception : Value) : Readies system id d (d.keepPostMortem system id event position exception).2 := by
  refine ⟨d.touches_keepPostMortem system id event position exception, ?_⟩
  simp only [keepPostMortem]
  split
  · obtain ⟨_, attached⟩ := ((d.captureBinding system event.receiver).2.addContext
      (((d.captureBinding system event.receiver).2.context id).freeze
        (d.captureBinding system event.receiver).2.host.scopes)).2.attachPostMortem_eq exception
        ⟨position, (d.captureBinding system event.receiver).1, d.contexts.size⟩
    exact congrArg (·.lastHalted) attached
  · rfl

theorem lastHalted_forceStop (d : Debugger) : d.forceStop.lastHalted = d.lastHalted := by
  simp only [forceStop]
  split <;> rfl

theorem notes_onRaise (known : id < d.contexts.size) (system : Nat) (event : Event) (position : Position)
    (exception : Value) : Notes id d (d.onRaise system id event position exception) := by
  have kept := (d.readies_updateContext system id (f := (·.moveTop event position false)) fun _ => rfl).trans
    (readies_keepPostMortem _ system id event position exception)
  simp only [onRaise]
  split
  · exact kept.notes known (lastHalted_forceStop _)
  · split
    · exact kept.notes known (notes_done _ id)
    · split
      · exact kept.notes known rfl
      · exact kept.notes known (notes_done _ id)

theorem notes_dispatch (known : id < d.contexts.size) (system : Nat) (event : Event) :
    Notes id d (d.dispatch system id event) := by
  have noted := d.readies_updateContext system id
    (f := (·.noteEvent event.position event.kind.isLine)) fun _ => rfl
  simp only [dispatch]
  split
  · rfl
  · split
    · next position _ =>
        refine noted.notes known ?_
        have known := noted.known known
        simp only [dispatchAt]
        split
        · exact notes_onLine known system event position _ _
        · exact notes_onCall known system event position
        · rfl
        · rfl
        · rfl
        · split <;> rfl
        · split <;> rfl
        · exact notes_onRaise known system event position _
    · split <;> rfl

theorem notes_run (known : id < d.contexts.size) (system : Nat) (next : Continuation) :
    Notes id d (next.run d system id) := by
  cases next with
  | lineTraced position receiver moved => exact notes_checkLine known system position receiver moved
  | breakpointReported position onLine => exact notes_haltAt known position onLine
  | exceptionReported position receiver binding =>
      have bound (d' : Debugger) (binding : Option Binding) :
          Readies system id d' (d'.updateContext id (·.setTopBinding binding)) :=
        d'.readies_updateContext system id fun _ => rfl
      simp only [Continuation.run]
      split
      · exact (bound d _).notes known rfl
      · exact ((d.readies_captureBinding system id receiver).trans (bound _ _)).notes known rfl
  | resumed => rfl

/-! ## The context with a number -/

theorem Turns.lastHalted (turns : Turns d d') : d'.lastHalted = d.lastHalted := by cases turns.switches <;> rfl

theorem Regular.tracked_iff (h : d.Regular) {session : Session} (active : d.session = some session) :
    session.table.entries.any (·.2 == id) ↔ d.contextOf? (d.context id).thread = some id := by
  rw [h.numbered.wellTracked.1.contextOf?_eq active, List.any_eq_true]
  constructor
  · rintro ⟨entry, member, same⟩
    obtain rfl : entry.2 = id := eq_of_beq same
    have thread : (d.context entry.2).thread = entry.1 := (h.home active entry member).thread
    rw [thread]
    exact lookup_of_mem (h.keyed session active) member
  · intro found
    obtain ⟨before, after, split, -⟩ := List.lookup_eq_some_iff.mp found
    exact ⟨_, split ▸ List.mem_append_right before List.mem_cons_self, beq_self_eq_true id⟩

theorem Regular.numbered?_eq (h : d.Regular) {session : Session} (active : d.session = some session)
    (known : id < d.contexts.size) (live : (d.context id).dead = false) :
    d.numbered? session (d.context id).number = if session.table.entries.any (·.2 == id) then some id else none := by
  have alike {entry : Thread × ContextId} (member : entry ∈ session.table.entries)
      (same : ((d.context entry.2).number == (d.context id).number) = true) : entry.2 = id := by
    have home := h.home active entry member
    exact h.numbered.numbered.distinct entry.2 home.known id known home.live live (eq_of_beq same)
  rw [numbered?]
  split
  · next tracked =>
      obtain ⟨entry, member, same⟩ := List.any_eq_true.mp tracked
      have number : ((d.context entry.2).number == (d.context id).number) = true := by
        rw [eq_of_beq same]
        exact beq_self_eq_true _
      have finds : ∃ entry ∈ session.table.entries, ((d.context entry.2).number == (d.context id).number) = true :=
        ⟨entry, member, number⟩
      obtain ⟨other, found⟩ := Option.isSome_iff_exists.mp (List.find?_isSome.mpr finds)
      have same : ((d.context other.2).number == (d.context id).number) = true := by
        simpa only using List.find?_some found
      rw [found, Option.map_some, alike (List.mem_of_find?_eq_some found) same]
  · next absent =>
      rw [Option.map_eq_none_iff, List.find?_eq_none]
      intro entry member same
      exact absent (List.any_eq_true.mpr ⟨entry, member, beq_iff_eq.mpr (alike member same)⟩)

/-- What the number of the last halt stands for: nothing yet, the context of the latest halt of the activation, or a
context that is gone. -/
inductive Recorded (last : Option ContextId) (d : Debugger) : Prop where
  | never (silent : d.lastHalted = none) (void : last = none)
  | noted (id : ContextId) (known : id < d.contexts.size) (live : (d.context id).dead = false)
      (number : d.lastHalted = some (d.context id).number)
      (latest : last = some id ∨ (last = none ∧ ∀ thread, d.contextOf? thread ≠ some id))

theorem Recorded.lastContext {last : Option ContextId} (recorded : d.Recorded last) (h : d.Regular)
    {session : Session} (active : d.session = some session) :
    d.lastContext = .ok (last.filter fun id => session.table.entries.any (·.2 == id)) := by
  have read : d.lastContext = .ok (d.lastHalted.bind (d.numbered? session)) := by
    simp only [Debugger.lastContext, activeSession, active]
    rfl
  rw [read]
  cases recorded with
  | never silent void =>
      rw [silent, void]
      rfl
  | noted id known live number latest =>
      rw [number, Option.bind_some, h.numbered?_eq active known live]
      rcases latest with rfl | ⟨rfl, gone⟩
      · rfl
      · rw [if_neg fun tracked => gone _ ((h.tracked_iff active).mp tracked)]
        rfl

end Debugger

namespace World

open Debugger (Recorded)

variable {w w' w₀ : World} {s : Nat} {move : Move} {act : Act} {id : ContextId} {last : Option ContextId}
  {allowed : World → Nat → Act → Prop}

/-! ## Runs and their last halts -/

/-- Runs with the context of their latest halt in the current activation. -/
inductive Latest (w₀ : World) : Option ContextId → World → Prop where
  | refl : Latest w₀ none w₀
  | halts {w w' : World} {last : Option ContextId} {s : Nat} {move : Move} {id : ContextId} (latest : Latest w₀ last w)
      (halts : w.Halts s move w' id) : Latest w₀ (some id) w'
  | begins {w w' : World} {last : Option ContextId} {s : Nat} {act : Act} (latest : Latest w₀ last w)
      (acts : w.Acts s act w') (another : w'.activation ≠ w.activation) : Latest w₀ none w'
  | passes {w w' : World} {last : Option ContextId} {s : Nat} {act : Act} (latest : Latest w₀ last w)
      (acts : w.Acts s act w') (same : w'.activation = w.activation)
      (silent : ∀ move id, act = .move move → ¬ w.Halts s move w' id) : Latest w₀ last w'

theorem Latest.course (latest : w₀.Latest last w) : Course Anything w₀ w := by
  induction latest with
  | refl => exact .refl w₀
  | halts _ halts ih => exact ih.step (.move halts.step) trivial
  | begins _ acts _ ih => exact ih.step acts trivial
  | passes _ acts _ _ ih => exact ih.step acts trivial

theorem Course.latest (course : Course allowed w₀ w) : ∃ last, w₀.Latest last w := by
  induction course with
  | refl => exact ⟨none, .refl⟩
  | @step w w' s act course acts ok ih =>
      obtain ⟨last, latest⟩ := ih
      by_cases same : w'.activation = w.activation
      · by_cases halts : ∃ move id, act = .move move ∧ w.Halts s move w' id
        · obtain ⟨move, id, -, halts⟩ := halts
          exact ⟨some id, latest.halts halts⟩
        · exact ⟨last, latest.passes acts same fun move id is halted => halts ⟨move, id, is, halted⟩⟩
      · exact ⟨none, latest.begins acts same⟩

/-! ## Steps that do not halt -/

theorem Step.lastHalted (step : w.Step s move w') (other : move.isDispatch = false) :
    w'.debugger.lastHalted = w.debugger.lastHalted := by
  cases step with
  | arrive event free =>
      rw [debugger_arrive]
      exact (w.debugger.edits_arrive s event).remains.lastHalted
  | ask | awake =>
      rw [debugger_contend]
      exact (w.debugger.edits_contend s _ _ _).remains.lastHalted
  | dispatch | answer => cases other
  | release => exact (w.debugger.edits_release s).remains.lastHalted
  | request request free =>
      cases restricted : request.isRestricted with
      | false => exact (request.edits s w.debugger restricted).remains.lastHalted
      | true => exact (request.turns s w.debugger restricted).lastHalted
  | enterPostMortem free =>
      rw [debugger_inspect]
      exact (w.debugger.edits_enterPostMortem s).remains.lastHalted
  | leavePostMortem => exact (w.debugger.edits_leavePostMortem s _).remains.lastHalted
  | fail | execute | register | begin | exit => rfl

theorem Acts.lastHalted (acts : w.Acts s act w') (lodged : w.Lodged)
    (silent : ∀ move id, act = .move move → ¬ w.Halts s move w' id) :
    w'.debugger.lastHalted = w.debugger.lastHalted := by
  cases acts with
  | move step =>
      rename_i move
      cases dispatches : move.isDispatch with
      | false => exact step.lastHalted dispatches
      | true =>
          obtain ⟨task, rest, piece, is, rfl⟩ := step.piece dispatches
          have known := (lodged.home s task (mem_innermost is.tasks) (Stage.not_isInspecting_of_holds is.holds)).1
          have notes : Debugger.Notes task.context w.debugger piece := by
            cases is with
            | dispatch tasks stage => exact Debugger.notes_dispatch known s _
            | answer tasks stage => exact Debugger.notes_run known s _
          have quiet : piece.1.isHalt = false := by
            refine eq_false_of_ne_true fun halts => ?_
            obtain ⟨outcome, d⟩ := piece
            cases outcome with
            | done => cases halts
            | call callback next =>
                cases callback with
                | line id position => exact silent move id rfl (halts_proceed step dispatches rfl)
                | _ => cases halts
          rw [Debugger.Notes, quiet] at notes
          exact notes
  | load stop => exact (w.debugger.edits_prepareLoad s stop).remains.lastHalted
  | meet => exact (w.debugger.edits_currentContext s).remains.lastHalted
  | skip | keep => rfl

/-! ## The latest halt is recorded -/

theorem Halts.activation (halts : w.Halts s move w' id) : w'.activation = w.activation := by
  refine (Acts.move halts.step).activation fun start => ?_
  cases start
  cases halts.dispatches

theorem Acts.ended_of_begins (acts : w.Acts s act w') (another : w'.activation ≠ w.activation) :
    w.debugger.session = none := by
  by_contra active
  refine another (acts.activation_become.trans (World.activation_become (.inl ?_)))
  exact (session_isSome_iff _).mp (Option.isSome_iff_ne_none.mpr active)

theorem recorded_of_acts (acts : w.Acts s act w') (lodged : w.Lodged)
    (silent : ∀ move id, act = .move move → ¬ w.Halts s move w' id) (recorded : w.debugger.Recorded last) :
    w'.debugger.Recorded last ∧ (w.debugger.session = none → w'.debugger.Recorded none) := by
  have same := acts.lastHalted lodged silent
  cases recorded with
  | never silent void => exact ⟨.never (same.trans silent) void, fun _ => .never (same.trans silent) rfl⟩
  | noted id known live number latest =>
      have label := (acts.history lodged).label known
      have known' := Nat.lt_of_lt_of_le known acts.lodges.size
      have live' := (congrArg (·.2.2) label).trans live
      have number' := (same.trans number).trans (congrArg (some ·.2.1) label.symm)
      have gone (before : ∀ thread, w.debugger.contextOf? thread ≠ some id) (thread : Thread) :
          w'.debugger.contextOf? thread ≠ some id := by
        intro found
        rcases acts.lodges.origin lodged.tracked found with old | new
        · exact before thread old
        · exact absurd known (Nat.not_lt.mpr new)
      refine ⟨.noted id known' live' number' ?_, fun ended => .noted id known' live' number' (.inr ⟨rfl, gone ?_⟩)⟩
      · exact latest.imp_right fun ⟨void, absent⟩ => ⟨void, gone absent⟩
      · intro thread found
        rw [Debugger.contextOf?, ended] at found
        cases found

theorem Halts.recorded (halts : w.Halts s move w' id) (heard : w.Heard first) : w'.debugger.Recorded (some id) := by
  obtain ⟨task, rest, piece, position, is, rfl, rfl, outcome⟩ := halts.piece
  have member := mem_innermost is.tasks
  have event := Stage.not_isInspecting_of_holds is.holds
  have known := (heard.lodged.home s task member event).1
  have live := (heard.attends s task member event).2.1
  have traits := is.traits known
  have notes : Debugger.Notes task.context w.debugger piece := by
    cases is with
    | dispatch tasks stage => exact Debugger.notes_dispatch known s _
    | answer tasks stage => exact Debugger.notes_run known s _
  rw [Debugger.Notes, outcome, Outcome.isHalt, if_pos rfl] at notes
  refine .noted task.context (Nat.lt_of_lt_of_le known (Acts.move halts.step).lodges.size)
    ((congrArg (·.2.2.2.2.2.2.1) traits).trans live) ?_ (.inl rfl)
  exact notes.trans (congrArg (some ·.2.1) traits.symm)

theorem Latest.recorded (latest : w₀.Latest last w) (heard : w₀.Heard first) (silent : w₀.debugger.lastHalted = none) :
    w.debugger.Recorded last := by
  induction latest with
  | refl => exact .never silent rfl
  | halts latest halts ih => exact halts.recorded (latest.course.heard heard)
  | begins latest acts another ih =>
      have lodged := (latest.course.heard heard).lodged
      refine (recorded_of_acts acts lodged (fun move id is halts => ?_) ih).2 (acts.ended_of_begins another)
      exact another halts.activation
  | passes latest acts same quiet ih => exact (recorded_of_acts acts (latest.course.heard heard).lodged quiet ih).1

/-! ## The context that is found -/

theorem Course.origin (course : Course allowed w w') (lodged : w.Lodged) {thread : Thread}
    (found : w'.debugger.contextOf? thread = some id) :
    w.debugger.contextOf? thread = some id ∨ w.debugger.contexts.size ≤ id := by
  induction course with
  | refl => exact .inl found
  | step course next ok ih =>
      rcases next.lodges.origin (course.lodged lodged).tracked found with old | new
      · exact ih old
      · exact .inr (Nat.le_trans (course.history lodged).size new)

theorem regular_built (settings : Settings) {host : Host} (own : host.OwnThreads) (listed : host.Listed) :
    (built settings host).debugger.Regular where
  numbered := Debugger.renames_built settings listed
  keyed := Debugger.keyed_of_empty (.inl rfl)
  registered bound := own.registered bound

theorem filter_of_edits {d d' : Debugger} (edits : d.Edits s d') (recorded : d.Recorded last) (regular : d.Regular)
    (regular' : d'.Regular) {session session' : Session} (active : d.session = some session)
    (active' : d'.session = some session') :
    last.filter (fun id => session'.table.entries.any (·.2 == id)) =
        last.filter (fun id => session.table.entries.any (·.2 == id)) ∨
      ∃ id, last.filter (fun id => session.table.entries.any (·.2 == id)) = some id ∧
        d.host.isAlive (d.context id).thread = false ∧
        last.filter (fun id => session'.table.entries.any (·.2 == id)) = none := by
  have remains := edits.remains
  have well := regular.numbered.wellTracked.1
  cases last with
  | none => exact .inl rfl
  | some id =>
      cases recorded with
      | never silent void => cases void
      | noted own known live number latest =>
          obtain rfl : id = own := Option.some.inj (latest.resolve_right fun gone => by cases gone.1)
          have thread : (d'.context id).thread = (d.context id).thread := congrArg (·.1) (remains.identity id known)
          have kept := thread ▸ (regular'.tracked_iff active' : _ ↔ d'.contextOf? (d'.context id).thread = some id)
          simp only [Option.filter_some, regular.tracked_iff active, kept]
          by_cases found : d.contextOf? (d.context id).thread = some id
          · by_cases found' : d'.contextOf? (d.context id).thread = some id
            · exact .inl ((if_pos found').trans (if_pos found).symm)
            · refine .inr ⟨id, if_pos found, eq_false_of_ne_true fun alive => ?_, if_neg found'⟩
              exact found' (remains.found well alive found)
          · refine .inl ((if_neg fun found' => ?_).trans (if_neg found).symm)
            rcases remains.origin well found' with old | new
            · exact found old
            · exact absurd known (Nat.not_lt.mpr new)

/-- A thread begins or ends the inspection of an exception. -/
def Inspects (w : World) (s : Nat) (w' : World) : Prop := w.Step s .enterPostMortem w' ∨ w.Step s .leavePostMortem w'

theorem Inspects.edits (inspects : w.Inspects s w') : w.debugger.Edits s w'.debugger := by
  rcases inspects with step | step
  · cases step with
    | enterPostMortem free =>
        rw [debugger_inspect]
        exact w.debugger.edits_enterPostMortem s
  · cases step with
    | leavePostMortem => exact w.debugger.edits_leavePostMortem s _

theorem Inspects.latest (inspects : w.Inspects s w') (latest : w₀.Latest last w) : w₀.Latest last w' := by
  rcases inspects with step | step
  all_goals
    refine latest.passes (.move step) ((Acts.move step).activation fun start => by cases start) ?_
    rintro _ _ ⟨⟩ halts
    cases halts.dispatches

/-- In every run, over any number of activations and whatever threads do, the context that halted last is that of the
latest halt of the activation, if it is still in the table, and none otherwise. It is the context of its thread, and
was made since the debugger was last inactive. An inspection of an exception leaves it alone, unless its thread
exited: then the inspection may take it out of the table. -/
theorem lastContext_of_latest {settings : Settings} {host : Host} (own : host.OwnThreads) (listed : host.Listed)
    (latest : (built settings host).Latest last w) :
    (∀ session ∈ w.debugger.session, w.debugger.lastContext =
        .ok (last.filter fun id => session.table.entries.any (·.2 == id))) ∧
      (∀ id, w.debugger.lastContext = .ok (some id) →
        w.debugger.contextOf? (w.debugger.context id).thread = some id ∧
        ∀ w₁, Course Anything (built settings host) w₁ → Course Anything w₁ w → w₁.debugger.session = none →
          w₁.debugger.contexts.size ≤ id) ∧
      (∀ s w', w.Inspects s w' → w'.debugger.lastContext = w.debugger.lastContext ∨
        ∃ id, w.debugger.lastContext = .ok (some id) ∧
          w.debugger.host.isAlive (w.debugger.context id).thread = false ∧
          w'.debugger.lastContext = .ok none) := by
  have heard₀ : (built settings host).Heard 0 := Heard.of_ended (w := built settings host) (fun _ => rfl) own rfl
  have regular {w : World} (course : Course Anything (built settings host) w) : w.debugger.Regular :=
    (course.history heard₀.lodged).regular (regular_built settings own listed)
  have recorded := latest.recorded heard₀ rfl
  have read {w : World} (latest : (built settings host).Latest last w) {session : Session}
      (active : w.debugger.session = some session) :=
    (latest.recorded heard₀ rfl).lastContext (regular latest.course) active
  refine ⟨fun session active => read latest active, fun id found => ?_, fun s w' inspects => ?_⟩
  · obtain ⟨session, active⟩ : ∃ session, w.debugger.session = some session := by
      obtain ⟨session, active, _⟩ := except_bind_eq_ok found
      exact ⟨session, Debugger.activeSession_eq_ok active⟩
    have tracked := (Option.filter_eq_some_iff.mp (Except.ok.inj ((read latest active).symm.trans found))).2
    have tracked := ((regular latest.course).tracked_iff active).mp tracked
    refine ⟨tracked, fun w₁ reached since ended => ?_⟩
    refine (since.origin (reached.heard heard₀).lodged tracked).resolve_left fun old => ?_
    rw [Debugger.contextOf?, ended] at old
    cases old
  · have started := inspects.edits.remains.started
    cases active : w.debugger.session with
    | none =>
        have inactive : w'.debugger.session.isSome = false := started.trans (congrArg Option.isSome active)
        have ended := Option.isNone_iff_eq_none.mp (Option.isSome_eq_false_iff.mp inactive)
        left
        simp only [Debugger.lastContext, Debugger.activeSession, active, ended]
        rfl
    | some session =>
        obtain ⟨session', active'⟩ : ∃ session', w'.debugger.session = some session' :=
          Option.isSome_iff_exists.mp (started.trans (congrArg Option.isSome active))
        rw [read latest active, read (inspects.latest latest) active']
        rcases filter_of_edits inspects.edits recorded (regular latest.course) (regular (inspects.latest latest).course)
          active active' with same | ⟨id, found, exited, gone⟩
        · exact .inl (congrArg _ same)
        · exact .inr ⟨id, congrArg _ found, exited, congrArg _ gone⟩

def untilHalt : List (Nat × Act) :=
  let moves : List Move := [.request (.debugger .start), .request (.debugger .interrupt), .arrive bareLine, .ask]
  moves.map fun move => (0, .move move)

theorem finds_halted_context : ∃ w, (built .standard .initial).Latest (some 0) w ∧
    w.debugger.lastContext = .ok (some 0) := by
  let before := unstarted.afterwards untilHalt
  let after := before.afterwards [(0, .move .dispatch)]
  obtain ⟨_, latest⟩ := (course_afterwards unstarted untilHalt).latest
  have acts : before.Acts 0 (.move .dispatch) after := acts_of_perform? rfl
  have step : before.Step 0 .dispatch after := by
    cases acts with
    | move step => exact step
  have halts : before.Halts 0 .dispatch after 0 := ⟨step, rfl, _, rfl, _, _, rfl⟩
  have latest := latest.halts halts
  refine ⟨after, latest, ?_⟩
  exact (lastContext_of_latest Host.ownThreads_initial Host.listed_initial latest).1 _ rfl

def departed : World :=
  unstarted.afterwards [(0, .move (.request (.debugger .start))), (0, .meet), (0, .move (.register "worker")),
    (1, .move (.begin ⟨2, "worker"⟩)), (1, .move (.request (.debugger .interrupt))), (1, .move (.arrive bareLine)),
    (1, .move .ask), (1, .move .dispatch), (1, .move .answer), (1, .move .release), (1, .move .exit)]

/-- The inspection of an exception takes the context of a thread that exited out of the table. -/
theorem inspection_loses_last : ∃ last w', (built .standard .initial).Latest last departed ∧ departed.Inspects 0 w' ∧
    departed.debugger.lastContext = .ok (some 1) ∧ w'.debugger.lastContext = .ok none := by
  have course : Course Anything (built .standard .initial) departed := course_afterwards _ _
  obtain ⟨last, latest⟩ := course.latest
  have acts : departed.Acts 0 (.move .enterPostMortem) (departed.inspect 0) := acts_of_perform? rfl
  refine ⟨last, departed.inspect 0, latest, .inl ?_, rfl, rfl⟩
  cases acts with
  | move step => exact step

end World

end EventDebugger
