import EventDebugger.Proofs.Ticket.EarlyCommands
import EventDebugger.Proofs.Ticket.Searching

/-!
# Progress between halts on breakpoints

A halt with a frame remembers its position, and a context looks for breakpoints only once an event had another
position since then. The flag that says so is set by events of every kind, and only a halt with a frame clears
it.

* `World.progress_between_halts`: between a halt and the next one that a breakpoint causes.
-/

namespace EventDebugger

open Debugger (Found)

def Event.Leaves (event : Event) (halt : Position) : Prop :=
  ∃ position, event.position = some position ∧ position ≠ halt

def Continuation.reportsBreakpoint : Continuation → Bool
  | .breakpointReported .. => true
  | _ => false

namespace Context

structure Follows (halt : Position) (events : List Event) (context : Context) : Prop where
  last : context.lastPosition = some halt
  moved : context.moved ↔ ∃ event ∈ events, event.Leaves halt

variable {halt : Position} {events : List Event} {context : Context}

theorem inert_follows (halt : Position) (events : List Event) : Inert (Follows halt events) where
  tolerant := ⟨fun h _ _ _ => ⟨h.last, h.moved⟩, fun _ _ _ h => ⟨h.last, h.moved⟩⟩
  unstepped h _ _ _ _ _ _ := ⟨h.last, h.moved⟩
  bare h := ⟨h.last, h.moved⟩
  skips h _ := ⟨h.last, h.moved⟩

theorem untemporary_follows (halt : Position) (events : List Event) : Untemporary (Follows halt events) :=
  fun h _ _ => ⟨h.last, h.moved⟩

theorem savePosition_of_empty (empty : context.savePosition.stack = []) : context.savePosition = context := by
  cases stack : context.stack with
  | nil => simp only [savePosition, stack]
  | cons frame rest => simp [savePosition, stack] at empty

theorem moved_savePosition (framed : context.savePosition.stack ≠ []) : context.savePosition.moved = false := by
  cases stack : context.stack with
  | nil => simp [savePosition, stack] at framed
  | cons frame rest => simp only [savePosition, stack]

theorem Follows.congr {context' : Context} (h : context.Follows halt events) (moved : context'.moved = context.moved)
    (last : context'.lastPosition = context.lastPosition) : context'.Follows halt events :=
  ⟨last.trans h.last, moved ▸ h.moved⟩

theorem Follows.noteEvent (h : context.Follows halt events) (event : Event) :
    (context.noteEvent event.position event.kind.isLine).Follows halt (events ++ [event]) := by
  refine ⟨h.last, ?_⟩
  have leaves : (event.position.isSome && event.position != context.lastPosition) ↔ event.Leaves halt := by
    rw [h.last, Event.Leaves]
    cases event.position with
    | none => simp
    | some position => simp
  simp only [Context.noteEvent, Bool.or_eq_true, h.moved, leaves, List.mem_append, List.mem_singleton, or_and_right,
    exists_or, exists_eq_left]

theorem Follows.noting (h : context.Follows halt events) (later : List Event) :
    (context.noting later).Follows halt (events ++ later) := by
  induction later generalizing context events with
  | nil => rwa [List.append_nil]
  | cons event later ih =>
      rw [List.append_cons]
      exact ih (h.noteEvent event)

end Context

namespace World

variable {w w' w₀ w₁ w₂ w₃ : World} {s s' : Nat} {move move' : Move} {act : Act} {id : ContextId} {halt : Position}
  {events : List Event} {allowed : World → Nat → Act → Prop} {task : Task} {rest : List Task}
  {piece : Outcome × Debugger}

open Context (Follows)

def Stays (id : ContextId) (w : World) (s : Nat) (act : Act) : Prop :=
  ∀ move w', act = .move move → w.Halts s move w' id → (w'.debugger.context id).stack = []

theorem Silent.stays (silent : Silent id w s act) : Stays id w s act :=
  fun move w' is halts => absurd halts (silent move w' is)

end World

theorem Ends.follows {search : Option Search} {system : Nat} {id : ContextId} {before : Context}
    {piece : Outcome × Debugger} {halt : Position} {events : List Event} (ends : Ends search system id before piece)
    (follows : before.Follows halt events)
    (stays : Debugger.HaltsOn id piece → (piece.2.context id).stack = []) :
    (piece.2.context id).Follows halt events := by
  have unsaved {halting : Context} {d : Debugger} (saved : d.context id = halting.savePosition)
      (empty : (d.context id).stack = []) : d.context id = halting :=
    saved.trans (Context.savePosition_of_empty (saved ▸ empty))
  cases ends with
  | passed missed quiet same =>
      simp only [Context.marks, Prod.mk.injEq] at same
      exact follows.congr same.1 same.2.1
  | halted unsought halting same saved =>
      simp only [Context.marks, Prod.mk.injEq] at same
      rw [unsaved saved (stays ⟨_, _, rfl⟩)]
      exact follows.congr same.1 same.2.1
  | reported sought hit same reason undue =>
      simp only [Context.marks, Prod.mk.injEq] at same
      exact follows.congr same.1 same.2.1
  | fired sought hit halting same saved =>
      simp only [Context.marks, Prod.mk.injEq] at same
      rw [unsaved saved (stays ⟨_, _, rfl⟩)]
      exact follows.congr same.1 same.2.1

theorem Ends.unmoved {search : Option Search} {system : Nat} {id : ContextId} {before : Context}
    {piece : Outcome × Debugger} (ends : Ends search system id before piece) {position : Position} {next : Continuation}
    (halts : piece.1 = .call (.line id position) next) (frames : (piece.2.context id).stack ≠ []) :
    (piece.2.context id).moved = false := by
  cases ends with
  | halted unsought halting same saved | fired sought hit halting same saved =>
      have kept : (halting.savePosition).moved = false := Context.moved_savePosition (saved ▸ frames)
      exact saved ▸ kept
  | passed missed quiet same =>
      cases halts
      cases quiet
  | reported => cases halts

theorem Ends.sought_of_report {search : Option Search} {system : Nat} {id : ContextId} {before : Context}
    {piece : Outcome × Debugger} (ends : Ends search system id before piece) (about : piece.1.About id)
    {callback : Callback} {next : Continuation} (calls : piece.1 = .call callback next)
    (reports : next.reportsBreakpoint) : ∃ at' bp, search = some at' ∧ at'.hit? system id = some (.listed bp) ∧
      (piece.2.context id).reason = .breakpoint := by
  cases ends with
  | passed missed quiet same =>
      obtain rfl : _ = Outcome.call callback next := calls
      cases about with
      | breakpoint => cases quiet
      | traced | catchpoint | halted => cases reports
  | reported sought hit same reason undue => exact ⟨_, _, sought, hit, reason⟩
  | halted | fired =>
      cases calls
      cases reports

namespace World

variable {w w' w₀ w₁ w₂ w₃ : World} {s s' : Nat} {move move' : Move} {act : Act} {id : ContextId} {halt : Position}
  {events : List Event} {allowed : World → Nat → Act → Prop} {task : Task} {rest : List Task}
  {piece : Outcome × Debugger}

open Context (Follows)

theorem Acts.follows (acts : w.Acts s act w') (known : id < w.debugger.contexts.size)
    (follows : (w.debugger.context id).Follows halt events) (stays : Stays id w s act) :
    (w'.debugger.context id).Follows halt (events ++ heeds id w s act) := by
  cases acts.involves known with
  | piece is own leads =>
      subst own leads
      cases acts with
      | move step =>
          refine (is.ends known).follows (follows.noting _) ?_
          rintro ⟨position, next, outcome⟩
          exact stays _ _ rfl (halts_proceed step is.isDispatch outcome)
  | apart unheeded idle keeps called =>
      rw [unheeded, List.append_nil]
      exact keeps (Context.inert_follows halt events) (.inl (Context.untemporary_follows halt events)) follows

theorem Piece.follows_search (is : w.Piece s move task rest piece) (known : task.context < w.debugger.contexts.size)
    (follows : (w.debugger.context task.context).Follows halt events) {search : Search}
    (sought : w.search? s move task.context = some search) :
    (search.debugger.context task.context).Follows halt (events ++ heeds task.context w s (.move move)) := by
  have same := is.marks_search known sought
  simp only [Context.marks, Prod.mk.injEq] at same
  have noted := follows.noting (heeds task.context w s (.move move))
  exact noted.congr same.1 same.2.1

theorem Piece.leaves_of_hit (is : w.Piece s move task rest piece) (known : task.context < w.debugger.contexts.size)
    (follows : (w.debugger.context task.context).Follows halt events) {search : Search} {found : Found}
    (sought : w.search? s move task.context = some search) (hit : search.hit? s task.context = some found) :
    ∃ event ∈ events ++ heeds task.context w s (.move move), event.Leaves halt :=
  (is.follows_search known follows sought).moved.mp (Search.moved_of_hit hit)

/-! ## Since a halt -/

/-- What holds of a context since a halt at a position: what decides about breakpoints, and that breakpoints that
the front-end was told of were found after an event with another position. -/
structure Progressing (id : ContextId) (halt : Position) (w : World) (events : List Event) : Prop where
  known : id < w.debugger.contexts.size
  follows : (w.debugger.context id).Follows halt events
  told : w.Remaining (fun next => next.reportsBreakpoint → ∃ event ∈ events, event.Leaves halt) id

theorem Progressing.acts (h : Progressing id halt w events) (acts : w.Acts s act w') (stays : Stays id w s act) :
    Progressing id halt w' (events ++ heeds id w s act) := by
  refine ⟨acts.known h.known, acts.follows h.known h.follows stays, ?_⟩
  have told : w.Remaining
      (fun next => next.reportsBreakpoint → ∃ event ∈ events ++ heeds id w s act, event.Leaves halt) id := by
    intro s task member own callback next stage reports
    obtain ⟨event, noted, leaves⟩ := h.told s task member own stage reports
    exact ⟨event, List.mem_append_left _ noted, leaves⟩
  cases acts.involves h.known with
  | piece is own leads =>
      subst own leads
      refine told.proceed is.tasks fun _ callback next calls reports => ?_
      obtain ⟨search, bp, sought, hit, -⟩ := (is.ends h.known).sought_of_report is.about calls reports
      exact is.leaves_of_hit h.known h.follows sought hit
  | apart unheeded idle keeps called => exact told.apart called

theorem Noted.progressing (noted : Noted allowed (heeds id) w events w') (h : Progressing id halt w [])
    (stays : ∀ {w s act}, allowed w s act → Stays id w s act) : Progressing id halt w' events := by
  induction noted with
  | refl => exact h
  | step noted next ok ih => exact ih.acts next (stays ok)

/-! ## The halt -/

theorem Halts.framed (h : w.Halts s move w' id) (lodged : w.Lodged) (frames : (w'.debugger.context id).stack ≠ []) :
    ¬ w.ReportsUnframed s := by
  obtain ⟨task, rest, piece, position, is, rfl, rfl, outcome⟩ := h.piece
  have member := mem_innermost is.tasks
  have known := (lodged.home s task member (Stage.not_isInspecting_of_holds is.holds)).1
  rintro ⟨first, head, callback, next, stage, report, empty⟩
  rw [is.tasks] at head
  cases head
  cases is with
  | dispatch tasks admitted => cases admitted.symm.trans stage
  | answer tasks called =>
      cases called.symm.trans stage
      have same := (Debugger.leaves_run known s next).outline
      rw [Context.outline, Context.outline, empty] at same
      exact frames (List.map_eq_nil_iff.mp same)

theorem Halts.progressing (h : w.Halts s move w' id) (framed : w.Framed)
    (frames : (w'.debugger.context id).stack ≠ []) (first : task ∈ (w'.tasks s).head?) {next : Continuation}
    (stage : task.stage = .called (.line id halt) next) : Progressing id halt w' [] := by
  have at' := framed.haltedAt h (h.framed framed.lodged frames) first stage
  obtain ⟨task', rest, piece, position, is, rfl, rfl, outcome⟩ := h.piece
  have member := mem_innermost is.tasks
  have event := Stage.not_isInspecting_of_holds is.holds
  have known := (framed.lodged.home s task' member event).1
  have known' := h.step.known known
  have moved := (is.ends known).unmoved outcome frames
  refine ⟨known', ⟨at'.saved, ?_⟩, fun s' other member' own callback next stage => ?_⟩
  · change (piece.2.context task'.context).moved ↔ _
    simp [moved]
  · have same : s' = s := by
      by_contra ne
      rw [World.proceed, tasks_set_ne _ ne] at member'
      refine framed.lodged.apart ne member event member' ?_ own
      rw [stage]
      rfl
    subst same
    have short := framed.single s'
    rw [is.tasks, List.length_cons] at short
    obtain rfl : rest = [] := List.eq_nil_of_length_eq_zero (by omega)
    rw [tasks_proceed] at member'
    obtain rfl := List.mem_singleton.mp member'
    rw [outcome] at stage
    cases stage
    intro reports
    cases reports

/-- A halt is caused by a breakpoint: the front-end was told of a persistent one, or the temporary one is hit. -/
def HitsBreakpoint (w : World) (s : Nat) (move : Move) (id : ContextId) : Prop :=
  (∃ task ∈ (w.tasks s).head?, ∃ callback next, task.stage = .called callback next ∧ next.reportsBreakpoint) ∨
    ∃ bp number, w.hit? s move id = some (.temporary bp number)

theorem Progressing.leaves_of_halt (h : Progressing id halt w events) (halts : w.Halts s move w' id)
    (hits : w.HitsBreakpoint s move id) : ∃ event ∈ events ++ heeds id w s (.move move), event.Leaves halt := by
  obtain ⟨task, rest, piece, position, is, rfl, rfl, outcome⟩ := halts.piece
  rcases hits with ⟨first, head, callback, next, stage, reports⟩ | ⟨bp, number, hit⟩
  · rw [is.tasks] at head
    cases head
    obtain ⟨event, noted, leaves⟩ := h.told s task (mem_innermost is.tasks) rfl stage reports
    exact ⟨event, List.mem_append_left _ noted, leaves⟩
  · obtain ⟨search, sought, hit⟩ := Option.bind_eq_some_iff.mp hit
    exact is.leaves_of_hit h.known h.follows sought hit

theorem Progressing.stops_iff (h : Progressing id halt w events) (step : w.Step s move w') {search : Search}
    (sought : w.search? s move id = some search) :
    (w.Halts s move w' id ∨ ∃ bp, w.Reports s move w' id bp) ↔
      (∃ event ∈ events ++ heeds id w s (.move move), event.Leaves halt) ∧
        ∃ bp, (search.debugger.breakpointsFor id).find? search.meets = some bp ∧
          search.debugger.guardHoldsFor s search.receiver bp := by
  cases step.involves h.known with
  | piece is own leads =>
      subst own leads
      have follows := is.follows_search h.known h.follows sought
      have ends := is.ends h.known
      rw [sought] at ends
      rw [is.stops_iff step, ends.stops_iff, ← follows.moved]
      constructor
      · intro hits
        obtain ⟨found, hit⟩ := Option.isSome_iff_exists.mp hits
        have moved := Search.moved_of_hit hit
        exact ⟨moved, (Search.isSome_hit?_iff moved).mp hits⟩
      · rintro ⟨moved, first⟩
        exact (Search.isSome_hit?_iff moved).mpr first
  | apart unheeded idle keeps called => cases (idle move rfl).1.symm.trans sought

/-- A context that halted with a frame halts next on a breakpoint only if it dispatched an event with another
position since then, or that of the halt itself has one. Once there was such an event, every line on which no
step is due and every call halts on the first breakpoint that it meets, if the guard holds, or reports it first,
whatever the position is. -/
theorem progress_between_halts {w₄ : World} {next : Continuation} (idle : ∀ s, w₀.tasks s = [])
    (own : w₀.debugger.host.OwnThreads) (tracked : w₀.debugger.WellTracked) (before : Course Plain w₀ w₁)
    (first : w₁.Halts s move w₂ id) (frames : (w₂.debugger.context id).stack ≠ [])
    (head : task ∈ (w₂.tasks s).head?) (stage : task.stage = .called (.line id halt) next)
    (since : Noted (fun w s act => w.Plain s act ∧ Silent id w s act) (heeds id) w₂ events w₃)
    (second : w₃.Step s' move' w₄) :
    let progressed := ∃ event ∈ events ++ heeds id w₃ s' (.move move'), event.Leaves halt
    (w₃.Halts s' move' w₄ id → w₃.HitsBreakpoint s' move' id → progressed) ∧
      ∀ search, w₃.search? s' move' id = some search →
        ((w₃.Halts s' move' w₄ id ∨ ∃ bp, w₃.Reports s' move' w₄ id bp) ↔
          progressed ∧ ∃ bp, (search.debugger.breakpointsFor id).find? search.meets = some bp ∧
            search.debugger.guardHoldsFor s' search.receiver bp) := by
  have framed := before.framed (Framed.of_idle idle own tracked)
  have h := since.progressing (first.progressing framed frames head stage) fun ok => ok.2.stays
  exact ⟨h.leaves_of_halt, fun search sought => h.stops_iff second sought⟩

def toFirstLine : List Move :=
  [.answer, .release] ++ Move.ofEvent (lineOf 2) ++ [.arrive (lineOf 1), .ask, .dispatch]

def haltedOnFirst : World := toldOfLine.afterwards (ofFirst [.answer])

def backOnFirst : World := haltedOnFirst.afterwards (ofFirst toFirstLine)

theorem halts_again_after_progress :
    toldOfLine.Halts 0 .answer haltedOnFirst 0 ∧
      Noted (fun w s act => w.Plain s act ∧ Silent 0 w s act) (heeds 0) haltedOnFirst [lineOf 2, lineOf 1] backOnFirst ∧
      backOnFirst.Halts 0 .answer (backOnFirst.afterwards (ofFirst [.answer])) 0 ∧
      ∃ event ∈ [lineOf 2, lineOf 1], event.Leaves ⟨"a.rb", 1⟩ := by
  have before : Course Plain unstarted toldOfLine := by
    apply course_of_follow? (ofFirst [.request (.debugger .start),
      .request (.debugger (.addBreakpoint "a.rb" (.line 1) none)), .arrive (lineOf 1), .ask, .dispatch])
    rfl
  have first : toldOfLine.Halts 0 .answer haltedOnFirst 0 :=
    ⟨step_of_perform? rfl, rfl, _, rfl, ⟨"a.rb", 1⟩, .resumed, rfl⟩
  have since : Noted (fun w s act => w.Plain s act ∧ Silent 0 w s act) (heeds 0) haltedOnFirst [lineOf 2, lineOf 1]
      backOnFirst := by
    have followed : haltedOnFirst.follow? (fun w s act => w.Plain s act ∧ CallsNoLine 0 w s act)
      (ofFirst toFirstLine) = some backOnFirst := rfl
    exact Noted.follow _ .refl (fun _ _ _ ok => ⟨ok.1, silent_of_callsNoLine ok.2⟩) followed
  have second : backOnFirst.Halts 0 .answer (backOnFirst.afterwards (ofFirst [.answer])) 0 :=
    ⟨step_of_perform? rfl, rfl, _, rfl, ⟨"a.rb", 1⟩, .resumed, rfl⟩
  have progressed := (progress_between_halts (fun _ => rfl) Host.ownThreads_initial (.of_ended rfl) before first
    (by decide) rfl rfl since second.step).1 second (.inl ⟨_, rfl, _, _, rfl, rfl⟩)
  rw [heeds_eq_nil rfl, List.append_nil] at progressed
  exact ⟨first, since, second, progressed⟩

end World

end EventDebugger
