import EventDebugger.Proofs.Dispatch.Reasons
import EventDebugger.Proofs.Replay.Following
import EventDebugger.Proofs.Ticket.Halts
import EventDebugger.Proofs.Ticket.Spared

/-!
# Reasons and halts

The reason of a context tells its last halt, whatever threads do, in any order: whether a breakpoint or an
exception was reported in the same event. It is wrong after a line that meets a breakpoint whose guard
fails, after a halt on a temporary breakpoint of a method, and after a report that fails.

* `World.reason_of_last_halt`: runs in which none of these happens.
* `World.reason_without_halt`: a context that never halted, whose reason tells a step.
-/

namespace EventDebugger

/-- The reason of a context is the given one, unless the context is the copy for a post-mortem. -/
def Context.Tells (reason : StopReason) (context : Context) : Prop :=
  context.dead = true ∨ context.reason = reason

def Stage.cause : Stage → StopReason
  | .called (.breakpoint _ _) _ => .breakpoint
  | .called (.catchpoint _ _) _ => .catchpoint
  | _ => .step

theorem Stage.cause_of_unannounced {stage : Stage} (unannounced : ¬ stage.announces) : stage.cause = .step := by
  rcases stage with _ | _ | _ | ⟨_ | _ | _ | _, _⟩ | _ | _
  all_goals first | rfl | exact absurd rfl unannounced

/-- The halts of a run, the last one first: the contexts and the reasons. -/
abbrev History := List (ContextId × StopReason)

def History.last (history : History) (id : ContextId) : StopReason := (history.lookup id).getD .initial

theorem Context.Tells.map {reason reason' : StopReason} {context context' : Context}
    (h : context.Tells reason) (dead : context'.dead = context.dead)
    (same : context.reason = reason → context'.reason = reason') : context'.Tells reason' :=
  Or.imp dead.trans same h

namespace World

open Context (Spared)

/-- Runs whose steps are of an allowed kind, with their halts. -/
inductive Chronicle (allowed : World → Nat → Move → Prop) : World → History → World → Prop where
  | refl (w : World) : Chronicle allowed w [] w
  | step {w w' w'' : World} {history : History} {s : Nat} {move : Move} (run : Chronicle allowed w history w')
      (next : Step w' s move w'') (ok : allowed w' s move) (silent : ∀ id, ¬ w'.Halts s move w'' id) :
      Chronicle allowed w history w''
  | halt {w w' w'' : World} {history : History} {s : Nat} {move : Move} {id : ContextId} {task : Task}
      (run : Chronicle allowed w history w') (halt : w'.Halts s move w'' id) (ok : allowed w' s move)
      (first : task ∈ (w'.tasks s).head?) :
      Chronicle allowed w ((id, task.stage.cause) :: history) w''

/-- A step after which a context has a reason that does not tell its last halt. -/
inductive Misleads (w : World) (s : Nat) : Move → Prop where
  | dispatch {task : Task} {event : Event} (first : task ∈ (w.tasks s).head?)
      (stage : task.stage = .admitted event) (misleads : w.debugger.Misleads s task.context event) :
      Misleads w s .dispatch
  | answer {task : Task} {callback : Callback} {position : Position} {receiver : Option Value} {moved : Bool}
      (first : task ∈ (w.tasks s).head?) (stage : task.stage = .called callback (.lineTraced position receiver moved))
      (passes : w.debugger.PassesLine s task.context position receiver moved) : Misleads w s .answer
  | fail {task : Task} (first : task ∈ (w.tasks s).head?) (announces : task.stage.announces) : Misleads w s .fail

/-- The steps of one activation that mislead nobody. -/
structure Candid (w : World) (s : Nat) (move : Move) : Prop where
  calm : w.Calm s move
  leads : ¬ w.Misleads s move

variable {w w' : World} {s : Nat} {move : Move} {id : ContextId}

/-! ## Tasks have contexts -/

structure Housed (w : World) : Prop where
  tracked : w.debugger.WellTracked
  known : ∀ s, ∀ task ∈ w.tasks s, task.stage.isInspecting = false → task.context < w.debugger.contexts.size

namespace Housed

theorem become (h : w.Housed) {d : Debugger} (tracked : d.WellTracked)
    (size : w.debugger.contexts.size ≤ d.contexts.size) : (w.become d).Housed :=
  ⟨tracked, fun s task member event => Nat.lt_of_lt_of_le (h.known s task member event) size⟩

theorem set (h : w.Housed) {own : List Task}
    (known : ∀ task ∈ own, task.stage.isInspecting = false → task.context < w.debugger.contexts.size) :
    (w.set s own).Housed := ⟨h.tracked, w.forall_tasks_set h.known known⟩

theorem become_of_tracks (h : w.Housed) {d : Debugger} (tracks : Debugger.Tracks w.debugger d) :
    (w.become d).Housed := h.become (tracks.tracked h.tracked) tracks.size

theorem rest (h : w.Housed) {task : Task} {rest : List Task} (tasks : w.tasks s = task :: rest) :
    ∀ other ∈ rest, other.stage.isInspecting = false → other.context < w.debugger.contexts.size :=
  fun other member => h.known s other (mem_outer tasks member)

theorem set_cons (h : w.Housed) {task task' : Task} {rest : List Task} (tasks : w.tasks s = task :: rest)
    (known : task'.stage.isInspecting = false → task'.context < w.debugger.contexts.size) :
    (w.set s (task' :: rest)).Housed := h.set (List.forall_mem_cons.mpr ⟨known, h.rest tasks⟩)

theorem arrive (h : w.Housed) (event : Event) : (w.arrive s event).Housed := by
  have tracks := (w.debugger.tends_arrive s event).tracks
  simp only [World.arrive]
  split
  · next arrived =>
      rw [arrived] at tracks
      exact h.become_of_tracks tracks
  · next arrived =>
      rw [arrived] at tracks
      have later := h.become_of_tracks tracks
      obtain ⟨_, _, found, _⟩ := Debugger.arrive_eq_some arrived
      exact later.set (List.forall_mem_cons.mpr ⟨fun _ => (later.tracked.known found).1, later.known s⟩)

theorem contend (h : w.Housed) {task : Task} {rest : List Task} (tasks : w.tasks s = task :: rest)
    (outside : task.stage.isInspecting = false) (event : Event) (granted : Bool) :
    (w.contend s task rest event granted).Housed := by
  have tracks := w.debugger.tracks_contend task.thread task.context granted
  have known := h.known s task (mem_innermost tasks) outside
  simp only [World.contend]
  split
  all_goals
    next contended =>
      rw [contended] at tracks
      have later := h.become_of_tracks tracks
      first
        | exact later.set (later.rest tasks)
        | exact later.set_cons tasks fun _ => Nat.lt_of_lt_of_le known tracks.size

theorem proceed (h : w.Housed) {task : Task} {rest : List Task} (tasks : w.tasks s = task :: rest)
    (event : task.stage.isInspecting = false) {piece : Outcome × Debugger}
    (touches : Debugger.Touches s task.context w.debugger piece.2) : (w.proceed s task rest piece).Housed := by
  have known := h.known s task (mem_innermost tasks) event
  exact (h.become (h.tracked.touches touches) touches.size).set_cons tasks fun _ =>
    Nat.lt_of_lt_of_le known touches.size

theorem inspect (h : w.Housed) (s : Nat) : (w.inspect s).Housed := by
  have tracks := (w.debugger.tends_enterPostMortem s).tracks
  simp only [World.inspect]
  split
  · next entered =>
      rw [entered] at tracks
      exact h.become_of_tracks tracks
  · next entered =>
      rw [entered] at tracks
      have later := h.become_of_tracks tracks
      refine later.set (List.forall_mem_cons.mpr ⟨fun event => ?_, later.known s⟩)
      cases event

theorem step (h : w.Housed) (lasting : w.Lasting) (step : w.Step s move w') (calm : w.Calm s move) :
    w'.Housed := by
  have host (host : Host) : (w.become { w.debugger with host }).Housed :=
    h.become ⟨h.tracked.coherent, h.tracked.home⟩ (Nat.le_refl _)
  cases step with
  | arrive event free => exact h.arrive event
  | ask tasks stage => exact h.contend tasks (by rw [stage]; rfl) _ _
  | awake tasks stage awake => exact h.contend tasks (by rw [stage]; rfl) _ _
  | dispatch tasks stage =>
      rename_i task rest event
      have member := mem_innermost tasks
      have stays := lasting.mild member (by rw [stage]; rfl)
      exact h.proceed tasks (by rw [stage]; rfl) (w.debugger.touches_dispatch s task.context event stays)
  | answer tasks stage => exact h.proceed tasks (by rw [stage]; rfl) (w.debugger.touches_run s _ _)
  | fail tasks stage => exact h.proceed tasks (by rw [stage]; rfl) (.refl _ _ _)
  | release tasks stage =>
      have later := h.become_of_tracks w.debugger.tracks_release
      exact later.set (later.rest tasks)
  | request request free =>
      have other : request.isActivation = false := by simpa [Calm, Move.isCalm] using calm
      exact h.become_of_tracks (request.tends_request s w.debugger other).tracks
  | enterPostMortem free => exact h.inspect s
  | leavePostMortem tasks stage =>
      rename_i before
      have later := h.become_of_tracks (w.debugger.tends_leavePostMortem s before).tracks
      exact later.set (later.rest tasks)
  | execute | register | begin | exit => exact host _

end Housed

/-! ## Worlds that are reached -/

structure Reached (w : World) : Prop where
  orderly : w.Orderly
  current : w.Current
  lasting : w.Lasting
  housed : w.Housed
  paired : w.Paired

theorem Reached.step (h : w.Reached) (step : w.Step s move w') (calm : w.Calm s move) : w'.Reached := by
  obtain ⟨orderly, current, lasting⟩ :=
    ((Run.refl w).step step calm).orderly_lasting h.orderly h.current h.lasting
  exact ⟨orderly, current, lasting, h.housed.step h.lasting step calm, h.paired.step step⟩

theorem Reached.touches (h : w.Reached) {task : Task} {rest : List Task} {piece : Outcome × Debugger}
    (is : w.Piece s move task rest piece) : Debugger.Touches s task.context w.debugger piece.2 := by
  cases is with
  | dispatch tasks stage =>
      rename_i event
      have member := mem_innermost tasks
      exact w.debugger.touches_dispatch s task.context event (h.lasting.mild member (by rw [stage]; rfl))
  | answer tasks stage => exact w.debugger.touches_run s task.context _

/-! ## Steps that are no dispatch -/

theorem neutral_tells (reason : StopReason) : Neutral (Context.Tells reason) :=
  ⟨fun h _ _ _ _ _ => h, fun _ _ _ h => h⟩

theorem unstepped_tells (reason : StopReason) : Unstepped (Context.Tells reason) :=
  fun h _ _ _ _ _ _ => h

structure Told (w : World) (history : History) (id : ContextId) : Prop where
  announced : ∀ s, ∀ task ∈ w.tasks s, task.context = id → task.stage.announces →
    (w.debugger.context id).Tells task.stage.cause
  settled : (∀ s, ∀ task ∈ w.tasks s, task.context = id → ¬ task.stage.announces) →
    (w.debugger.context id).Tells (history.last id)

theorem mem_set_iff {d : Debugger} {own : List Task} {task : Task} (same : task ∈ own ↔ task ∈ w.tasks s)
    (s' : Nat) : task ∈ ((w.become d).set s own).tasks s' ↔ task ∈ w.tasks s' := by
  by_cases here : s' = s
  · subst here
    rw [tasks_set_self]
    exact same
  · rw [tasks_set_ne _ here]
    rfl

theorem Step.announcing_iff (step : w.Step s move w') (other : move.isDispatch = false)
    (leads : ¬ w.Misleads s move) {task : Task} (announces : task.stage.announces) (s' : Nat) :
    task ∈ w'.tasks s' ↔ task ∈ w.tasks s' := by
  have ne {quiet : Task} (silent : quiet.stage.announces = false) : task ≠ quiet := by
    rintro rfl
    rw [announces] at silent
    cases silent
  have swap {old new : Task} {rest : List Task} (tasks : w.tasks s = old :: rest)
      (before : old.stage.announces = false) (after : new.stage.announces = false) :
      task ∈ new :: rest ↔ task ∈ w.tasks s := by
    rw [tasks, List.mem_cons, List.mem_cons, or_iff_right (ne before), or_iff_right (ne after)]
  have pop {old : Task} {rest : List Task} (tasks : w.tasks s = old :: rest)
      (before : old.stage.announces = false) : task ∈ rest ↔ task ∈ w.tasks s := by
    rw [tasks, List.mem_cons, or_iff_right (ne before)]
  have push {new : Task} (after : new.stage.announces = false) : task ∈ new :: w.tasks s ↔ task ∈ w.tasks s := by
    rw [List.mem_cons, or_iff_right (ne after)]
  have contend {asking : Task} {rest : List Task} (tasks : w.tasks s = asking :: rest)
      (before : asking.stage.announces = false) (event : Event) (granted : Bool) :
      task ∈ (w.contend s asking rest event granted).tasks s' ↔ task ∈ w.tasks s' := by
    simp only [World.contend]
    split
    · exact mem_set_iff (swap tasks before rfl) s'
    · exact mem_set_iff (pop tasks before) s'
    · exact mem_set_iff (swap tasks before rfl) s'
  cases step with
  | arrive event free =>
      simp only [World.arrive]
      split
      · rfl
      · exact mem_set_iff (push rfl) s'
  | ask tasks stage => exact contend tasks (by rw [stage]; rfl) _ _
  | awake tasks stage awake => exact contend tasks (by rw [stage]; rfl) _ _
  | dispatch | answer => cases other
  | fail tasks stage =>
      refine mem_set_iff (swap tasks ?_ rfl) s'
      apply eq_false_of_ne_true
      intro announced
      exact leads (.fail (head_innermost tasks) announced)
  | release tasks stage => exact mem_set_iff (pop tasks (by rw [stage]; rfl)) s'
  | leavePostMortem tasks stage => exact mem_set_iff (pop tasks (by rw [stage]; rfl)) s'
  | enterPostMortem free =>
      simp only [World.inspect]
      split
      · rfl
      · exact mem_set_iff (push rfl) s'
  | request | execute | register | begin | exit => rfl

theorem Told.step {history : History} (h : w.Told history id) (step : w.Step s move w')
    (other : move.isDispatch = false) (leads : ¬ w.Misleads s move) : w'.Told history id := by
  have preserves (reason : StopReason) : Debugger.Preserves (Context.Tells reason) id w.debugger w'.debugger :=
    step.preserves (neutral_tells reason) other (.inl (unstepped_tells reason))
  have same {task : Task} (announces : task.stage.announces) (s' : Nat) :=
    step.announcing_iff other leads announces s'
  refine ⟨fun s' task member here announces => ?_, fun silent => ?_⟩
  · exact preserves _ (h.announced s' task ((same announces s').mp member) here announces)
  · apply preserves _ (h.settled fun s' task member here announces => ?_)
    exact silent s' task ((same announces s').mpr member) here announces

/-! ## Pieces of dispatch -/

theorem Piece.explains {task : Task} {rest : List Task} {piece : Outcome × Debugger}
    (is : w.Piece s move task rest piece) (paired : task.Paired)
    (known : task.context < w.debugger.contexts.size) (leads : ¬ w.Misleads s move) :
    if task.stage.announces then
      (piece.2.context task.context).reason = (w.debugger.context task.context).reason ∧
        ∃ position, piece.1 = .call (.line task.context position) .resumed
    else Debugger.Explains task.context w.debugger piece := by
  have first := head_innermost is.tasks
  cases is with
  | dispatch tasks stage =>
      rw [if_neg (by rw [stage]; exact Bool.false_ne_true)]
      exact Debugger.explains_dispatch known fun misleads => leads (.dispatch first stage misleads)
  | answer tasks stage =>
      rename_i callback next
      cases paired stage with
      | traced position receiver moved =>
          rw [if_neg (by rw [stage]; exact Bool.false_ne_true)]
          exact Debugger.explains_checkLine known fun passes => leads (.answer first stage passes)
      | breakpoint bp position onLine =>
          rw [if_pos (by rw [stage]; rfl)]
          refine ⟨Debugger.reason_run _ s _ (by nofun), position, ?_⟩
          exact Debugger.outcome_haltAt _ _ position onLine
      | catchpoint exception position receiver binding =>
          rw [if_pos (by rw [stage]; rfl)]
          exact ⟨Debugger.reason_run _ s _ (by nofun), position, rfl⟩
      | halted position =>
          rw [if_neg (by rw [stage]; exact Bool.false_ne_true)]
          rfl

namespace Reached

variable {task : Task} {rest : List Task}

theorem announcing (h : w.Reached) (tasks : w.tasks s = task :: rest) (holds : task.stage.holds) {s' : Nat}
    {other : Task} (member : other ∈ w.tasks s') (announces : other.stage.announces) : other = task :=
  have holds' := Stage.holds_of_announces announces
  (h.orderly.sole h.current h.lasting.active member holds' (mem_innermost tasks) holds).2

theorem announcing_proceed (h : w.Reached) (tasks : w.tasks s = task :: rest) (holds : task.stage.holds)
    {piece : Outcome × Debugger} {s' : Nat} {other : Task}
    (member : other ∈ (w.proceed s task rest piece).tasks s') (announces : other.stage.announces) :
    other = { task with stage := piece.1.stage } := by
  have first := mem_innermost tasks
  have holds' := Stage.holds_of_announces announces
  by_cases same : s' = s
  · subst same
    rw [tasks_proceed] at member
    rcases List.mem_cons.mp member with rfl | inRest
    · rfl
    · have own : task.Holds w.activation := ⟨holds, h.current s' task first⟩
      have own' : other.Holds w.activation := ⟨holds', h.current s' other (mem_outer tasks inRest)⟩
      exact ((h.orderly.above tasks).1.alone other inRest own' own).elim
  · rw [World.proceed, tasks_set_ne _ same] at member
    exact absurd (h.orderly.sole h.current h.lasting.active member holds' first holds).1 same

end Reached

structure History.Extends (history history' : History) (task : Task) (outcome : Outcome) : Prop where
  others : ∀ id ≠ task.context, history'.last id = history.last id
  halted : ∀ {position next}, outcome = .call (.line task.context position) next →
    history'.last task.context = task.stage.cause
  unhalted : (∀ position next, outcome ≠ .call (.line task.context position) next) →
    history'.last task.context = history.last task.context

section

variable {history history' : History} {task : Task} {rest : List Task} {piece : Outcome × Debugger}
  (reached : w.Reached) (is : w.Piece s move task rest piece)

include reached is

theorem Told.proceed_own (h : w.Told history task.context) (leads : ¬ w.Misleads s move)
    (extended : History.Extends history history' task piece.1) :
    (w.proceed s task rest piece).Told history' task.context := by
  have member := mem_innermost is.tasks
  have known := reached.housed.known s task member (Stage.not_isInspecting_of_holds is.holds)
  have explains := is.explains (reached.paired s task member) known leads
  have dead : (piece.2.context task.context).dead = (w.debugger.context task.context).dead :=
    congrArg (·.2.2.2.2.2.2.1) ((reached.touches is).traits _ known)
  -- A halt that was announced follows at once and leaves the reason alone; every other piece sets it itself.
  by_cases announced : task.stage.announces
  · rw [if_pos announced] at explains
    obtain ⟨reason, position, outcome⟩ := explains
    refine ⟨fun s' other member' here announces => ?_, fun _ => ?_⟩
    · rw [reached.announcing_proceed is.tasks is.holds member' announces, outcome] at announces
      cases announces
    · rw [extended.halted outcome]
      exact (h.announced s task member rfl announced).map dead reason.trans
  · rw [if_neg announced] at explains
    have before := h.settled fun s' other member' _ announces =>
      announced (reached.announcing is.tasks is.holds member' announces ▸ announces)
    refine ⟨fun s' other member' here announces => ?_, fun silent => ?_⟩
    · obtain rfl := reached.announcing_proceed is.tasks is.holds member' announces
      rcases piece with ⟨_ | ⟨_ | _ | _ | _, next⟩, d⟩
      · cases announces
      · cases announces
      · exact .inr explains
      · exact .inr explains
      · cases announces
    · -- A report among the outcomes would be a task that announces a halt.
      have announcing (announces : piece.1.stage.announces) : False := by
        refine silent s { task with stage := piece.1.stage } ?_ rfl announces
        rw [tasks_proceed]
        exact List.mem_cons_self
      rcases piece with ⟨_ | ⟨_ | _ | _ | _, next⟩, d⟩
      · rw [extended.unhalted fun _ _ halts => by cases halts]
        exact before.map dead explains.trans
      · obtain ⟨position⟩ := is.about
        rw [extended.halted rfl, Stage.cause_of_unannounced announced]
        exact .inr explains
      · exact (announcing rfl).elim
      · exact (announcing rfl).elim
      · rw [extended.unhalted fun _ _ halts => by cases halts]
        exact before.map dead explains.trans

theorem Told.proceed_other (h : w.Told history id) (other : id ≠ task.context)
    (extended : History.Extends history history' task piece.1) :
    (w.proceed s task rest piece).Told history' id := by
  have spared (reason : StopReason) : Spared (Context.Tells reason) id task.context :=
    ⟨fun same => absurd same other, fun _ _ _ => .inl rfl⟩
  refine ⟨fun s' later member here announces => ?_, fun _ => ?_⟩
  · rw [reached.announcing_proceed is.tasks is.holds member announces] at here
    exact absurd here.symm other
  · rw [extended.others id other]
    have before := h.settled fun s' earlier member here announces => by
      rw [reached.announcing is.tasks is.holds member announces] at here
      exact other here.symm
    cases is with
    | dispatch tasks stage => exact Debugger.spared_dispatch (spared _) w.debugger s _ before
    | answer tasks stage => exact Debugger.spared_run (spared _) w.debugger s _ before

theorem Told.proceed (h : w.Told history id) (leads : ¬ w.Misleads s move)
    (extended : History.Extends history history' task piece.1) :
    (w.proceed s task rest piece).Told history' id := by
  by_cases own : id = task.context
  · subst own
    exact h.proceed_own reached is leads extended
  · exact h.proceed_other reached is own extended

end

/-! ## Runs -/

theorem not_halts_of_other (other : move.isDispatch = false) : ∀ id, ¬ w.Halts s move w' id := by
  intro id halts
  have dispatches := halts.dispatches
  rw [other] at dispatches
  cases dispatches

theorem History.extends_halt (history : History) (task : Task) {position : Position} {next : Continuation} :
    History.Extends history ((task.context, task.stage.cause) :: history) task
      (.call (.line task.context position) next) := by
  refine ⟨fun id other => ?_, fun _ => ?_, fun unhalted => absurd rfl (unhalted position next)⟩
  · simp only [History.last, List.lookup_cons, beq_eq_false_iff_ne.mpr other]
  · simp only [History.last, List.lookup_cons, beq_self_eq_true, Option.getD_some]

theorem Idle.reached (h : w.Idle) (tracked : w.debugger.WellTracked) : w.Reached := by
  refine ⟨h.orderly, h.current, h.lasting, ⟨tracked, fun s task member => ?_⟩, h.paired⟩
  rw [h.tasks s] at member
  cases member

theorem Chronicle.told {w₀ : World} {history : History} (run : Chronicle Candid w₀ history w) (idle : w₀.Idle)
    (tracked : w₀.debugger.WellTracked) (fresh : (w₀.debugger.context id).Tells .initial) :
    w.Reached ∧ w.Told history id := by
  -- `Told` alone is not kept: that nobody else dispatches in the context needs `Reached`.
  induction run with
  | refl =>
      refine ⟨idle.reached tracked, fun s task member => ?_, fun _ => fresh⟩
      rw [idle.tasks s] at member
      cases member
  | step run next candid silent ih =>
      rename_i w w' history s move
      obtain ⟨reached, told⟩ := ih
      refine ⟨reached.step next candid.calm, ?_⟩
      cases dispatches : move.isDispatch with
      | false => exact told.step next dispatches candid.leads
      | true =>
          obtain ⟨task, rest, piece, is, rfl⟩ := next.piece dispatches
          refine told.proceed reached is candid.leads ⟨fun _ _ => rfl, fun halted => ?_, fun _ => rfl⟩
          exact absurd (halts_proceed next dispatches halted) (silent task.context)
  | halt run halt candid first ih =>
      obtain ⟨reached, told⟩ := ih
      refine ⟨reached.step halt.step candid.calm, ?_⟩
      obtain ⟨task, rest, piece, position, is, rfl, rfl, outcome⟩ := halt.piece
      rw [is.tasks] at first
      cases first
      refine told.proceed reached is candid.leads ?_
      rw [outcome]
      exact History.extends_halt _ _

/-- The reason of a live context is that of its last halt, and while a halt is reported that of the report. -/
theorem reason_of_last_halt {w₀ : World} {history : History} (idle : w₀.Idle)
    (tracked : w₀.debugger.WellTracked) (fresh : (w₀.debugger.context id).Tells .initial)
    (run : Chronicle Candid w₀ history w) (live : (w.debugger.context id).dead = false) :
    ((∀ s, ∀ task ∈ w.tasks s, task.context = id → ¬ task.stage.announces) →
        (w.debugger.context id).stopReason = history.last id) ∧
      ∀ s, ∀ task ∈ w.tasks s, task.context = id → task.stage.announces →
        (w.debugger.context id).stopReason = task.stage.cause := by
  obtain ⟨_, told⟩ := run.told idle tracked fresh
  have reason {reason : StopReason} (tells : (w.debugger.context id).Tells reason) :
      (w.debugger.context id).stopReason = reason := by
    rcases tells with dead | same
    · rw [live] at dead
      cases dead
    · simp only [Context.stopReason, live, Bool.false_eq_true, if_false, same]
  exact ⟨fun silent => reason (told.settled silent), fun s task member here announces =>
    reason (told.announced s task member here announces)⟩

/-! ## A breakpoint with and without a guard -/

def onBare (stage : Stage) : Task := ⟨⟨1, "a"⟩, 0, stage, false, 1, some bareLine⟩

def bareArrived (guard : Option String) : World :=
  let command := .addBreakpoint "a.rb" (.line 1) guard
  (startedWithTwo.become ((Request.debugger command).serve 0 startedWithTwo.debugger)).arrive 0 bareLine

def bareAdmitted (guard : Option String) : World :=
  (bareArrived guard).contend 0 (onBare (.asking bareLine)) [] bareLine false

theorem tasks_bareArrived (guard : Option String) :
    (bareArrived guard).tasks 0 = [onBare (.asking bareLine)] := rfl

theorem tasks_bareAdmitted (guard : Option String) :
    (bareAdmitted guard).tasks 0 = [onBare (.admitted bareLine)] := rfl

theorem chronicle_bareAdmitted {allowed : World → Nat → Move → Prop}
    (ok : ∀ w {move}, move.isCalm → move.isDispatch = false → move ≠ .fail → allowed w 0 move)
    (guard : Option String) :
    Chronicle allowed startedWithTwo [] (bareAdmitted guard) := by
  have run : Chronicle allowed startedWithTwo [] _ := .refl startedWithTwo
  have run := run.step (.request (s := 0) (.debugger (.addBreakpoint "a.rb" (.line 1) guard)) (by rintro _ ⟨⟩))
    (ok _ rfl rfl nofun) (not_halts_of_other rfl)
  have run := run.step (.arrive (s := 0) bareLine (by rintro _ ⟨⟩)) (ok _ rfl rfl nofun) (not_halts_of_other rfl)
  exact run.step (.ask (tasks_bareArrived guard) rfl) (ok _ rfl rfl nofun) (not_halts_of_other rfl)

def bareMet (guard : Option String) : World :=
  (bareAdmitted guard).proceed 0 (onBare (.admitted bareLine)) []
    ((bareAdmitted guard).debugger.dispatch 0 0 bareLine)

theorem tasks_bareMet_ne (ne : s ≠ 0) (guard : Option String) : (bareMet guard).tasks s = [] := by
  simp only [bareMet, proceed, tasks_set_ne _ ne, become, bareAdmitted, tasks_contend_ne _ ne, bareArrived,
    tasks_arrive_ne _ ne]
  rfl

def watching : Breakpoint := ⟨1, "a.rb", .line 1, none⟩

def haltedOn : World :=
  (bareMet none).proceed 0 (onBare (.called (.breakpoint 0 watching) (.breakpointReported ⟨"a.rb", 1⟩ true))) []
    (Continuation.run (.breakpointReported ⟨"a.rb", 1⟩ true) (bareMet none).debugger 0 0)

theorem tasks_bareMet : (bareMet none).tasks 0 =
    [onBare (.called (.breakpoint 0 watching) (.breakpointReported ⟨"a.rb", 1⟩ true))] := rfl

theorem candid_bareAdmitted : (bareAdmitted none).Candid 0 .dispatch := by
  refine ⟨rfl, ?_⟩
  rintro (⟨first, stage, misleads⟩)
  rw [tasks_bareAdmitted] at first
  cases first
  cases stage
  cases misleads with
  | line position heeded at' kind untraced passes =>
      cases at'
      obtain ⟨-, found, hit, fails⟩ := passes
      have unguarded : ((bareAdmitted none).debugger.placed 0 0 bareLine ⟨"a.rb", 1⟩).findBreakpoint? 0
          (·.matchesPosition ⟨"a.rb", 1⟩) = some (.listed watching) := rfl
      cases unguarded.symm.trans hit
      cases fails
  | entry position heeded at' kind => cases kind

theorem candid_of_plain (w : World) (calm : move.isCalm) (plain : move.isDispatch = false) (silent : move ≠ .fail) :
    w.Candid s move := by
  refine ⟨calm, ?_⟩
  rintro (_ | _ | _)
  · cases plain
  · cases plain
  · exact silent rfl

theorem reason_of_report : ∃ history, Chronicle Candid startedWithTwo history haltedOn ∧
    history.last 0 = .breakpoint ∧ (haltedOn.debugger.context 0).stopReason = .breakpoint := by
  have run : Chronicle Candid startedWithTwo [] (bareAdmitted none) :=
    chronicle_bareAdmitted (fun w _ => candid_of_plain w) none
  have run := run.step (.dispatch (tasks_bareAdmitted none) rfl) candid_bareAdmitted
    (not_halts_of_tasks tasks_bareMet nofun)
  have halt : (bareMet none).Halts 0 .answer haltedOn 0 :=
    ⟨.answer tasks_bareMet rfl, rfl, _, rfl, ⟨"a.rb", 1⟩, .resumed, rfl⟩
  have answers : (bareMet none).Candid 0 .answer := by
    refine ⟨rfl, ?_⟩
    rintro (_ | ⟨first, stage⟩)
    rw [tasks_bareMet] at first
    cases first
    cases stage
  have first : onBare (.called (.breakpoint 0 watching) (.breakpointReported ⟨"a.rb", 1⟩ true)) ∈
      ((bareMet none).tasks 0).head? := by
    rw [tasks_bareMet]
    rfl
  have run := run.halt halt answers first
  have fresh : (startedWithTwo.debugger.context 0).Tells .initial := .inr rfl
  have told := reason_of_last_halt idle_startedWithTwo wellTracked_startedWithTwo fresh run rfl
  refine ⟨_, run, rfl, told.1 fun s task member _ announces => ?_⟩
  by_cases own : s = 0
  · subst own
    cases List.mem_singleton.mp member
    cases announces
  · simp only [haltedOn, proceed, tasks_set_ne _ own, become, tasks_bareMet_ne own] at member
    cases member

def passedBy : World :=
  ((bareMet (some "x == 2")).become (bareMet (some "x == 2")).debugger.release).set 0 []

/-- The guard of the only breakpoint fails, so the thread never halts; but the reason tells a step. -/
theorem reason_without_halt : Chronicle Calm startedWithTwo [] passedBy ∧ (∀ s, passedBy.tasks s = []) ∧
    (passedBy.debugger.context 0).dead = false ∧ (passedBy.debugger.context 0).stopReason = .step ∧
    History.last [] 0 = .initial := by
  have run : Chronicle Calm startedWithTwo [] (bareAdmitted (some "x == 2")) :=
    chronicle_bareAdmitted (fun w _ calm _ _ => calm) (some "x == 2")
  have handled : (bareMet (some "x == 2")).tasks 0 = [onBare .handled] := rfl
  have run := run.step (.dispatch (tasks_bareAdmitted _) rfl) rfl (not_halts_of_tasks handled nofun)
  have run := run.step (.release handled rfl) rfl (not_halts_of_other rfl)
  refine ⟨run, fun s => ?_, rfl, by decide, rfl⟩
  by_cases own : s = 0
  · subst own
    rfl
  · simp only [passedBy, tasks_set_ne _ own, become, tasks_bareMet_ne own]

end World

end EventDebugger
