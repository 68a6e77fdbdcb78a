import EventDebugger.Proofs.Dispatch.Reasons
import EventDebugger.Proofs.Ticket.Halts
import EventDebugger.Proofs.Ticket.Spared

/-!
# Going on after a halt

A halt on a line turns off the armed steps, all but the pending return of a frame; one on the entry of a
method or on an exception leaves them armed. Once nothing is armed, no event arms anything, so a
context halts on a breakpoint or on an exception only, until it is told to step.

* `World.halts_on_breakpoint_of_continued`: after which halts a context halts on breakpoints only.
* `World.halts_on_step_of_continued`: after a halt on a method, a step that was armed before still halts.
-/

namespace EventDebugger

/-! ## Armed steps -/

namespace Context

/-- No step is armed. -/
def Disarmed (context : Context) : Prop := context.steps = (.off, .off, none, none)

theorem Disarmed.countLine {context : Context} (h : context.Disarmed) (moved : Bool) :
    (context.countLine moved).Disarmed := by
  simp only [Disarmed, steps, Prod.mk.injEq] at h
  obtain ⟨next, line, target, finish⟩ := h
  simp only [Context.countLine, target, tickSteps, Disarmed, steps, next, line, finish, Countdown.tick_off, ite_self]

theorem steady_disarmed : Steady Disarmed where
  congr same h := same.trans h
  counts moved h := h.countLine moved
  clears h := by
    simp only [Disarmed, steps, Prod.mk.injEq] at h ⊢
    exact ⟨rfl, rfl, rfl, h.2.2.2⟩
  returns method h := by
    simp only [Disarmed, steps, Prod.mk.injEq] at h
    obtain ⟨next, line, target, finish⟩ := h
    simp only [returnFrom, finish, reduceCtorEq, if_false, Disarmed, steps, next, line, target]

theorem steady_unfinished : Steady (·.finishDepth = none) where
  congr same h := (congrArg (·.2.2.2) same).trans h
  counts := by
    intro context moved h
    obtain ⟨_, _, _, eq⟩ := context.countLine_eq moved
    rw [eq]
    exact h
  clears h := h
  returns method h := by
    simp only [returnFrom]
    split <;> first | rfl | exact h

theorem disarmed_clearSteps {context : Context} (unfinished : context.finishDepth = none) :
    context.clearSteps.Disarmed := by
  simp only [Disarmed, steps, clearSteps, unfinished]

theorem Disarmed.not_due {context : Context} (h : context.Disarmed) : context.isStepDue = false := by
  simp only [Disarmed, steps, Prod.mk.injEq] at h
  simp only [isStepDue, h.1, h.2.1]
  rfl

end Context

namespace Debugger

open Context

variable {P : Context → Prop} {id : ContextId}

/-! ## Halts on lines disarm -/

def HaltsOn (id : ContextId) (piece : Outcome × Debugger) : Prop :=
  ∃ position next, piece.1 = .call (.line id position) next

def Settles (id : ContextId) (piece : Outcome × Debugger) : Prop :=
  HaltsOn id piece → (piece.2.context id).Disarmed

theorem not_haltsOn_done (d : Debugger) : ¬ HaltsOn id (.done, d) := by
  rintro ⟨position, next, halted⟩
  cases halted

theorem settles_done (d : Debugger) : Settles id (.done, d) := fun halts => absurd halts (not_haltsOn_done d)

variable {d : Debugger} (unfinished : (d.context id).finishDepth = none)

include unfinished

theorem settles_haltAt (position : Position) : Settles id (d.haltAt id position true) := by
  have cleared : ((d.updateContext id clearSteps).context id).Disarmed := by
    by_cases known : id < d.contexts.size
    · rw [d.context_updateContext_self clearSteps known]
      exact disarmed_clearSteps unfinished
    · rw [d.updateContext_unknown clearSteps (Nat.le_of_not_lt known), context_unknown (Nat.le_of_not_lt known)]
      rfl
  exact fun _ => spared_halt steady_disarmed.spared _ position cleared

theorem settles_haltOnBreakpoint (found : Found) (position : Position) :
    Settles id (d.haltOnBreakpoint id found position true) := by
  simp only [haltOnBreakpoint]
  split
  · exact settles_haltAt (spared_updateContext steady_unfinished.spared d
      (fun context => { context with temporary := none }) (fun _ => rfl) unfinished) position
  · rintro ⟨position', next, halted⟩
    cases halted

theorem settles_checkLine (system : Nat) (position : Position) (receiver : Option Value) (moved : Bool) :
    Settles id (d.checkLine system id position receiver moved) := by
  have counted : ((d.updateContext id (·.countLine moved)).context id).finishDepth = none :=
    d.preserves_updateContext (P := (·.finishDepth = none)) id
      (fun h => steady_unfinished.counts moved h) unfinished
  simp only [checkLine]
  generalize d.updateContext id (·.countLine moved) = d' at counted ⊢
  have captured : ((d'.captureLine system id receiver).2.context id).finishDepth = none :=
    spared_captureLine steady_unfinished.spared d' system receiver counted
  split
  · exact settles_haltAt captured position
  · split
    · exact settles_done d'
    · split
      · exact settles_haltOnBreakpoint captured _ position
      · exact settles_done _

theorem settles_onLine (system : Nat) (event : Event) (position : Position) (conditional moved : Bool) :
    Settles id (d.onLine system id event position conditional moved) := by
  have placed : ((if (d.context id).stack.isEmpty then d.openFrame system id event position
      else d.updateContext id (·.moveTop event position false)).context id).finishDepth = none := by
    split
    · exact spared_openFrame steady_unfinished.spared d system event position unfinished
    · exact spared_updateContext steady_unfinished.spared d _ (fun _ => rfl) unfinished
  simp only [onLine]
  generalize (if (d.context id).stack.isEmpty then d.openFrame system id event position
    else d.updateContext id (·.moveTop event position false)) = d' at placed ⊢
  split
  · exact settles_done d'
  · split
    · rintro ⟨position', next, halted⟩
      cases halted
    · exact settles_checkLine placed system position event.receiver moved

theorem settles_dispatch (system : Nat) {event : Event} (line : event.kind.isLine) :
    Settles id (d.dispatch system id event) := by
  have noted : ((d.updateContext id (·.noteEvent event.position event.kind.isLine)).context id).finishDepth =
      none :=
    spared_updateContext steady_unfinished.spared d _ (fun _ => rfl) unfinished
  simp only [dispatch]
  generalize d.updateContext id (·.noteEvent event.position event.kind.isLine) = d' at noted ⊢
  split
  · exact settles_done d
  · split
    · simp only [dispatchAt]
      split
      · exact settles_onLine noted system event _ _ _
      all_goals
        next kind =>
          rw [kind] at line
          cases line
    · split <;> exact settles_done _

omit unfinished

/-! ## Halts of disarmed contexts -/

def Rests (temporary : Option Breakpoint) (context : Context) : Prop :=
  context.Disarmed ∧ context.temporary = temporary

def Spends (temporary : Option Breakpoint) (id : ContextId) (piece : Outcome × Debugger) : Prop :=
  HaltsOn id piece → temporary.isSome ∧ (piece.2.context id).temporary = none

variable {temporary : Option Breakpoint}

theorem spends_done (d : Debugger) : Spends temporary id (.done, d) :=
  fun halts => absurd halts (not_haltsOn_done d)

theorem rests_updateContext (h : Rests temporary (d.context id)) (f : Context → Context)
    (hf : ∀ context, (f context).steps = context.steps ∧ (f context).temporary = context.temporary) :
    Rests temporary ((d.updateContext id f).context id) :=
  d.preserves_updateContext (P := Rests temporary) id
    (fun {context} h => ⟨(hf context).1.trans h.1, (hf context).2.trans h.2⟩) h

theorem temporary_of_found {p : Breakpoint → Bool} {bp : Breakpoint} {number : Nat}
    (found : d.findBreakpoint? id p = some (.temporary bp number)) : (d.context id).temporary = some bp := by
  have listed : d.findListed? p ≠ some (.temporary bp number) := by
    simp only [findListed?]
    split
    · exact (Option.some_ne_none _).symm
    · intro h
      obtain ⟨_, _, same⟩ := Option.map_eq_some_iff.mp h
      cases same
  simp only [findBreakpoint?] at found
  split at found
  · split at found
    · next own temporary =>
        split at found
        · cases found
          exact temporary
        · exact absurd found listed
    · exact absurd found listed
  · cases found

theorem temporary_haltAt (spent : (d.context id).temporary = none) (position : Position) (onLine : Bool) :
    ((d.haltAt id position onLine).2.context id).temporary = none := by
  have saved (context : Context) : context.savePosition.temporary = context.temporary := by
    obtain ⟨_, _, _, _, eq⟩ := context.savePosition_eq
    rw [eq]
  have halted {d : Debugger} (spent : (d.context id).temporary = none) :
      ((d.halt id position).2.context id).temporary = none :=
    preserves_updateContext (P := (·.temporary = none)) { d with lastHalted := some (d.context id).number } id
      (fun h => (saved _).trans h) spent
  simp only [haltAt]
  split
  · exact halted (d.preserves_updateContext (P := (·.temporary = none)) id (fun h => h) spent)
  · exact halted spent

theorem spends_haltOnBreakpoint (rests : Rests temporary (d.context id)) (found : Found) (position : Position)
    (onLine : Bool) : Spends temporary id (d.haltOnBreakpoint id found position onLine) := by
  simp only [haltOnBreakpoint]
  split
  · next own =>
      intro _
      have spent : ((d.updateContext id fun context => { context with temporary := none }).context
          id).temporary = none := by
        by_cases known : id < d.contexts.size
        · rw [d.context_updateContext_self _ known]
        · rw [d.updateContext_unknown _ (Nat.le_of_not_lt known), context_unknown (Nat.le_of_not_lt known)]
          rfl
      exact ⟨rests.2 ▸ Found.isSome_of_isOwn own, temporary_haltAt spent position onLine⟩
  · rintro ⟨position', next, halted⟩
    cases halted

theorem spends_checkLine (rests : Rests temporary (d.context id)) (system : Nat) (position : Position)
    (receiver : Option Value) (moved : Bool) :
    Spends temporary id (d.checkLine system id position receiver moved) := by
  have counted : Rests temporary ((d.updateContext id (·.countLine moved)).context id) := by
    apply d.preserves_updateContext (P := Rests temporary) id _ rests
    intro context h
    refine ⟨h.1.countLine moved, ?_⟩
    obtain ⟨_, _, _, eq⟩ := context.countLine_eq moved
    rw [eq]
    exact h.2
  simp only [checkLine]
  generalize d.updateContext id (·.countLine moved) = d' at counted ⊢
  rw [counted.1.not_due, if_neg Bool.false_ne_true]
  split
  · exact spends_done d'
  · next found eq =>
      have captured := rests_updateContext (d := (d'.captureBinding system receiver).2) counted
        (fun context => { context.setTopBinding (d'.captureBinding system receiver).1 with reason := .step })
        fun _ => ⟨rfl, rfl⟩
      split
      · exact spends_haltOnBreakpoint captured found position true
      · exact spends_done _

theorem rests_openFrame (rests : Rests temporary (d.context id)) (system : Nat) (event : Event)
    (position : Position) : Rests temporary ((d.openFrame system id event position).context id) :=
  rests_updateContext (d := (d.newFrame system event position).2) rests (·.push _) fun _ => ⟨rfl, rfl⟩

theorem spends_onLine (rests : Rests temporary (d.context id)) (system : Nat) (event : Event)
    (position : Position) (conditional moved : Bool) :
    Spends temporary id (d.onLine system id event position conditional moved) := by
  have placed : Rests temporary ((if (d.context id).stack.isEmpty then d.openFrame system id event position
      else d.updateContext id (·.moveTop event position false)).context id) := by
    split
    · exact rests_openFrame rests system event position
    · exact rests_updateContext rests _ fun _ => ⟨rfl, rfl⟩
  simp only [onLine]
  generalize (if (d.context id).stack.isEmpty then d.openFrame system id event position
    else d.updateContext id (·.moveTop event position false)) = d' at placed ⊢
  split
  · exact spends_done d'
  · split
    · rintro ⟨position', next, halted⟩
      cases halted
    · exact spends_checkLine placed system position event.receiver moved

theorem spends_onCall (rests : Rests temporary (d.context id)) (system : Nat) (event : Event)
    (position : Position) : Spends temporary id (d.onCall system id event position) := by
  have opened := rests_openFrame rests system event position
  rw [onCall_eq]
  simp only
  split
  · exact spends_done _
  · next found eq =>
      have same := (context_callBinding (d.openFrame system id event position) system id event.receiver).1
      generalize (d.openFrame system id event position).callBinding system id event.receiver = captured at same ⊢
      have bound := rests_updateContext (same.symm ▸ opened) (·.setTopBinding captured.1) fun _ => ⟨rfl, rfl⟩
      split
      · exact spends_haltOnBreakpoint bound found position false
      · exact spends_done _

theorem spends_onRaise (d : Debugger) (system : Nat) (event : Event) (position : Position)
    (exception : Value) : Spends temporary id (d.onRaise system id event position exception) := by
  simp only [onRaise]
  split
  · exact spends_done _
  · split
    · exact spends_done _
    · split
      · rintro ⟨position', next, halted⟩
        cases halted
      · exact spends_done _

theorem spends_dispatch (rests : Rests temporary (d.context id)) (system : Nat) (event : Event) :
    Spends temporary id (d.dispatch system id event) := by
  have noted := rests_updateContext rests (·.noteEvent event.position event.kind.isLine) fun _ => ⟨rfl, rfl⟩
  simp only [dispatch]
  generalize d.updateContext id (·.noteEvent event.position event.kind.isLine) = d' at noted ⊢
  split
  · exact spends_done d
  · split
    · simp only [dispatchAt]
      split
      · exact spends_onLine noted system event _ _ _
      · exact spends_onCall noted system event _
      · exact spends_done _
      · exact spends_done _
      · exact spends_done _
      · split <;> exact spends_done _
      · split <;> exact spends_done _
      · exact spends_onRaise d' system event _ _
    · split <;> exact spends_done _

end Debugger

/-! ## Runs -/

/-- Whether an event goes on with a line. -/
def Stage.isOnLine : Stage → Bool
  | .admitted event => event.kind.isLine
  | .called _ (.lineTraced ..) => true
  | .called _ (.breakpointReported _ onLine) => onLine
  | _ => false

namespace World

/-- A halt leaves no step armed: it is on a line while no return is pending, or none was armed before. -/
def Clears (w : World) (s : Nat) (id : ContextId) : Prop :=
  ((w.debugger.context id).finishDepth = none ∧ ∃ task ∈ (w.tasks s).head?, task.stage.isOnLine) ∨
    (w.debugger.context id).Disarmed

/-- A halt is on a breakpoint or on an exception: it was reported, or it was the temporary breakpoint, which
is used up. -/
def Breaks (w : World) (s : Nat) (w' : World) (id : ContextId) : Prop :=
  (∃ task ∈ (w.tasks s).head?, task.stage.announces) ∨
    (w.debugger.context id).temporary.isSome ∧ (w'.debugger.context id).temporary = none

variable {w w' : World} {s : Nat} {move : Move} {id : ContextId}

open Context Debugger

theorem Piece.steady {P : Context → Prop} (steady : Steady P) {task : Task} {rest : List Task}
    {piece : Outcome × Debugger} (h : w.Piece s move task rest piece) :
    Preserves P id w.debugger piece.2 := by
  cases h with
  | dispatch tasks stage => exact spared_dispatch steady.spared w.debugger s _
  | answer tasks stage => exact spared_run steady.spared w.debugger s _

theorem Step.steady {P : Context → Prop} (steady : Steady P) (step : w.Step s move w')
    (continues : w.Continues id s move) : Preserves P id w.debugger w'.debugger := by
  cases dispatches : move.isDispatch with
  | true =>
      obtain ⟨task, rest, piece, is, rfl⟩ := step.piece dispatches
      exact is.steady steady
  | false => exact step.preserves steady.neutral dispatches (.inr continues)

theorem Run.disarmed {got : List Thread} (run : Run (Continues id) w got w')
    (disarmed : (w.debugger.context id).Disarmed) : (w'.debugger.context id).Disarmed := by
  induction run with
  | refl => exact disarmed
  | step run next continues ih => exact next.steady steady_disarmed continues ih

theorem Halts.disarmed (h : w.Halts s move w' id) (clears : w.Clears s id) :
    (w'.debugger.context id).Disarmed := by
  obtain ⟨task, rest, piece, position, is, rfl, rfl, outcome⟩ := h.piece
  have halts : HaltsOn task.context piece := ⟨position, _, outcome⟩
  -- Lines clear the steps as they halt; where nothing is armed, no piece arms anything.
  rcases clears with ⟨unfinished, first, head, line⟩ | disarmed
  · rw [is.tasks] at head
    cases head
    cases is with
    | dispatch tasks stage =>
        rw [stage] at line
        exact settles_dispatch unfinished s line halts
    | answer tasks stage =>
        rename_i next
        rw [stage] at line
        cases next with
        | lineTraced position receiver moved => exact settles_checkLine unfinished s position receiver moved halts
        | breakpointReported position onLine =>
            obtain rfl : onLine = true := line
            exact settles_haltAt unfinished position halts
        | exceptionReported | resumed => cases line
  · exact is.steady steady_disarmed disarmed

theorem Halts.breaks (h : w.Halts s move w' id) (paired : w.Paired)
    (disarmed : (w.debugger.context id).Disarmed) : w.Breaks s w' id := by
  obtain ⟨task, rest, piece, position, is, rfl, rfl, outcome⟩ := h.piece
  have halts : HaltsOn task.context piece := ⟨position, _, outcome⟩
  have rests : Rests (w.debugger.context task.context).temporary (w.debugger.context task.context) :=
    ⟨disarmed, rfl⟩
  cases is with
  | dispatch tasks stage => exact .inr (spends_dispatch rests s _ halts)
  | answer tasks stage =>
      rename_i callback next
      have about := paired s task (mem_innermost tasks) stage
      have announced {w' : World} (announces : task.stage.announces) : w.Breaks s w' task.context :=
        .inl ⟨task, head_innermost tasks, announces⟩
      cases about with
      | traced position receiver moved => exact .inr (spends_checkLine rests s position receiver moved halts)
      | breakpoint | catchpoint => exact announced (by rw [stage]; rfl)
      | halted => exact absurd halts (not_haltsOn_done _)

/-- After a halt on a line while no return of a frame is pending, and after any halt while no step is armed,
a context halts on a breakpoint or on an exception only, until it is told to step. -/
theorem halts_on_breakpoint_of_continued {w₀ w₁ w₂ w₃ : World} {earlier later : List Thread} {s' : Nat}
    {move' : Move} (idle : w₀.Idle) (before : Run (fun _ _ _ => True) w₀ earlier w)
    (halt : w.Halts s move w₁ id) (clears : w.Clears s id) (after : Run (Continues id) w₁ later w₂)
    (again : w₂.Halts s' move' w₃ id) : w₂.Breaks s' w₃ id := by
  apply again.breaks
  · exact after.paired ((before.paired idle.paired).step halt.step)
  · exact after.disarmed (halt.disarmed clears)

/-! ## A step that was armed before the halt -/

def lineOf (number : Nat) : Event :=
  { Event.ofKind (.line false) with position := some ⟨"a.rb", number⟩ }

def entryOf (number : Nat) : Event :=
  { Event.ofKind .call with
    position := some ⟨"a.rb", number⟩, method := some "f", enclosingType := some ⟨"T"⟩ }

def watcher (onLine : Bool) : Breakpoint :=
  if onLine then ⟨1, "a.rb", .line 10, none⟩ else ⟨1, "T", .method "f", none⟩

def watched (onLine : Bool) : Event := if onLine then lineOf 10 else entryOf 10

def ownTask (event : Event) : Task := ⟨⟨1, "a"⟩, 0, .asking event, false, 1, some event⟩

def seen (onLine : Bool) : World :=
  let command := .addBreakpoint (watcher onLine).source (watcher onLine).target none
  (startedWithTwo.become ((Request.debugger command).serve 0 startedWithTwo.debugger)).pass 0
    (ownTask (lineOf 1)) (lineOf 1)

def reported (onLine : Bool) : World :=
  ((seen onLine).become ((Request.context 0 (.step 2 false)).serve 0 (seen onLine).debugger)).take 0
    (ownTask (watched onLine)) (watched onLine)

def answer (w : World) (event : Event) (next : Continuation) : World :=
  w.proceed 0 (ownTask event) [] (next.run w.debugger 0 0)

def halting (onLine : Bool) : World :=
  (reported onLine).answer (watched onLine) (.breakpointReported ⟨"a.rb", 10⟩ onLine)

def goneOn (onLine : Bool) : World :=
  let w := (halting onLine).answer (watched onLine) .resumed
  ((w.become w.debugger.release).set 0 []).pass 0 (ownTask (lineOf 11)) (lineOf 11)

theorem run_reported (onLine : Bool) :
    ∃ got, Run (fun _ _ _ => True) startedWithTwo got (reported onLine) := by
  have run : Run (fun _ _ _ => True) startedWithTwo [] _ := .refl startedWithTwo
  have run := run.step (.request (s := 0)
    (.debugger (.addBreakpoint (watcher onLine).source (watcher onLine).target none)) (by rintro _ ⟨⟩)) trivial
  obtain ⟨_, run⟩ : ∃ got, Run (fun _ _ _ => True) startedWithTwo got (seen onLine) := by
    apply run.pass (ownTask (lineOf 1)) (lineOf 1) (fun _ _ _ => trivial) <;> cases onLine <;> rfl
  have free : (seen onLine).IsFree 0 := by
    cases onLine <;> rintro _ ⟨⟩
  have run := run.step (.request (.context 0 (.step 2 false)) free) trivial
  apply run.take (ownTask (watched onLine)) (watched onLine) (fun _ _ _ => trivial) <;> cases onLine <;> rfl

theorem halts_reported (onLine : Bool) : (reported onLine).Halts 0 .answer (halting onLine) 0 := by
  have tasks : (reported onLine).tasks 0 = [{ ownTask (watched onLine) with
      stage := .called (.breakpoint 0 (watcher onLine)) (.breakpointReported ⟨"a.rb", 10⟩ onLine) }] := by
    cases onLine <;> rfl
  refine ⟨.answer tasks rfl, rfl, ?_⟩
  cases onLine <;> exact ⟨_, rfl, ⟨"a.rb", 10⟩, .resumed, rfl⟩

theorem continues_ofEvent (event : Event) (w : World) : ∀ move ∈ Move.ofEvent event, w.Continues 0 0 move := by
  rintro move member request rfl
  simp [Move.ofEvent] at member

theorem run_goneOn (onLine : Bool) : ∃ got, Run (Continues 0) (halting onLine) got (goneOn onLine) := by
  have tasks : (halting onLine).tasks 0 = [{ ownTask (watched onLine) with
      stage := .called (.line 0 ⟨"a.rb", 10⟩) .resumed }] := by
    cases onLine <;> rfl
  have run : Run (Continues 0) (halting onLine) [] _ := .refl (halting onLine)
  have run := run.step (.answer tasks rfl) nofun
  have handled : ((halting onLine).answer (watched onLine) .resumed).tasks 0 =
      [{ ownTask (watched onLine) with stage := .handled }] := by
    cases onLine <;> rfl
  have run := run.step (.release handled rfl) nofun
  apply run.pass (ownTask (lineOf 11)) (lineOf 11) (continues_ofEvent _) <;> cases onLine <;> rfl

theorem halts_on_breakpoint_again :
    let w := (goneOn true).take 0 (ownTask (lineOf 10)) (lineOf 10)
    ((reported true).debugger.context 0).stopNext = .armed 1 ∧
      w.Breaks 0 (w.answer (lineOf 10) (.breakpointReported ⟨"a.rb", 10⟩ true)) 0 := by
  obtain ⟨_, before⟩ := run_reported true
  obtain ⟨_, after⟩ := run_goneOn true
  obtain ⟨_, after⟩ := after.take (ownTask (lineOf 10)) (lineOf 10) (continues_ofEvent _) rfl rfl rfl
  have tasks : ((goneOn true).take 0 (ownTask (lineOf 10)) (lineOf 10)).tasks 0 = [{ ownTask (lineOf 10) with
    stage := .called (.breakpoint 0 (watcher true)) (.breakpointReported ⟨"a.rb", 10⟩ true) }] := rfl
  have clears : (reported true).Clears 0 0 := .inl ⟨rfl, _, rfl, rfl⟩
  have answers := Step.answer tasks rfl
  exact ⟨rfl, halts_on_breakpoint_of_continued idle_startedWithTwo before (halts_reported true) clears after
    ⟨answers, rfl, _, rfl, ⟨"a.rb", 10⟩, .resumed, rfl⟩⟩

/-- After the halt on the method, the thread halts because of the steps that it had been told to make before,
though it was told nothing since then. -/
theorem halts_on_step_of_continued :
    let w := (goneOn false).arrive 0 (lineOf 12) |>.contend 0 (ownTask (lineOf 12)) [] (lineOf 12) false
    let w' := (goneOn false).take 0 (ownTask (lineOf 12)) (lineOf 12)
    (∃ earlier, Run (fun _ _ _ => True) startedWithTwo earlier (reported false)) ∧
      (reported false).Halts 0 .answer (halting false) 0 ∧
      (∃ later, Run (Continues 0) (halting false) later w) ∧ w.Halts 0 .dispatch w' 0 ∧ ¬ w.Breaks 0 w' 0 := by
  obtain ⟨_, after⟩ := run_goneOn false
  have after := after.step (.arrive (s := 0) (lineOf 12) (by rintro _ ⟨⟩)) nofun
  have asks : ((goneOn false).arrive 0 (lineOf 12)).tasks 0 = [ownTask (lineOf 12)] := rfl
  have after := after.step (.ask asks rfl) nofun
  have admitted : (((goneOn false).arrive 0 (lineOf 12)).contend 0 (ownTask (lineOf 12)) [] (lineOf 12)
    false).tasks 0 = [{ ownTask (lineOf 12) with stage := .admitted (lineOf 12) }] := rfl
  have dispatches := Step.dispatch admitted rfl
  refine ⟨run_reported false, halts_reported false, ⟨_, after⟩,
    ⟨dispatches, rfl, _, rfl, ⟨"a.rb", 12⟩, .resumed, rfl⟩, ?_⟩
  rintro (⟨task, first, announces⟩ | ⟨some, _⟩)
  · rw [admitted] at first
    cases first
    cases announces
  · exact absurd some (by decide)

end World

end EventDebugger
