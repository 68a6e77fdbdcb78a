import EventDebugger.Proofs.Dispatch.Breakpoints
import EventDebugger.Proofs.Ticket.Courses

/-!
# Calls of the front-end and deactivation

A front-end that is called may deactivate the debugger, notify further events, also the exit of the program,
and show post-mortems, and all of this from the calls that follow from it. As long as one thread does so, no
call begins while the debugger is not active, but for the halt that was announced by a call from which the
front-end returns.

* `World.isStarted_of_begins`: a call begins while the debugger is active.
* `World.stopped_of_forceStop`: a halt that follows the report of a breakpoint, after a stop by force.
-/

namespace EventDebugger

def Stage.isAdmitted : Stage → Bool
  | .admitted _ => true
  | _ => false

theorem Stage.not_isAdmitted_of_inFront {stage : Stage} (front : stage.inFront) : stage.isAdmitted = false := by
  cases stage with
  | admitted => cases front
  | _ => rfl

theorem Outcome.not_isAdmitted_stage (outcome : Outcome) : outcome.stage.isAdmitted = false := by
  cases outcome <;> rfl

namespace Debugger

theorem isStarted_congr {d d' : Debugger} (same : d'.ticket = d.ticket) : d'.isStarted = d.isStarted := by
  rw [isStarted_eq, isStarted_eq, same]

theorem isStarted_of_contend {d d' : Debugger} {thread : Thread} {id : ContextId} {granted : Bool}
    (admitted : d.contend thread id granted = (.ticket, d')) : d'.isStarted := by
  have contended := d.contended thread id granted
  obtain ⟨turn, rfl⟩ := Prod.ext_iff.mp admitted
  rw [isStarted_contend, isStarted_eq]
  rw [turn] at contended
  generalize (d.contend thread id granted).2.ticket = ticket' at contended
  generalize d.ticket = ticket at contended ⊢
  cases contended <;> rfl

theorem isStarted_of_enterPostMortem {d d' : Debugger} {system : Nat} {before : ContextId × Bool × Bool}
    (entered : d.enterPostMortem system = (.ok before, d')) : d.isStarted := by
  simp only [enterPostMortem, currentContext] at entered
  split at entered
  · cases entered
  · next id d₁ current =>
      split at current
      · next found =>
          obtain ⟨session, active, -⟩ := except_bind_eq_ok found
          exact Option.isSome_iff_exists.mpr ⟨session, activeSession_eq_ok active⟩
      · cases current

theorem halts_of_run {d : Debugger} {system : Nat} {id : ContextId} {next after : Continuation}
    {callback : Callback} (inactive : d.isStarted = false) (calls : (next.run d system id).1 = .call callback after) :
    ∃ position, callback = .line id position ∧ after = .resumed := by
  have ended : d.session = none := Option.not_isSome_iff_eq_none.mp (ne_true_of_eq_false inactive)
  cases next with
  | lineTraced position receiver moved =>
      refine ⟨position, ?_⟩
      simp only [Continuation.run, checkLine] at calls
      split at calls
      · cases calls
        exact ⟨rfl, rfl⟩
      · split at calls
        · cases calls
        · next found met =>
            split at calls
            · have own := (isOwn_captureLine _ system id receiver found).trans (isOwn_of_found met)
              rw [haltOnBreakpoint_of_own own] at calls
              cases found with
              | temporary bp number =>
                  simp only [outcome_haltAt] at calls
                  cases calls
                  exact ⟨rfl, rfl⟩
              | listed bp =>
                  -- The persistent breakpoints went with the session.
                  have unlisted (p : Breakpoint → Bool) :
                      (d.updateContext id (·.countLine moved)).findListed? p = none := by
                    simp only [findListed?, updateContext, ended]
                  simp only [findBreakpoint?, unlisted] at met
                  split at met
                  · split at met
                    · split at met
                      · cases met
                      · cases met
                    · cases met
                  · cases met
            · cases calls
  | breakpointReported position onLine =>
      simp only [Continuation.run, outcome_haltAt] at calls
      cases calls
      exact ⟨position, rfl, rfl⟩
  | exceptionReported position receiver binding =>
      cases calls
      exact ⟨position, rfl, rfl⟩
  | resumed => cases calls

end Debugger

namespace World

open Script (DebuggerCommand)

variable {w w₀ w' : World} {s : Nat} {move : Move} {act : Act}

/-- Steps of one system thread. -/
def Alone (s : Nat) (_ : World) (s' : Nat) (_ : Act) : Prop := s' = s

instance (s' : Nat) : Decidable (Alone s w s' act) := inferInstanceAs (Decidable (s' = s))

/-- A step with which a call of the front-end begins, for an event or for a post-mortem. -/
inductive Begins (w : World) (s : Nat) : Move → World → Prop where
  | event {move : Move} {task : Task} {rest : List Task} {piece : Outcome × Debugger} {callback : Callback}
      {next : Continuation} (is : w.Piece s move task rest piece) (calls : piece.1 = .call callback next) :
      Begins w s move (w.proceed s task rest piece)
  | postMortem {before : ContextId × Bool × Bool} {d : Debugger} (free : w.IsFree s)
      (entered : w.debugger.enterPostMortem s = (.ok before, d)) : Begins w s .enterPostMortem (w.inspect s)

/-- The front-end returns from another call than a halt, and the debugger is not active. -/
def ReturnsStopped (w : World) (s : Nat) (move : Move) : Prop :=
  move = .answer ∧ w.debugger.isStarted = false ∧
    ∃ task ∈ (w.tasks s).head?, ∃ callback next, task.stage = .called callback next ∧ next ≠ .resumed

/-- Events are on their way below calls of the front-end only, and are dispatched while the debugger is active. -/
structure Attended (w : World) (s : Nat) : Prop where
  outer : ∀ task ∈ (w.tasks s).tail, task.stage.inFront
  active : ∀ task ∈ (w.tasks s).head?, task.stage.isAdmitted → w.debugger.isStarted

namespace Attended

theorem of_idle (idle : w.tasks s = []) : w.Attended s := by
  refine ⟨fun task member => ?_, fun task member => ?_⟩
  all_goals
    rw [idle] at member
    cases member

theorem of_inFront (front : ∀ task ∈ w.tasks s, task.stage.inFront) : w.Attended s := by
  refine ⟨fun task member => front task (List.mem_of_mem_tail member), fun task member admitted => ?_⟩
  rw [Stage.not_isAdmitted_of_inFront (front task (List.mem_of_mem_head? member))] at admitted
  cases admitted

theorem of_cons {task : Task} {rest : List Task} (tasks : w.tasks s = task :: rest)
    (front : ∀ outer ∈ rest, outer.stage.inFront) (active : task.stage.isAdmitted → w.debugger.isStarted) :
    w.Attended s := by
  refine ⟨?_, ?_⟩
  · rw [tasks]
    exact front
  · rw [tasks]
    rintro _ ⟨⟩
    exact active

theorem front (h : w.Attended s) (free : w.IsFree s) : ∀ task ∈ w.tasks s, task.stage.inFront := by
  have outer := h.outer
  intro task member
  cases tasks : w.tasks s with
  | nil =>
      rw [tasks] at member
      cases member
  | cons first rest =>
      rw [tasks] at member outer
      rcases List.mem_cons.mp member with rfl | inRest
      · exact free task (head_innermost tasks)
      · exact outer task inRest

theorem rest (h : w.Attended s) {task : Task} {rest : List Task} (tasks : w.tasks s = task :: rest) :
    ∀ outer ∈ rest, outer.stage.inFront := by
  have outer := h.outer
  rw [tasks] at outer
  exact outer

theorem pop (h : w.Attended s) {task : Task} {rest : List Task} (tasks : w.tasks s = task :: rest)
    (d : Debugger) : ((w.become d).set s rest).Attended s := by
  apply of_inFront
  rw [tasks_set_self]
  exact h.rest tasks

theorem swap (h : w.Attended s) {task new : Task} {rest : List Task} (tasks : w.tasks s = task :: rest)
    {d : Debugger} (active : new.stage.isAdmitted → d.isStarted) :
    ((w.become d).set s (new :: rest)).Attended s :=
  of_cons (tasks_set_self ..) (h.rest tasks) active

theorem arrive (h : w.Attended s) (event : Event) (free : w.IsFree s) : (w.arrive s event).Attended s := by
  simp only [World.arrive]
  split
  · exact of_inFront (h.front free)
  · refine of_cons (tasks_set_self ..) (h.front free) fun admitted => ?_
    cases admitted

theorem contend (h : w.Attended s) {task : Task} {rest : List Task} (tasks : w.tasks s = task :: rest)
    (event : Event) (granted : Bool) : (w.contend s task rest event granted).Attended s := by
  simp only [World.contend]
  split
  · next admitted => exact h.swap tasks fun _ => Debugger.isStarted_of_contend admitted
  · exact h.pop tasks _
  · refine h.swap tasks fun admitted => ?_
    cases admitted

theorem proceed (h : w.Attended s) {task : Task} {rest : List Task} (tasks : w.tasks s = task :: rest)
    (piece : Outcome × Debugger) : (w.proceed s task rest piece).Attended s := by
  refine h.swap tasks fun admitted => ?_
  rw [Outcome.not_isAdmitted_stage] at admitted
  cases admitted

theorem inspect (h : w.Attended s) (free : w.IsFree s) : (w.inspect s).Attended s := by
  simp only [World.inspect]
  split
  · exact of_inFront (h.front free)
  · refine of_cons (tasks_set_self ..) (h.front free) fun admitted => ?_
    cases admitted

theorem step (h : w.Attended s) (step : w.Step s move w') : w'.Attended s := by
  cases step with
  | arrive event free => exact h.arrive event free
  | ask tasks stage => exact h.contend tasks _ _
  | awake tasks stage awake => exact h.contend tasks _ _
  | dispatch tasks stage | answer tasks stage | fail tasks stage => exact h.proceed tasks _
  | release tasks stage | leavePostMortem tasks stage => exact h.pop tasks _
  | enterPostMortem free => exact h.inspect free
  | request request free => exact of_inFront (h.front free)
  | execute free same => exact of_inFront (h.front free)
  | register name free => exact of_inFront (h.front free)
  | begin idle free unbound registered => exact of_idle idle
  | exit idle bound => exact of_idle idle

theorem acts (h : w.Attended s) (acts : w.Acts s act w') : w'.Attended s := by
  cases acts with
  | move step => exact h.step step
  | load stop free => exact of_inFront (h.front free)
  | meet free => exact of_inFront (h.front free)
  | skip id on free => exact of_inFront (h.front free)
  | keep on free => exact of_inFront (h.front free)

end Attended

theorem Course.attended (course : Course (Alone s) w w') (h : w.Attended s) : w'.Attended s := by
  induction course with
  | refl => exact h
  | step course next alone ih =>
      cases alone
      exact ih.acts next

theorem Begins.active (begins : w.Begins s move w') (h : w.Attended s) :
    (w.debugger.isStarted ∧ w'.debugger.isStarted) ∨
      (w.ReturnsStopped s move ∧ ∃ task ∈ (w'.tasks s).head?, ∃ position,
        task.stage = .called (.line task.context position) .resumed) := by
  cases begins with
  | @event _ task rest piece _ _ is calls =>
      cases is with
      | dispatch tasks stage =>
          have active := h.active _ (head_innermost tasks) (by rw [stage]; rfl)
          rcases w.debugger.dispatch_cases s _ _ with touched | ⟨done, -⟩
          · exact .inl ⟨active, (Debugger.isStarted_congr touched.keeps.ticket).trans active⟩
          · cases done.symm.trans calls
      | @answer _ _ _ next tasks stage =>
          have same := Debugger.isStarted_congr (w.debugger.touches_run s task.context next).keeps.ticket
          cases active : w.debugger.isStarted with
          | true => exact .inl ⟨rfl, same.trans active⟩
          | false =>
              obtain ⟨position, rfl, rfl⟩ := Debugger.halts_of_run active calls
              refine .inr ⟨⟨rfl, active, task, head_innermost tasks, _, next, stage, ?_⟩,
                { task with stage := .called (.line task.context position) .resumed }, ?_, position, rfl⟩
              · rintro rfl
                cases calls
              · rw [tasks_proceed, calls]
                rfl
  | postMortem free entered =>
      have kept := (w.debugger.tends_enterPostMortem s).ticket
      have active := Debugger.isStarted_of_enterPostMortem entered
      refine .inl ⟨active, ?_⟩
      rw [debugger_inspect]
      exact (Debugger.isStarted_congr kept).trans active

/-- A call of the front-end begins while the debugger is active, in all runs of one system thread, unless the
front-end returns from an earlier call for the same event after the debugger was deactivated. -/
theorem isStarted_of_begins (idle : w₀.tasks s = []) (course : Course (Alone s) w₀ w)
    (begins : w.Begins s move w') (active : ¬ w.ReturnsStopped s move) :
    w.debugger.isStarted ∧ w'.debugger.isStarted := by
  rcases begins.active (course.attended (.of_idle idle)) with started | ⟨stopped, -⟩
  · exact started
  · exact absurd stopped active

/-! ## A stop between the report of a breakpoint and its halt -/

def reaching (requests : List DebuggerCommand) : List (Nat × Act) :=
  let moves : List Move := [.request (.debugger .start),
    .request (.debugger (.addBreakpoint "a.rb" (.line 1) none)), .arrive bareLine, .ask, .dispatch] ++
    requests.map fun request => .request (.debugger request)
  moves.map fun move => (0, .move move)

def commanded (requests : List DebuggerCommand) : World :=
  (unstarted.follow? (Alone 0) (reaching requests)).getD unstarted

def reachedBreakpoint : Breakpoint := ⟨1, "a.rb", .line 1, none⟩

def reporting : Task :=
  ⟨⟨1, "main"⟩, 0, .called (.breakpoint 0 reachedBreakpoint) (.breakpointReported ⟨"a.rb", 1⟩ true), false, 1,
    some bareLine⟩

theorem begins_answer {requests : List DebuggerCommand} (tasks : (commanded requests).tasks 0 = [reporting]) :
    (commanded requests).Begins 0 .answer ((commanded requests).proceed 0 reporting []
      ((Continuation.breakpointReported ⟨"a.rb", 1⟩ true).run (commanded requests).debugger 0 0)) :=
  .event (.answer tasks rfl) (Debugger.outcome_haltAt ..)

theorem isStarted_of_report : ∃ w w', Course (Alone 0) unstarted w ∧ w.Begins 0 .answer w' ∧
    ¬ w.ReturnsStopped 0 .answer ∧ w.debugger.isStarted ∧ w'.debugger.isStarted := by
  have course : Course (Alone 0) unstarted (commanded []) := course_of_follow? (reaching []) rfl
  have begins := begins_answer (show (commanded []).tasks 0 = [reporting] from rfl)
  have active : ¬ (commanded []).ReturnsStopped 0 .answer := by
    rintro ⟨-, stopped, -⟩
    cases stopped
  exact ⟨_, _, course, begins, active, isStarted_of_begins rfl course begins active⟩

/-- The front-end stops the debugger by force while it is told of the breakpoint, and is still called on the
line. -/
theorem stopped_of_forceStop : ∃ w w', Course (Alone 0) unstarted w ∧ w.Begins 0 .answer w' ∧
    w.debugger.isStarted = false ∧ (w'.tasks 0).head?.map (·.stage) = some (.called (.line 0 ⟨"a.rb", 1⟩) .resumed) ∧
    w'.debugger.isStarted = false :=
  have course : Course (Alone 0) unstarted (commanded [.forceStop]) := course_of_follow? (reaching [.forceStop]) rfl
  ⟨_, _, course, begins_answer rfl, rfl, rfl, rfl⟩

end World

end EventDebugger
