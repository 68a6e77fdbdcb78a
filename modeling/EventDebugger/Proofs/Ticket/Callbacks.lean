import EventDebugger.Proofs.Ticket.Discipline

/-!
# Calls of the front-end by several threads

Two roads lead into the front-end: events, which need the ticket, and post-mortems, which do not. Calls of
the first kind never overlap. A post-mortem suspends the contexts of the other threads, but it neither
waits for the one that is in the front-end already nor keeps out a thread that it did not see.

* `World.calls_apart`: which calls are kept apart, and by what.
* `World.not_apart_of_postMortem`: a post-mortem is shown between the report of a breakpoint and its halt.
-/

namespace EventDebugger

namespace Stage

def callback? : Stage → Option Callback
  | .called callback _ => some callback
  | _ => none

def isInspecting : Stage → Bool
  | .inspecting _ => true
  | _ => false

/-- Whether a halt was announced that did not yet reach its line. -/
def announces : Stage → Bool
  | .called (.breakpoint _ _) _ | .called (.catchpoint _ _) _ => true
  | _ => false

/-- Whether the thread is on its way with the ticket or shows a post-mortem. -/
def isBusy (stage : Stage) : Bool := stage.holds || stage.isInspecting

theorem holds_of_callback? {stage : Stage} (called : stage.callback?.isSome) : stage.holds := by
  cases stage with
  | called callback next => rfl
  | _ => cases called

theorem callback?_of_announces {stage : Stage} (announces : stage.announces) : stage.callback?.isSome := by
  cases stage with
  | called callback next => rfl
  | _ => cases announces

theorem holds_of_announces {stage : Stage} (announces : stage.announces) : stage.holds :=
  holds_of_callback? (callback?_of_announces announces)

theorem inFront_of_callback? {stage : Stage} (called : stage.callback?.isSome) : stage.inFront := by
  cases stage with
  | called callback next => rfl
  | _ => cases called

theorem isBusy_of_inFront {stage : Stage} (front : stage.inFront) : stage.isBusy := by
  cases stage with
  | called | inspecting => rfl
  | _ => cases front

theorem not_isInspecting_of_holds {stage : Stage} (holds : stage.holds) : stage.isInspecting = false := by
  cases stage with
  | inspecting => cases holds
  | _ => rfl

theorem holds_or_isInspecting {stage : Stage} (front : stage.inFront) :
    stage.holds ∨ stage.isInspecting := by
  cases stage with
  | called => exact .inl rfl
  | inspecting => exact .inr rfl
  | _ => cases front

end Stage

theorem Debugger.not_suspended_of_contend {d d' : Debugger} {thread : Thread} {id : ContextId}
    {granted : Bool} (admitted : d.contend thread id granted = (.ticket, d')) :
    (d.context id).suspended = false := by
  obtain ⟨session, letIn⟩ := letIn_of_contend admitted (by decide) (by decide)
  simp only [Debugger.letIn] at letIn
  split at letIn
  · cases letIn
  · next running => exact Bool.not_eq_true _ ▸ running

theorem WellStacked.sole {activation : Nat} {tasks : List Task} (h : WellStacked activation tasks)
    {task task' : Task} (member : task ∈ tasks) (holds : task.Holds activation) (member' : task' ∈ tasks)
    (holds' : task'.Holds activation) : task = task' := by
  induction tasks with
  | nil => cases member
  | cons head rest ih =>
      rcases List.mem_cons.mp member with rfl | inRest <;> rcases List.mem_cons.mp member' with rfl | inRest'
      · rfl
      · exact absurd holds (h.1.alone task' inRest' holds')
      · exact absurd holds' (h.1.alone task inRest holds)
      · exact ih h.2 inRest inRest'

namespace World

/-- The tasks in stages of a kind are on one system thread. -/
def Apart (kind : Stage → Bool) (w : World) : Prop :=
  ∀ ⦃s s' task task'⦄, task ∈ w.tasks s → kind task.stage → task' ∈ w.tasks s' → kind task'.stage → s = s'

/-- While a halt of a thread is announced, no allowed step of another one leads to a stage of a kind. -/
def Uninterrupted (allowed : World → Nat → Move → Prop) (kind : Stage → Bool) (w : World) : Prop :=
  ∀ ⦃s s' task move w'⦄, task ∈ w.tasks s → task.stage.announces → w.Step s' move w' →
    allowed w s' move → s' ≠ s → ∀ task' ∈ w'.tasks s', ¬ kind task'.stage

theorem uninterrupted_of_apart {allowed : World → Nat → Move → Prop} {kind : Stage → Bool} {w : World}
    (apart : ∀ {s move w'}, w.Step s move w' → allowed w s move → w'.Apart kind)
    (announced : ∀ {stage : Stage}, stage.announces → kind stage) : w.Uninterrupted allowed kind := by
  intro s s' task move w' member announces step ok ne task' member' called
  have stays : task ∈ w'.tasks s := by
    rw [step.tasks_ne ne.symm]
    exact member
  exact ne (apart step ok member' called stays (announced announces))

/-! ## Post-mortems -/

def Solitary (w : World) : Prop :=
  ∀ ⦃s s' task task'⦄, task ∈ w.tasks s → task.stage.isInspecting → task' ∈ w.tasks s' →
    task'.stage.isBusy → s' = s

/-- Steps of one activation in which a post-mortem begins only while no other thread is busy, and as long
as it is shown, no other thread asks for the ticket unless its context is suspended. -/
structure Secluded (w : World) (s : Nat) (move : Move) : Prop where
  calm : w.Calm s move
  enters : move = .enterPostMortem → ∀ s' ≠ s, ∀ task ∈ w.tasks s', ¬ task.stage.isBusy
  asks : move = .ask ∨ move = .awake → (∃ s' ≠ s, ∃ task ∈ w.tasks s', task.stage.isInspecting) →
    ∀ task ∈ (w.tasks s).head?, (w.debugger.context task.context).suspended

variable {w w' : World} {s : Nat} {move : Move}

theorem Solitary.of_tasks (h : w.Solitary) (others : ∀ s' ≠ s, w'.tasks s' = w.tasks s')
    (own : ∀ task ∈ w'.tasks s, task.stage.isBusy →
      (∃ old ∈ w.tasks s, old.stage.isBusy ∧ (task.stage.isInspecting → old.stage.isInspecting)) ∨
      (¬ task.stage.isInspecting ∧ ∀ s' ≠ s, ∀ other ∈ w.tasks s', ¬ other.stage.isInspecting) ∨
      ∀ s' ≠ s, ∀ other ∈ w.tasks s', ¬ other.stage.isBusy) : w'.Solitary := by
  have busy {stage : Stage} (inspecting : stage.isInspecting) : stage.isBusy := by
    rw [Stage.isBusy, inspecting, Bool.or_true]
  intro s₁ s₂ task task' member inspecting member' busy'
  -- Either of the two tasks, or none, can be on the system thread that moved.
  by_cases first : s₁ = s
  · subst first
    apply Decidable.byContradiction
    intro ne
    rw [others s₂ ne] at member'
    rcases own task member (busy inspecting) with ⟨old, was, _, inspected⟩ | ⟨not, _⟩ | free
    · exact ne (h was (inspected inspecting) member' busy')
    · exact not inspecting
    · exact free s₂ ne task' member' busy'
  · rw [others s₁ first] at member
    by_cases second : s₂ = s
    · subst second
      rcases own task' member' busy' with ⟨old, was, wasBusy, _⟩ | ⟨_, free⟩ | free
      · exact h member inspecting was wasBusy
      · exact absurd inspecting (free s₁ first task member)
      · exact absurd (busy inspecting) (free s₁ first task member)
    · rw [others s₂ second] at member'
      exact h member inspecting member' busy'

theorem not_isInspecting_stage (outcome : Outcome) : ¬ outcome.stage.isInspecting := by
  cases outcome <;> exact Bool.false_ne_true

theorem tasks_contend (w : World) (s : Nat) (task : Task) (rest : List Task) (event : Event)
    (granted : Bool) :
    let tasks := (w.contend s task rest event granted).tasks s
    tasks = rest ∨ (∃ waiting : Task, waiting.stage.isWaiting ∧ tasks = waiting :: rest) ∨
      (w.debugger.context task.context).suspended = false ∧
        ∃ admitted : Task, admitted.stage = .admitted event ∧ tasks = admitted :: rest := by
  simp only [contend]
  split
  · next admitted =>
      rw [tasks_set_self]
      exact .inr (.inr ⟨Debugger.not_suspended_of_contend admitted, _, rfl, rfl⟩)
  · exact .inl (tasks_set_self ..)
  · rw [tasks_set_self]
    exact .inr (.inl ⟨_, rfl, rfl⟩)

theorem Solitary.contend (h : w.Solitary) (secluded : w.Secluded s move)
    (asked : move = .ask ∨ move = .awake) {task : Task} {rest : List Task} {event : Event} {granted : Bool}
    (tasks : w.tasks s = task :: rest) : (w.contend s task rest event granted).Solitary := by
  have stays {other : Task} (inRest : other ∈ rest) (busy : other.stage.isBusy) :
      ∃ old ∈ w.tasks s, old.stage.isBusy ∧ (other.stage.isInspecting → old.stage.isInspecting) :=
    ⟨other, mem_outer tasks inRest, busy, id⟩
  apply h.of_tasks fun s' ne => w.tasks_contend_ne ne task rest event granted
  intro other member busy
  rcases w.tasks_contend s task rest event granted with
    dropped | ⟨waiting, waits, after⟩ | ⟨running, admitted, stage, after⟩
  · rw [dropped] at member
    exact .inl (stays member busy)
  · rw [after] at member
    rcases List.mem_cons.mp member with rfl | inRest
    · revert waits busy
      cases other.stage <;> simp [Stage.isWaiting, Stage.isBusy, Stage.holds, Stage.isInspecting]
    · exact .inl (stays inRest busy)
  · rw [after] at member
    rcases List.mem_cons.mp member with rfl | inRest
    · refine .inr (.inl ⟨?_, fun s' ne shown shownMember inspecting => ?_⟩)
      · rw [stage]
        exact Bool.false_ne_true
      · have suspended := secluded.asks asked ⟨s', ne, shown, shownMember, inspecting⟩ task (head_innermost tasks)
        rw [running] at suspended
        cases suspended
    · exact .inl (stays inRest busy)

theorem Solitary.proceed (h : w.Solitary) {task : Task} {rest : List Task} (tasks : w.tasks s = task :: rest)
    (holds : task.stage.holds) (piece : Outcome × Debugger) : (w.proceed s task rest piece).Solitary := by
  apply h.of_tasks fun s' ne => tasks_set_ne _ ne _
  intro other member busy
  rw [tasks_set_self] at member
  rcases List.mem_cons.mp member with rfl | inRest
  · refine .inl ⟨task, mem_innermost tasks, ?_, fun inspecting => absurd inspecting (not_isInspecting_stage _)⟩
    rw [Stage.isBusy, holds, Bool.true_or]
  · exact .inl ⟨other, mem_outer tasks inRest, busy, id⟩

theorem Solitary.of_fewer (h : w.Solitary) (others : ∀ s' ≠ s, w'.tasks s' = w.tasks s')
    (own : ∀ task ∈ w'.tasks s, task.stage.isBusy → task ∈ w.tasks s) : w'.Solitary := by
  apply h.of_tasks others
  intro task member busy
  exact .inl ⟨task, own task member busy, busy, id⟩

theorem Solitary.arrive (h : w.Solitary) (event : Event) : (w.arrive s event).Solitary := by
  apply h.of_fewer fun s' ne => w.tasks_arrive_ne ne event
  intro task member busy
  simp only [World.arrive] at member
  split at member
  · exact member
  · rw [tasks_set_self] at member
    rcases List.mem_cons.mp member with rfl | was
    · cases busy
    · exact was

theorem Solitary.inspect (h : w.Solitary) (enters : ∀ s' ≠ s, ∀ task ∈ w.tasks s', ¬ task.stage.isBusy) :
    (w.inspect s).Solitary := by
  apply h.of_tasks fun s' ne => w.tasks_inspect_ne ne
  intro task member busy
  exact .inr (.inr enters)

theorem Solitary.step (h : w.Solitary) (step : w.Step s move w') (secluded : w.Secluded s move) :
    w'.Solitary := by
  have ends {d : Debugger} {task : Task} {rest : List Task} (tasks : w.tasks s = task :: rest) :
      ((w.become d).set s rest).Solitary := by
    apply h.of_fewer fun s' ne => tasks_set_ne _ ne _
    intro other member busy
    rw [tasks_set_self] at member
    exact mem_outer tasks member
  cases step with
  | arrive event free => exact h.arrive event
  | ask tasks stage => exact h.contend secluded (.inl rfl) tasks
  | awake tasks stage awake => exact h.contend secluded (.inr rfl) tasks
  | dispatch tasks stage => exact h.proceed tasks (by rw [stage]; rfl) _
  | answer tasks stage => exact h.proceed tasks (by rw [stage]; rfl) _
  | fail tasks stage => exact h.proceed tasks (by rw [stage]; rfl) _
  | release tasks stage => exact ends tasks
  | leavePostMortem tasks stage => exact ends tasks
  | enterPostMortem free => exact h.inspect (secluded.enters rfl)
  | request | execute | register | begin | exit => exact h

theorem Run.mono {allowed allowed' : World → Nat → Move → Prop} {got : List Thread}
    (run : Run allowed w got w') (weaker : ∀ {w s move}, allowed w s move → allowed' w s move) :
    Run allowed' w got w' := by
  induction run with
  | refl => exact .refl w
  | step run next ok ih => exact ih.step next (weaker ok)

theorem Run.solitary {got : List Thread} (run : Run Secluded w got w') (h : w.Solitary) : w'.Solitary := by
  induction run with
  | refl => exact h
  | step run next secluded ih => exact ih.step next secluded

/-! ## Both roads -/

theorem Orderly.sole (h : w.Orderly) (current : w.Current) (active : w.debugger.ticket.isSome) {s s' : Nat}
    {task task' : Task} (member : task ∈ w.tasks s) (holds : task.stage.holds) (member' : task' ∈ w.tasks s')
    (holds' : task'.stage.holds) : s = s' ∧ task = task' := by
  obtain ⟨⟨holder, waiting⟩, ticket⟩ := Option.isSome_iff_exists.mp active
  have own : task.Holds w.activation := ⟨holds, current s task member⟩
  have own' : task'.Holds w.activation := ⟨holds', current s' task' member'⟩
  have first := (h.custody ticket).single _ ⟨s, task, member, rfl, own⟩
  have second := (h.custody ticket).single _ ⟨s', task', member', rfl, own'⟩
  obtain rfl : s = s' := h.same_system member' member (Option.some.inj (first.symm.trans second))
  exact ⟨rfl, (h.stacked s).sole member own member' own'⟩

theorem events_apart {w₀ : World} {got : List Thread} (idle : w₀.Idle) (run : Run Calm w₀ got w) :
    w.Apart fun stage => stage.callback?.isSome := by
  obtain ⟨orderly, current, lasting⟩ := run.orderly_lasting idle.orderly idle.current idle.lasting
  intro s s' task task' member called member' called'
  exact (orderly.sole current lasting.active member (Stage.holds_of_callback? called) member'
    (Stage.holds_of_callback? called')).1

theorem all_apart {w₀ : World} {got : List Thread} (idle : w₀.Idle) (run : Run Secluded w₀ got w) :
    w.Apart Stage.inFront := by
  obtain ⟨orderly, current, lasting⟩ :=
    (run.mono Secluded.calm).orderly_lasting idle.orderly idle.current idle.lasting
  have solitary : w.Solitary := by
    apply run.solitary
    intro s s' task task' member
    rw [idle.tasks s] at member
    cases member
  intro s s' task task' member front member' front'
  rcases Stage.holds_or_isInspecting front with holds | inspecting
  · rcases Stage.holds_or_isInspecting front' with holds' | inspecting'
    · exact (orderly.sole current lasting.active member holds member' holds').1
    · exact solitary member' inspecting' member (Stage.isBusy_of_inFront front)
  · exact (solitary member inspecting member' (Stage.isBusy_of_inFront front')).symm

/-- Calls of the front-end by events of two threads never overlap, and none is made between the report of a
breakpoint or of an exception and the halt that it announces. With the calls on post-mortems this
holds as long as a post-mortem begins only while no other thread is busy, and no other thread gets
to ask for the ticket without being suspended while it is shown. -/
theorem calls_apart {w₀ : World} (idle : w₀.Idle) :
    (∀ {got w}, Run Calm w₀ got w → w.Apart (fun stage => stage.callback?.isSome) ∧
      w.Uninterrupted Calm fun stage => stage.callback?.isSome) ∧
    (∀ {got w}, Run Secluded w₀ got w → w.Apart Stage.inFront ∧ w.Uninterrupted Secluded Stage.inFront) := by
  refine ⟨fun run => ⟨events_apart idle run, ?_⟩, fun run => ⟨all_apart idle run, ?_⟩⟩
  · apply uninterrupted_of_apart
    · intro s move w' step calm
      exact events_apart idle (run.step step calm)
    · exact Stage.callback?_of_announces
  · apply uninterrupted_of_apart
    · intro s move w' step secluded
      exact all_apart idle (run.step step secluded)
    · exact fun announces => Stage.inFront_of_callback? (Stage.callback?_of_announces announces)

/-! ## A post-mortem during a halt -/

def otherLine : Event := { Event.ofKind (.line false) with position := some ⟨"b.rb", 1⟩ }

def raised : Event :=
  { Event.ofKind (.raise (.exception "E" 1)) with position := some ⟨"b.rb", 2⟩, receiver := some .nil }

def take (w : World) (s : Nat) (task : Task) (event : Event) : World :=
  let w := (w.arrive s event).contend s task [] event false
  w.proceed s { task with stage := .admitted event } [] (w.debugger.dispatch s task.context event)

def pass (w : World) (s : Nat) (task : Task) (event : Event) : World :=
  let w := w.take s task event
  (w.become w.debugger.release).set s []

theorem Run.take {allowed : World → Nat → Move → Prop} {w₀ : World} {got : List Thread}
    (run : Run allowed w₀ got w) (task : Task) (event : Event)
    (ok : ∀ w, ∀ move ∈ Move.ofEvent event, allowed w s move) (free : w.tasks s = [])
    (arrives : (w.arrive s event).tasks s = [{ task with stage := .asking event }])
    (admitted : ((w.arrive s event).contend s { task with stage := .asking event } [] event false).tasks s =
      [{ task with stage := .admitted event }]) :
    ∃ got, Run allowed w₀ got (w.take s { task with stage := .asking event } event) := by
  have idle : w.IsFree s := by
    rw [IsFree, free]
    rintro _ ⟨⟩
  have run := run.step (.arrive event idle) (ok _ _ (by simp [Move.ofEvent]))
  have run := run.step (.ask arrives rfl) (ok _ _ (by simp [Move.ofEvent]))
  have run := run.step (.dispatch admitted rfl) (ok _ _ (by simp [Move.ofEvent]))
  exact ⟨_, run⟩

theorem Run.pass {allowed : World → Nat → Move → Prop} {w₀ : World} {got : List Thread}
    (run : Run allowed w₀ got w) (task : Task) (event : Event)
    (ok : ∀ w, ∀ move ∈ Move.ofEvent event, allowed w s move) (free : w.tasks s = [])
    (arrives : (w.arrive s event).tasks s = [{ task with stage := .asking event }])
    (admitted : ((w.arrive s event).contend s { task with stage := .asking event } [] event false).tasks s =
      [{ task with stage := .admitted event }])
    (silent : (((w.arrive s event).contend s { task with stage := .asking event } [] event
      false).debugger.dispatch s task.context event).1 = .done) :
    ∃ got, Run allowed w₀ got (w.pass s { task with stage := .asking event } event) := by
  obtain ⟨_, run⟩ := run.take task event ok free arrives admitted
  have handled {w : World} {task : Task} {piece : Outcome × Debugger} (silent : piece.1 = .done) :
      (w.proceed s task [] piece).tasks s = [{ task with stage := .handled }] := by
    rw [World.proceed, tasks_set_self, silent]
    rfl
  exact ⟨_, run.step (.release (handled silent) rfl) (ok _ _ (by simp [Move.ofEvent]))⟩

theorem calm_of_mild {event : Event} (mild : event.isExit = false) (w : World) (s : Nat) :
    ∀ move ∈ Move.ofEvent event, w.Calm s move := by
  simp [Move.ofEvent, Calm, Move.isCalm, mild]

def prepared : World :=
  let w := startedWithTwo.become
    ((Request.debugger (.setPostMortem true)).serve 1 startedWithTwo.debugger)
  w.become ((Request.debugger (.addBreakpoint "a.rb" (.line 1) none)).serve 1 w.debugger)

def asking (event : Event) : Task := ⟨⟨2, "b"⟩, 0, .asking event, false, 1, some event⟩

def crashed : World := (prepared.pass 1 (asking otherLine) otherLine).pass 1 (asking raised) raised

def announced : World := crashed.take 0 ⟨⟨1, "a"⟩, 2, .asking lineEvent, false, 1, some lineEvent⟩ lineEvent

theorem run_announced : ∃ got, Run Calm startedWithTwo got announced := by
  have run : Run Calm startedWithTwo [] _ := .refl startedWithTwo
  have run := run.step (.request (s := 1) (.debugger (.setPostMortem true)) (by rintro _ ⟨⟩)) rfl
  have run := run.step (.request (s := 1) (.debugger (.addBreakpoint "a.rb" (.line 1) none))
    (by rintro _ ⟨⟩)) rfl
  obtain ⟨_, run⟩ := run.pass (w := prepared) (s := 1) (asking otherLine) otherLine
    (fun w => calm_of_mild rfl w 1) rfl rfl rfl rfl
  obtain ⟨_, run⟩ := run.pass (w := prepared.pass 1 (asking otherLine) otherLine) (s := 1)
    (asking raised) raised (fun w => calm_of_mild rfl w 1) rfl rfl rfl rfl
  exact run.take (w := crashed) (s := 0) ⟨⟨1, "a"⟩, 2, .asking lineEvent, false, 1, some lineEvent⟩ lineEvent
    (fun w => calm_of_mild rfl w 0) rfl rfl rfl

def secluded : World :=
  let task : Task := ⟨⟨1, "a"⟩, 1, .asking lineEvent, false, 1, some lineEvent⟩
  ((startedWithTwo.inspect 1).arrive 0 lineEvent).contend 0 task [] lineEvent false

theorem run_secluded : ∃ got, Run Secluded startedWithTwo got secluded := by
  have run : Run Secluded startedWithTwo [] _ := .refl startedWithTwo
  have run := run.step (.enterPostMortem (s := 1) (by rintro _ ⟨⟩))
    ⟨rfl, by rintro _ _ _ _ ⟨⟩, by rintro (asks | asks) <;> cases asks⟩
  have run := run.step (.arrive (s := 0) lineEvent (by rintro _ ⟨⟩))
    ⟨rfl, nofun, by rintro (asks | asks) <;> cases asks⟩
  have asks : ((startedWithTwo.inspect 1).arrive 0 lineEvent).tasks 0 =
    [⟨⟨1, "a"⟩, 1, .asking lineEvent, false, 1, some lineEvent⟩] := rfl
  refine ⟨_, run.step (.ask asks rfl) ⟨rfl, nofun, fun _ _ => ?_⟩⟩
  rintro task ⟨⟩
  rfl

theorem apart_announced : (∃ got, Run Calm startedWithTwo got announced) ∧
    announced.Apart (fun stage => stage.callback?.isSome) ∧ secluded.Apart Stage.inFront := by
  obtain ⟨got, run⟩ := run_announced
  obtain ⟨_, run'⟩ := run_secluded
  exact ⟨⟨got, run⟩, ((calls_apart idle_startedWithTwo).1 run).1, ((calls_apart idle_startedWithTwo).2 run').1⟩

/-- The post-mortem of the second thread is shown between the report of the breakpoint on which the first
one halts and the halt. -/
theorem not_apart_of_postMortem : ∃ got, Run Calm startedWithTwo got announced ∧
    (announced.debugger.postMortem? (.exception "E" 1)).isSome ∧
    announced.Step 1 .enterPostMortem (announced.inspect 1) ∧
    ¬ (announced.inspect 1).Apart Stage.inFront ∧ ¬ announced.Uninterrupted Calm Stage.inFront := by
  obtain ⟨got, run⟩ := run_announced
  have enters : announced.Step 1 .enterPostMortem (announced.inspect 1) :=
    .enterPostMortem (by rintro _ ⟨⟩)
  let halting : Task := ⟨⟨1, "a"⟩, 2,
    .called (.breakpoint 2 ⟨1, "a.rb", .line 1, none⟩) (.breakpointReported ⟨"a.rb", 1⟩ true), false, 1, some lineEvent⟩
  let shown : Task := ⟨⟨2, "b"⟩, 0, .inspecting (0, false, false), false, 1, none⟩
  have reported : announced.tasks 0 = [halting] := rfl
  have first : halting ∈ announced.tasks 0 := reported ▸ List.mem_cons_self
  have entered : (announced.inspect 1).tasks 1 = [shown] := rfl
  have second : shown ∈ (announced.inspect 1).tasks 1 := entered ▸ List.mem_cons_self
  refine ⟨got, run, by decide, enters, fun apart => ?_, fun uninterrupted => ?_⟩
  · have stays : halting ∈ (announced.inspect 1).tasks 0 := by
      rw [announced.tasks_inspect_ne (by decide)]
      exact first
    have same : 0 = 1 := apart stays rfl second rfl
    omega
  · exact uninterrupted first rfl enters rfl (by decide) shown second rfl

end World

end EventDebugger
