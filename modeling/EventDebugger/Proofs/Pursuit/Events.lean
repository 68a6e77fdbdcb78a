import EventDebugger.Proofs.Pursuit.Scenes
import EventDebugger.Proofs.Ticket.Frames

/-!
# The events of tasks

A task goes on with its event: with what is left of it after a call of the front-end, or with its search for a
breakpoint. Its context is that of its thread, and events are not ignored there.

* `Scene.Course.sound`: in every scene that is reached.
-/

namespace EventDebugger

structure Event.Awaits (event : Event) (callback : Callback) (next : Continuation) : Prop where
  mayCall : event.kind.mayCall
  line : ∀ {id position}, callback = .line id position → event.position = some position
  place : ∀ {position}, next.position? = some position → event.position = some position
  traced : ∀ {position receiver moved}, next = .lineTraced position receiver moved →
    event.kind = .line false ∧ event.receiver = receiver

def Task.Fits (task : Task) : Prop :=
  match task.stage with
  | .asking event | .waiting event _ _ | .admitted event => task.event = some event
  | .called callback next => ∃ event, task.event = some event ∧ event.Awaits callback next
  | .handled | .inspecting _ => True

namespace Debugger

variable {d : Debugger} {system : Nat} {id : ContextId} {event : Event} {callback : Callback} {position : Position}
  {receiver : Option Value} {moved : Bool} {next after : Continuation}

theorem rank_onCall_le (d : Debugger) (system : Nat) (id : ContextId) (event : Event) (position : Position) :
    (d.onCall system id event position).1.rank ≤ 2 := by
  rw [onCall_eq]
  dsimp only
  split
  · exact Nat.zero_le 2
  · split
    · exact rank_haltOnBreakpoint_le ..
    · exact Nat.zero_le 2

theorem traced_of_dispatch
    (calls : (d.dispatch system id event).1 = .call callback (.lineTraced position receiver moved)) :
    event.kind = .line false ∧ event.receiver = receiver := by
  have called : (d.dispatch system id event).1 ≠ .done := by
    intro done
    cases done.symm.trans calls
  have high {piece : Outcome × Debugger} (same : d.dispatch system id event = piece) (low : piece.1.rank ≤ 2) :
      False := by
    rw [← same, calls] at low
    exact Nat.lt_irrefl 2 low
  obtain ⟨heeded, place, at'⟩ := position_of_calls called
  cases kind : event.kind with
  | line conditional =>
      cases conditional with
      | true => exact (high (dispatch_conditional system id event place d heeded at' kind) (Nat.zero_le 2)).elim
      | false =>
          have line := EventDebugger.dispatch_line system id event place d heeded at' kind
          dsimp only at line
          split at line
          · rw [line] at calls
            cases calls
            exact ⟨rfl, rfl⟩
          · exact (high line (rank_checkLine_le ..)).elim
  | call => exact (high (dispatch_call system id event place d heeded at' kind) (rank_onCall_le ..)).elim
  | raise exception => cases (report_of_raise kind calls).2
  | _ =>
      simp only [dispatch, heeded, at', dispatchAt, kind, Bool.false_eq_true, if_false] at called
      repeat' split at called
      all_goals exact absurd rfl called

theorem awaits_dispatch (known : id < d.contexts.size) (calls : (d.dispatch system id event).1 = .call callback next) :
    event.Awaits callback next := by
  have called : (d.dispatch system id event).1 ≠ .done := by
    intro done
    cases done.symm.trans calls
  obtain ⟨heeded, position, at'⟩ := position_of_calls called
  have stands := stands_dispatch known system heeded at'
  refine ⟨(leaves_dispatch known system heeded at').2 called, ?_, fun place => (stands.awaits calls place) ▸ at', ?_⟩
  · rintro id' place rfl
    obtain rfl : id' = id := (leaves_dispatch known system heeded at').1.about calls
    exact (stands.halts calls).1 ▸ at'
  · rintro place receiver moved rfl
    exact traced_of_dispatch calls

theorem position_of_run (calls : (next.run d system id).1 = .call callback after) :
    ∃ position, next.position? = some position := by
  cases next with
  | resumed => cases calls
  | lineTraced position | breakpointReported position | exceptionReported position => exact ⟨position, rfl⟩

theorem awaits_run (known : id < d.contexts.size) {callback' : Callback} (awaits : event.Awaits callback' next)
    (calls : (next.run d system id).1 = .call callback after) : event.Awaits callback after := by
  obtain ⟨position, before⟩ := position_of_run calls
  have at' := awaits.place before
  have stands := stands_run known system before
  refine ⟨awaits.mayCall, ?_, fun place => (stands.awaits calls place) ▸ at', ?_⟩
  · rintro id' place rfl
    obtain rfl : id' = id := (leaves_run known system next).about calls
    exact (stands.halts calls).1 ▸ at'
  · rintro place receiver moved rfl
    have lower := next.rank_run_lt d system id
    have bound : next.rank ≤ 3 := by cases next <;> simp [Continuation.rank]
    rw [calls] at lower
    exact absurd (Nat.lt_of_lt_of_le lower bound) (Nat.lt_irrefl 3)

end Debugger

namespace World

variable {w w' : World} {s s' : Nat} {act : Act} {task : Task} {rest : List Task} {first : ContextId} {d : Debugger}
  {outcome : Outcome}

theorem Acts.tasks_ne (acts : w.Acts s act w') (ne : s' ≠ s) : w'.tasks s' = w.tasks s' := by
  cases acts with
  | move step => exact step.tasks_ne ne
  | load | meet | skip | keep => rfl

def Fitted (w : World) : Prop := ∀ s, ∀ task ∈ w.tasks s, task.Fits

namespace Fitted

theorem set (h : w.Fitted) {own : List Task} (fits : ∀ task ∈ own, task.Fits) : (w.set s own).Fitted :=
  w.forall_tasks_set h fits

theorem outer (h : w.Fitted) (tasks : w.tasks s = task :: rest) : ∀ other ∈ rest, other.Fits :=
  fun other member => h s other (mem_outer tasks member)

theorem become (h : w.Fitted) (d : Debugger) : (w.become d).Fitted := h

theorem contend (h : w.Fitted) (tasks : w.tasks s = task :: rest) {event : Event} (own : task.event = some event)
    (granted : Bool) : (w.contend s task rest event granted).Fitted := by
  simp only [World.contend]
  split
  · exact (h.become _).set (List.forall_mem_cons.mpr ⟨own, h.outer tasks⟩)
  · exact (h.become _).set (h.outer tasks)
  · exact (h.become _).set (List.forall_mem_cons.mpr ⟨own, h.outer tasks⟩)

theorem proceed (h : w.Fitted) (tasks : w.tasks s = task :: rest)
    (awaits : ∀ {callback next}, outcome = .call callback next →
      ∃ event, task.event = some event ∧ event.Awaits callback next) :
    (w.proceed s task rest (outcome, d)).Fitted := by
  refine (h.become d).set (List.forall_mem_cons.mpr ⟨?_, h.outer tasks⟩)
  cases outcome with
  | done => trivial
  | call callback next => exact awaits rfl

theorem step (h : w.Fitted) (lodged : w.Lodged) {move : Move} (step : w.Step s move w') : w'.Fitted := by
  have own {task : Task} {rest : List Task} (tasks : w.tasks s = task :: rest) : task.Fits :=
    h s task (mem_innermost tasks)
  cases step with
  | arrive event free =>
      simp only [World.arrive]
      split
      · exact h.become _
      · exact (h.become _).set (List.forall_mem_cons.mpr ⟨rfl, h s⟩)
  | ask tasks stage | awake tasks stage =>
      have fits := own tasks
      rw [Task.Fits, stage] at fits
      exact h.contend tasks fits _
  | dispatch tasks stage =>
      rename_i event
      have fits := own tasks
      rw [Task.Fits, stage] at fits
      have known := (lodged.home s _ (mem_innermost tasks) (by rw [stage]; rfl)).1
      exact h.proceed tasks fun calls => ⟨event, fits, Debugger.awaits_dispatch known calls⟩
  | answer tasks stage =>
      have fits := own tasks
      rw [Task.Fits, stage] at fits
      obtain ⟨event, is, awaits⟩ := fits
      have known := (lodged.home s _ (mem_innermost tasks) (by rw [stage]; rfl)).1
      exact h.proceed tasks fun calls => ⟨event, is, Debugger.awaits_run known awaits calls⟩
  | fail tasks stage => exact h.proceed tasks fun calls => by cases calls
  | release tasks stage | leavePostMortem tasks stage => exact (h.become _).set (h.outer tasks)
  | enterPostMortem free =>
      simp only [World.inspect]
      split
      · exact h.become _
      · exact (h.become _).set (List.forall_mem_cons.mpr ⟨trivial, h s⟩)
  | request | execute | register | begin | exit => exact h.become _

theorem acts (h : w.Fitted) (lodged : w.Lodged) (acts : w.Acts s act w') : w'.Fitted := by
  cases acts with
  | move step => exact h.step lodged step
  | load | meet | skip | keep => exact h.become _

end Fitted

/-! ## Parts of the dispatch of an event -/

inductive Forwards (w : World) (s : Nat) (task : Task) (rest : List Task) : World → Prop where
  | goes {d : Debugger} (touches : w.debugger.Touches s task.context d) : Forwards w s task rest (w.become d)
  | ends {outcome : Outcome} {d : Debugger} (touches : w.debugger.Touches s task.context d)
      (about : outcome.About task.context) : Forwards w s task rest (w.proceed s task rest (outcome, d))

namespace Forwards

theorem touches (forwards : w.Forwards s task rest w') : w.debugger.Touches s task.context w'.debugger := by
  cases forwards with
  | goes touches | ends touches => exact touches

theorem tasks_ne (forwards : w.Forwards s task rest w') (ne : s' ≠ s) : w'.tasks s' = w.tasks s' := by
  cases forwards with
  | goes => rfl
  | ends => exact tasks_set_ne _ ne _

theorem source (forwards : w.Forwards s task rest w') (tasks : w.tasks s = task :: rest) (holds : task.stage.holds)
    {task' : Task} (member : task' ∈ w'.tasks s') : ∃ before ∈ w.tasks s', task'.thread = before.thread ∧
      task'.context = before.context ∧ (task'.stage.isInspecting = false → before.stage.isInspecting = false) := by
  have same (before : task' ∈ w.tasks s') : ∃ before ∈ w.tasks s', task'.thread = before.thread ∧
      task'.context = before.context ∧ (task'.stage.isInspecting = false → before.stage.isInspecting = false) :=
    ⟨task', before, rfl, rfl, fun event => event⟩
  cases forwards with
  | goes => exact same member
  | ends =>
      by_cases here : s' = s
      · subst here
        rw [tasks_proceed] at member
        rcases List.mem_cons.mp member with rfl | inRest
        · exact ⟨task, mem_innermost tasks, rfl, rfl, fun _ => Stage.not_isInspecting_of_holds holds⟩
        · exact same (mem_outer tasks inRest)
      · rw [World.proceed, tasks_set_ne _ here] at member
        exact same member

theorem lodged (forwards : w.Forwards s task rest w') (tasks : w.tasks s = task :: rest) (holds : task.stage.holds)
    (h : w.Lodged) : w'.Lodged := by
  have touches := forwards.touches
  have lodges := touches.lodges
  refine ⟨touches.grows.own h.own, lodges.tracked h.tracked, fun s' task' member event => ?_,
    fun s' task' member event => ?_⟩
  · obtain ⟨before, old, thread, -, was⟩ := forwards.source tasks holds member
    rw [thread]
    exact touches.grows.bound (h.bound s' before old (was event))
  · obtain ⟨before, old, thread, context, was⟩ := forwards.source tasks holds member
    obtain ⟨known, home⟩ := h.home s' before old (was event)
    rw [thread, context]
    exact ⟨Nat.lt_of_lt_of_le known lodges.size, (lodges.thread _ known).trans home⟩

theorem heard (forwards : w.Forwards s task rest w') (tasks : w.tasks s = task :: rest) (holds : task.stage.holds)
    (h : w.Heard first) : w'.Heard first := by
  have touches := forwards.touches
  have live {id : ContextId} (known : id < w.debugger.contexts.size) :
      (w'.debugger.context id).dead = (w.debugger.context id).dead :=
    congrArg (·.2.2.2.2.2.2.1) (touches.traits id known)
  refine ⟨forwards.lodged tasks holds h.lodged, Nat.le_trans h.size touches.size, fun {thread id} found => ?_,
    fun s' task' member event => ?_⟩
  · have old : w.debugger.contextOf? thread = some id := by
      rwa [Debugger.contextOf?, touches.session] at found
    exact ⟨(h.tracked old).1, (live (h.lodged.tracked.known old).1).trans (h.tracked old).2⟩
  · obtain ⟨before, old, -, context, was⟩ := forwards.source tasks holds member
    have known := (h.lodged.home s' before old (was event)).1
    obtain ⟨recent, alive, heard⟩ := h.attends s' before old (was event)
    rw [context]
    exact ⟨recent, (live known).trans alive, (congrArg (·.2.2.2.2.2.1) (touches.traits _ known)).trans heard⟩

end Forwards

end World

/-! ## Searches -/

theorem Quest.Steps.awaits {event : Event} {position : Position} {d d' : Debugger} {system : Nat} {id : ContextId}
    {phase : Quest.Phase} {callback : Callback} {next : Continuation} (mayCall : event.kind.mayCall)
    (at' : event.position = some position)
    (steps : (event.quest position).Steps d system id phase (.inr (.call callback next), d')) :
    event.Awaits callback next := by
  cases steps with
  | due | fires =>
      refine ⟨mayCall, fun line => ?_, (fun place => by cases place), fun traced => by cases traced⟩
      cases line
      exact at'
  | reports =>
      refine ⟨mayCall, (fun line => by cases line), fun place => ?_, fun traced => by cases traced⟩
      cases place
      exact at'

/-- The search of a system thread is that of its innermost event, which is about to be dispatched, or whose line
was traced. -/
inductive Quest.IsOf (quest : Quest) (tasks : List Task) : Prop where
  | intro {task : Task} {rest : List Task} {event : Event} {position : Position} (tasks : tasks = task :: rest)
      (own : task.event = some event) (at' : event.position = some position) (same : quest = event.quest position)
      (kind : event.kind = if quest.onLine then .line false else .call)
      (stage : task.stage = .admitted event ∨
        ∃ callback receiver moved, task.stage = .called callback (.lineTraced position receiver moved))

theorem Debugger.quest_of_pursuit? {d : Debugger} {system : Nat} {id : ContextId} {event : Event}
    {begun : Pursuit × Debugger} (begins : d.pursuit? system id event = some begun) :
    (d.context id).skipped = false ∧ ∃ position, event.position = some position ∧
      begun.1.quest = event.quest position ∧ event.kind = (if begun.1.quest.onLine then .line false else .call) ∧
      d.Touches system id begun.2 := by
  obtain ⟨heeded, begins⟩ := Option.ite_none_left_eq_some.mp begins
  refine ⟨eq_false_of_ne_true heeded, ?_⟩
  split at begins
  · next position at' kind =>
      obtain ⟨-, begins⟩ := Option.ite_none_left_eq_some.mp begins
      cases begins
      exact ⟨position, at', rfl, by simp [Event.quest, kind, EventKind.isLine],
        d.touches_placed system id event position⟩
  · next position at' kind =>
      cases begins
      refine ⟨position, at', rfl, by simp [Event.quest, kind, EventKind.isLine], ?_⟩
      exact (d.touches_placed system id event position).trans (touches_openFrame _ system id event position)
  · cases begins

theorem Quest.mayCall_of_kind {quest : Quest} {event : Event}
    (kind : event.kind = if quest.onLine then .line false else .call) : event.kind.mayCall := by
  rw [kind]
  split <;> rfl

namespace Scene

variable {a b : Scene} {s s' : Nat} {deed : Deed} {first : ContextId} {allowed : Scene → Nat → Deed → Prop}

structure Sound (first : ContextId) (a : Scene) : Prop where
  heard : a.world.Heard first
  fitted : a.world.Fitted
  searches : ∀ {s pursuit}, a.pursuits s = some pursuit → pursuit.quest.IsOf (a.world.tasks s)

theorem pursuits_withPursuit_self (a : Scene) (w : World) (s : Nat) (pursuit : Option Pursuit) :
    (a.withPursuit w s pursuit).pursuits s = pursuit := Function.update_self ..

theorem pursuits_withPursuit_ne (a : Scene) (w : World) {s s' : Nat} (ne : s' ≠ s) (pursuit : Option Pursuit) :
    (a.withPursuit w s pursuit).pursuits s' = a.pursuits s' := Function.update_of_ne ne ..

end Scene

namespace World

variable {w : World} {s : Nat} {move : Move} {task : Task} {rest : List Task} {begun : Pursuit × Debugger}

theorem Pursues.forwards (h : w.Pursues s move task rest begun) : w.Forwards s task rest (w.become begun.2) := by
  cases h with
  | dispatch tasks stage begins =>
      obtain ⟨-, _, -, -, -, touches⟩ := Debugger.quest_of_pursuit? begins
      exact .goes touches
  | answer => exact .goes (.refl s _ w.debugger)

theorem Pursues.isOf (h : w.Pursues s move task rest begun) (fitted : w.Fitted) :
    begun.1.quest.IsOf (w.tasks s) := by
  have fits := fitted s task (mem_innermost h.tasks)
  cases h with
  | dispatch tasks stage begins =>
      obtain ⟨-, position, at', same, kind, -⟩ := Debugger.quest_of_pursuit? begins
      rw [Task.Fits, stage] at fits
      exact .intro tasks fits at' same kind (.inl stage)
  | answer tasks stage =>
      rw [Task.Fits, stage] at fits
      obtain ⟨event, own, awaits⟩ := fits
      obtain ⟨kind, rfl⟩ := awaits.traced rfl
      exact .intro tasks own (awaits.place rfl) (Event.quest_line kind).symm kind (.inr ⟨_, _, _, stage⟩)

end World

theorem Quest.IsOf.holds {quest : Quest} {tasks : List Task} (is : quest.IsOf tasks) :
    ∀ task ∈ tasks.head?, task.stage.holds := by
  obtain ⟨rfl, -, -, -, -, stage⟩ := is
  rintro _ ⟨⟩
  rcases stage with stage | ⟨_, _, _, stage⟩
  · rw [stage]
    rfl
  · rw [stage]
    rfl

namespace Scene

variable {a b : Scene} {s s' : Nat} {deed : Deed} {first : ContextId} {allowed : Scene → Nat → Deed → Prop}

theorem Sound.holds (h : a.Sound first) {pursuit : Pursuit} (pursues : a.pursuits s = some pursuit) {task : Task}
    {rest : List Task} (tasks : a.world.tasks s = task :: rest) : task.stage.holds :=
  (h.searches pursues).holds task (tasks ▸ rfl)

theorem Sound.step (h : a.Sound first) (step : a.Step s deed b) : b.Sound first := by
  cases step with
  | act quiet apart unsought closed acts =>
      refine ⟨h.heard.acts acts, h.fitted.acts h.heard.lodged acts, fun {s'} _ pursues => ?_⟩
      by_cases here : s' = s
      · subst here
        rw [pursues] at quiet
        cases quiet
      · exact acts.tasks_ne here ▸ h.searches pursues
  | begin quiet closed begins =>
      obtain ⟨task, rest, is⟩ := World.pursues_of_pursuit? begins
      refine ⟨is.forwards.heard is.tasks is.holds h.heard, h.fitted.become _, fun {s'} _ pursues => ?_⟩
      by_cases here : s' = s
      · subst here
        rw [pursuits_withPursuit_self] at pursues
        cases pursues
        exact is.isOf h.fitted
      · rw [pursuits_withPursuit_ne _ _ here] at pursues
        exact h.searches pursues
  | @next pursuit task rest phase d pursues tasks steps =>
      have is := Quest.Steps.of_step steps
      have forwards : a.world.Forwards s task rest (a.world.become d) := .goes is.touches
      refine ⟨forwards.heard tasks (h.holds pursues tasks) h.heard, h.fitted.become _, fun {s'} _ pursues' => ?_⟩
      by_cases here : s' = s
      · subst here
        rw [pursuits_withPursuit_self] at pursues'
        cases pursues'
        have is := h.searches pursues
        exact is
      · rw [pursuits_withPursuit_ne _ _ here] at pursues'
        exact h.searches pursues'
  | @last pursuit task rest outcome d pursues tasks steps =>
      have is := Quest.Steps.of_step steps
      have forwards : a.world.Forwards s task rest (a.world.proceed s task rest (outcome, d)) :=
        .ends is.touches is.about
      refine ⟨forwards.heard tasks (h.holds pursues tasks) h.heard, h.fitted.proceed tasks fun calls => ?_,
        fun {s'} _ pursues' => ?_⟩
      · obtain ⟨tasks', own, at', same, kind, -⟩ := h.searches pursues
        cases tasks.symm.trans tasks'
        subst calls
        rw [same] at is
        exact ⟨_, own, is.awaits (Quest.mayCall_of_kind kind) at'⟩
      · by_cases here : s' = s
        · subst here
          rw [pursuits_withPursuit_self] at pursues'
          cases pursues'
        · rw [pursuits_withPursuit_ne _ _ here] at pursues'
          exact forwards.tasks_ne here ▸ h.searches pursues'
  | @skip id thread free bound known own =>
      have acts : a.world.Acts s _ _ := .skip id true free.2
      exact ⟨h.heard.acts acts, h.fitted.become _, h.searches⟩
  | @unskip skip outer free skips depth =>
      have acts : a.world.Acts s _ _ := .skip skip.context skip.before free.2
      exact ⟨h.heard.acts acts, h.fitted.become _, h.searches⟩

theorem Course.sound (course : Course allowed a b) (h : a.Sound first) : b.Sound first := by
  induction course with
  | refl => exact h
  | step course next ok ih => exact ih.step next

theorem Sound.of_ended {w : World} (idle : ∀ s, w.tasks s = []) (own : w.debugger.host.OwnThreads)
    (ended : w.debugger.session = none) : (ofWorld w).Sound w.debugger.contexts.size := by
  refine ⟨.of_ended idle own ended, fun s task member => ?_, fun pursues => by cases pursues⟩
  have none := idle s
  change task ∈ w.tasks s at member
  rw [none] at member
  cases member

end Scene

end EventDebugger
