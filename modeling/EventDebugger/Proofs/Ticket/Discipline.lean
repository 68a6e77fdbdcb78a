import EventDebugger.Proofs.Ticket.Invariant

/-!
# The discipline of the ticket

Within one activation, at any moment one thread at most is between getting the ticket and giving it
back, and it is the holder; threads get the ticket in the order in which they joined the queue; and an
event is dropped only if its thread held the ticket when the event arrived.

* `World.disciplined`: every world that is reached without starts, stops and exits is disciplined.
-/

namespace EventDebugger

/-- The event that a task asks for the ticket with, or got it for. -/
def Stage.event? : Stage → Option Event
  | .asking event | .waiting event _ _ | .admitted event => some event
  | _ => none

/-- Whether a step leaves the activation alone: it is no start or stop, and no exit is raised. -/
def Move.isCalm : Move → Bool
  | .arrive event => !event.isExit
  | .request asked => !asked.isActivation
  | _ => true

namespace World

/-- The steps of one activation. -/
def Calm (_ : World) (_ : Nat) (move : Move) : Prop := move.isCalm

/-- What holds of the ticket, its queue and the tasks in a world. -/
structure Disciplined (w : World) : Prop where
  /-- One system thread at most is between getting the ticket and giving it back. -/
  exclusive : ∀ {s s' task task'}, task ∈ w.tasks s → task.stage.holds →
    task' ∈ w.tasks s' → task'.stage.holds → s = s'
  /-- The thread that is there is the holder. -/
  holder : ∀ {s task}, task ∈ w.tasks s → task.stage.holds → w.holder = some task.thread
  nodup : w.queue.Nodup
  outside : ∀ thread, w.holder = some thread → thread ∉ w.queue
  free : w.holder = none → w.queue = []
  /-- Whoever gets the ticket later gets it in the order of the queue, to the end of which others join. -/
  inOrder : ∀ {got w'}, Run Calm w got w' → ∃ joined, got ++ w'.queue = w.queue ++ joined
  /-- An event that is dropped is one whose thread held the ticket when it arrived. -/
  dropped : ∀ {s task rest w'}, w.tasks s = task :: rest → (w.Step s .ask w' ∨ w.Step s .awake w') →
    w'.tasks s = rest → task.reentrant

/-! ## One activation -/

structure Lasting (w : World) : Prop where
  active : w.debugger.ticket.isSome
  mild : ∀ {s task event}, task ∈ w.tasks s → task.stage.event? = some event → event.isExit = false

namespace Lasting

variable {w : World}

theorem become (h : w.Lasting) {d : Debugger} (active : d.ticket.isSome) : (w.become d).Lasting :=
  ⟨active, h.mild⟩

theorem set (h : w.Lasting) {s : Nat} {own : List Task}
    (mild : ∀ task ∈ own, ∀ event, task.stage.event? = some event → event.isExit = false) :
    (w.set s own).Lasting where
  active := h.active
  mild {other task event} member := by
    have others : ∀ s', ∀ task ∈ w.tasks s', ∀ event, task.stage.event? = some event → event.isExit = false :=
      fun _ _ member _ => h.mild member
    exact w.forall_tasks_set others mild other task member event

theorem set_cons (h : w.Lasting) {s : Nat} {task task' : Task} {rest : List Task}
    (tasks : w.tasks s = task :: rest)
    (mild : ∀ event, task'.stage.event? = some event → event.isExit = false) :
    (w.set s (task' :: rest)).Lasting := by
  have member (other : Task) (inRest : other ∈ rest) : other ∈ w.tasks s := mem_outer tasks inRest
  exact h.set (List.forall_mem_cons.mpr ⟨mild, fun other inRest event => h.mild (member other inRest)⟩)

theorem set_rest (h : w.Lasting) {s : Nat} {task : Task} {rest : List Task}
    (tasks : w.tasks s = task :: rest) : (w.set s rest).Lasting := by
  have member (other : Task) (inRest : other ∈ rest) : other ∈ w.tasks s := mem_outer tasks inRest
  exact h.set fun other inRest event => h.mild (member other inRest)

theorem become_of_keeps (h : w.Lasting) {d : Debugger} (kept : w.debugger.Keeps d) :
    (w.become d).Lasting := h.become (kept.ticket ▸ h.active)

theorem arrive (h : w.Lasting) {s : Nat} {event : Event} (stays : event.isExit = false) :
    (w.arrive s event).Lasting := by
  have kept := (w.debugger.tends_arrive s event).keeps
  simp only [World.arrive]
  rcases arrived : w.debugger.arrive s event with ⟨_ | ⟨thread, id⟩, d⟩
  all_goals rw [arrived] at kept
  · exact h.become_of_keeps kept
  · have later := h.become_of_keeps kept
    refine later.set (List.forall_mem_cons.mpr ⟨fun _ asks => ?_, fun task member event => later.mild member⟩)
    cases asks
    exact stays

theorem contend (h : w.Lasting) {s : Nat} {task : Task} {rest : List Task} {event : Event}
    {granted : Bool} (tasks : w.tasks s = task :: rest) (asks : task.stage.event? = some event) :
    (w.contend s task rest event granted).Lasting := by
  have contended := w.debugger.contended task.thread task.context granted
  have member := mem_innermost tasks
  have mild := h.mild member asks
  simp only [World.contend]
  rcases eq : w.debugger.contend task.thread task.context granted with ⟨turn, d⟩
  rw [eq] at contended
  have active : d.ticket.isSome := by
    have before := h.active
    simp only at contended
    generalize w.debugger.ticket = ticket at contended before
    generalize d.ticket = ticket' at contended
    cases contended <;> trivial
  have later := h.become active
  cases turn with
  | ticket =>
      refine later.set_cons tasks fun _ admitted => ?_
      cases admitted
      exact mild
  | dropped => exact later.set_rest tasks
  | wait reason =>
      refine later.set_cons tasks fun _ waits => ?_
      cases waits
      exact mild

theorem proceed (h : w.Lasting) {s : Nat} {task : Task} {rest : List Task}
    (tasks : w.tasks s = task :: rest) {piece : Outcome × Debugger}
    (kept : w.debugger.Keeps piece.2) : (w.proceed s task rest piece).Lasting := by
  refine (h.become_of_keeps kept).set_cons tasks fun event asks => ?_
  rcases piece with ⟨_ | ⟨callback, next⟩, d⟩ <;> cases asks

theorem inspect (h : w.Lasting) (s : Nat) : (w.inspect s).Lasting := by
  have kept := (w.debugger.tends_enterPostMortem s).keeps
  simp only [World.inspect]
  rcases entered : w.debugger.enterPostMortem s with ⟨error | before, d⟩
  all_goals rw [entered] at kept
  · exact h.become_of_keeps kept
  · have later := h.become_of_keeps kept
    refine later.set (List.forall_mem_cons.mpr ⟨fun _ asks => ?_, fun task member event => later.mild member⟩)
    cases asks

theorem step {w' : World} {s : Nat} {move : Move} (h : w.Lasting) (step : w.Step s move w')
    (calm : w.Calm s move) : w'.Lasting := by
  cases step with
  | arrive event free => exact h.arrive (by simpa [Calm, Move.isCalm] using calm)
  | ask tasks stage => exact h.contend tasks (by rw [stage]; rfl)
  | awake tasks stage awake => exact h.contend tasks (by rw [stage]; rfl)
  | dispatch tasks stage =>
      rename_i task rest event
      have member := mem_innermost tasks
      have stays := h.mild member (by rw [stage]; rfl)
      exact h.proceed tasks (w.debugger.touches_dispatch s task.context event stays).keeps
  | answer tasks stage =>
      rename_i task _ _ next
      exact h.proceed tasks (w.debugger.touches_run s task.context next).keeps
  | fail tasks stage => exact h.proceed tasks (.refl _)
  | release tasks stage =>
      have active : w.debugger.release.ticket.isSome := by
        rw [w.debugger.ticket_release, Option.isSome_map]
        exact h.active
      exact (h.become active).set_rest tasks
  | request request free =>
      have other : request.isActivation = false := by simpa [Calm, Move.isCalm] using calm
      exact h.become_of_keeps (request.tends_request s w.debugger other).keeps
  | enterPostMortem free => exact h.inspect s
  | leavePostMortem tasks stage =>
      exact (h.become_of_keeps (w.debugger.tends_leavePostMortem s _).keeps).set_rest tasks
  | execute | register | begin | exit => exact h.become h.active

end Lasting

theorem Idle.lasting {w : World} (h : w.Idle) : w.Lasting where
  active := by
    rw [h.ticket]
    rfl
  mild {s task event} member := by
    rw [h.tasks s] at member
    cases member

theorem not_isActivation_of_calm {w : World} {s : Nat} {move : Move} (calm : w.Calm s move) :
    move.isActivation = false := by
  cases move with
  | request asked => simpa [Calm, Move.isCalm, Move.isActivation] using calm
  | _ => rfl

theorem Run.orderly_lasting {w w' : World} {got : List Thread} (run : Run Calm w got w')
    (orderly : w.Orderly) (current : w.Current) (lasting : w.Lasting) :
    w'.Orderly ∧ w'.Current ∧ w'.Lasting := by
  induction run with
  | refl => exact ⟨orderly, current, lasting⟩
  | step run next calm ih =>
      obtain ⟨orderly, current, lasting⟩ := ih
      exact ⟨orderly.step next (current.not_overrides _ _),
        current.step next (not_isActivation_of_calm calm), lasting.step next calm⟩

/-! ## The order of the queue -/

theorem newHolder_self (holder : Option Thread) : newHolder holder holder = [] := if_pos rfl

theorem newHolder_handOver {thread : Thread} {waiting : List Thread} (outside : thread ∉ waiting) :
    newHolder (some thread) waiting.head? ++ waiting.tail = waiting := by
  cases waiting with
  | nil => rfl
  | cons first others =>
      have ne : first ≠ thread := fun same => outside (same ▸ List.mem_cons_self)
      simp [newHolder, ne]

theorem inOrder_contended {thread : Thread} {granted : Bool} {turn : Turn}
    {holder holder' : Option Thread} {waiting waiting' : List Thread}
    (h : Contended thread granted (some (holder, waiting)) turn (some (holder', waiting')))
    (outside : ∀ thread, holder = some thread → thread ∉ waiting) (free : holder = none → waiting = []) :
    ∃ joined, newHolder holder holder' ++ waiting' = waiting ++ joined := by
  cases h with
  | taken =>
      refine ⟨[thread], ?_⟩
      rw [free rfl]
      rfl
  | granted | reentrant =>
      refine ⟨[], ?_⟩
      rw [newHolder_self, List.nil_append, List.append_nil]
  | queued other =>
      rw [newHolder_self, List.nil_append]
      split
      · exact ⟨[], (List.append_nil _).symm⟩
      · exact ⟨[thread], rfl⟩
  | parked =>
      refine ⟨[], ?_⟩
      rw [free rfl]
      rfl
  | handedOn => exact ⟨[], by rw [newHolder_handOver (outside thread rfl), List.append_nil]⟩

variable {w w' : World}

theorem inOrder_of_same (same : w'.debugger.ticket = w.debugger.ticket) :
    ∃ joined, obtained w w' ++ w'.queue = w.queue ++ joined := by
  refine ⟨[], ?_⟩
  simp only [obtained, holder, queue, same, newHolder_self, List.nil_append, List.append_nil]

theorem holder_eq {holder : Option Thread} {waiting : List Thread}
    (ticket : w.debugger.ticket = some (holder, waiting)) : w.holder = holder := by
  rw [World.holder, ticket, Option.bind_some]

theorem queue_eq {holder : Option Thread} {waiting : List Thread}
    (ticket : w.debugger.ticket = some (holder, waiting)) : w.queue = waiting := by
  rw [World.queue, ticket, Option.elim_some]

theorem inOrder_contend (orderly : w.Orderly) (lasting : w.Lasting) {s : Nat} {task : Task}
    {rest : List Task} {event : Event} {granted : Bool} (later : (w.contend s task rest event granted).Lasting) :
    ∃ joined, obtained w (w.contend s task rest event granted) ++
      (w.contend s task rest event granted).queue = w.queue ++ joined := by
  have contended := w.debugger.contended task.thread task.context granted
  rw [← w.debugger_contend s task rest event granted] at contended
  obtain ⟨⟨holder, waiting⟩, before⟩ := Option.isSome_iff_exists.mp lasting.active
  obtain ⟨⟨holder', waiting'⟩, after⟩ := Option.isSome_iff_exists.mp later.active
  have custody := orderly.custody before
  rw [before, after] at contended
  rw [obtained, holder_eq before, holder_eq after, queue_eq before, queue_eq after]
  exact inOrder_contended contended custody.outside custody.free

theorem inOrder_step (orderly : w.Orderly) (current : w.Current) (lasting : w.Lasting) {s : Nat} {move : Move}
    (step : w.Step s move w') (calm : w.Calm s move) :
    ∃ joined, obtained w w' ++ w'.queue = w.queue ++ joined := by
  have later := lasting.step step calm
  cases step with
  | arrive event free =>
      refine inOrder_of_same ?_
      rw [debugger_arrive]
      exact (w.debugger.tends_arrive s event).keeps.ticket
  | ask tasks stage => exact inOrder_contend orderly lasting later
  | awake tasks stage awake => exact inOrder_contend orderly lasting later
  | dispatch tasks stage =>
      rename_i task rest event
      have member := mem_innermost tasks
      have stays := lasting.mild member (by rw [stage]; rfl)
      exact inOrder_of_same (w.debugger.touches_dispatch s task.context event stays).keeps.ticket
  | answer tasks stage =>
      rename_i task _ _ next
      exact inOrder_of_same (w.debugger.touches_run s task.context next).keeps.ticket
  | fail tasks stage => exact inOrder_of_same rfl
  | release tasks stage =>
      rename_i task rest
      obtain ⟨⟨holder, waiting⟩, before⟩ := Option.isSome_iff_exists.mp lasting.active
      have after : w.debugger.release.ticket = some (waiting.head?, waiting.tail) := by
        rw [w.debugger.ticket_release, before, Option.map_some]
      have member := mem_innermost tasks
      have custody := orderly.custody before
      have single := custody.single task.thread
        ⟨s, task, member, rfl, by rw [stage]; rfl, current s task member⟩
      subst single
      refine ⟨[], ?_⟩
      rw [obtained, holder_eq before, queue_eq before,
        holder_eq (w := (w.become w.debugger.release).set s rest) after,
        queue_eq (w := (w.become w.debugger.release).set s rest) after,
        newHolder_handOver (custody.outside _ rfl), List.append_nil]
  | request request free =>
      have other : request.isActivation = false := by simpa [Calm, Move.isCalm] using calm
      exact inOrder_of_same (request.tends_request s w.debugger other).keeps.ticket
  | enterPostMortem free =>
      refine inOrder_of_same ?_
      rw [debugger_inspect]
      exact (w.debugger.tends_enterPostMortem s).keeps.ticket
  | leavePostMortem tasks stage => exact inOrder_of_same (w.debugger.tends_leavePostMortem s _).keeps.ticket
  | execute | register | begin | exit => exact inOrder_of_same rfl

theorem inOrder_run {got : List Thread} (run : Run Calm w got w') (orderly : w.Orderly)
    (current : w.Current) (lasting : w.Lasting) : ∃ joined, got ++ w'.queue = w.queue ++ joined := by
  induction run with
  | refl => exact ⟨[], (List.append_nil _).symm⟩
  | step run next calm ih =>
      rename_i w' w'' got _ _
      obtain ⟨joined, sofar⟩ := ih
      obtain ⟨orderly', current', lasting'⟩ := run.orderly_lasting orderly current lasting
      obtain ⟨later, last⟩ := inOrder_step orderly' current' lasting' next calm
      refine ⟨joined ++ later, ?_⟩
      rw [List.append_assoc, last, ← List.append_assoc, sofar, List.append_assoc]

/-! ## Dropped events -/

theorem reentrant_of_contend (orderly : w.Orderly) (active : w.debugger.ticket.isSome) {s : Nat} {task : Task}
    {rest : List Task} {event : Event} {granted : Bool} (tasks : w.tasks s = task :: rest)
    (outside : task.stage.isOutside) (fresh : granted = false → ¬ task.stage.isQueued)
    (gone : (w.contend s task rest event granted).tasks s = rest) : task.reentrant := by
  have contended := w.debugger.contended task.thread task.context granted
  simp only [World.contend] at gone
  rcases eq : w.debugger.contend task.thread task.context granted with ⟨turn, d⟩
  rw [eq] at contended gone
  have dropped : turn = .dropped := by
    cases turn with
    | dropped => rfl
    | ticket | wait =>
        simp only [World.set, Function.update_self] at gone
        exact absurd gone (List.cons_ne_self _ _)
  subst dropped
  simp only at contended
  generalize before : w.debugger.ticket = ticket at contended active
  generalize d.ticket = ticket' at contended
  cases contended with
  | inactive => cases active
  | reentrant waiting asked =>
      have member := mem_innermost tasks
      obtain ⟨above, _⟩ := orderly.above tasks
      rcases (orderly.custody before).held _ rfl with
        ⟨s', other, otherMember, same, holds⟩ | ⟨s', other, otherMember, same, queued⟩
      all_goals
        have home := orderly.same_system member otherMember same
        rw [home, tasks] at otherMember
      · rcases List.mem_cons.mp otherMember with rfl | inRest
        · have inside := holds.1
          revert outside inside
          cases other.stage <;> simp [Stage.holds, Stage.isOutside]
        · exact above.known other inRest holds outside
      · rcases List.mem_cons.mp otherMember with rfl | inRest
        · exact absurd queued (fresh asked)
        · have front := above.front other inRest
          revert front queued
          cases other.stage <;> simp [Stage.isQueued, Stage.inFront]

/-! ## The discipline -/

/-- Whatever threads do within one activation, in any order, the ticket, its queue and the tasks stay
as they should be. -/
theorem disciplined {w₀ : World} {earlier : List Thread} (idle : w₀.Idle) (run : Run Calm w₀ earlier w) :
    w.Disciplined := by
  obtain ⟨orderly, current, lasting⟩ := run.orderly_lasting idle.orderly idle.current idle.lasting
  obtain ⟨⟨holder, waiting⟩, ticket⟩ := Option.isSome_iff_exists.mp lasting.active
  have custody := orderly.custody ticket
  have holderOf {s : Nat} {task : Task} (member : task ∈ w.tasks s) (holds : task.stage.holds) :
      w.holder = some task.thread := by
    rw [holder_eq ticket]
    exact custody.single _ ⟨s, task, member, rfl, holds, current s task member⟩
  exact {
    exclusive := fun member holds member' holds' => by
      have same := (holderOf member holds).symm.trans (holderOf member' holds')
      exact orderly.same_system member' member (Option.some.inj same)
    holder := holderOf
    nodup := by
      rw [queue_eq ticket]
      exact custody.nodup
    outside := by
      rw [holder_eq ticket, queue_eq ticket]
      exact custody.outside
    free := by
      rw [holder_eq ticket, queue_eq ticket]
      exact custody.free
    inOrder := fun later => inOrder_run later orderly current lasting
    dropped := fun tasks asks gone => by
      rcases asks with asks | asks
      · cases asks with
        | ask tasks' stage =>
            rw [tasks'] at tasks
            cases tasks
            refine reentrant_of_contend orderly lasting.active tasks' ?_ (fun _ => ?_) gone <;> rw [stage]
            · rfl
            · exact Bool.false_ne_true
      · cases asks with
        | awake tasks' stage awake =>
            rename_i reason _
            rw [tasks'] at tasks
            cases tasks
            refine reentrant_of_contend orderly lasting.active tasks' ?_ (fun parked => ?_) gone <;> rw [stage]
            · rfl
            · cases reason with
              | queued => cases parked
              | parked => exact Bool.false_ne_true }

/-! ## Two threads -/

def twoThreads : Host :=
  (((Host.initial.register "a").2.register "b").2.bind 0 ⟨1, "a"⟩).bind 1 ⟨2, "b"⟩

theorem ownThreads_twoThreads : twoThreads.OwnThreads := by
  have own := (Host.grows_register _ "b").own ((Host.grows_register _ "a").own Host.ownThreads_initial)
  have first : (((Host.initial.register "a").2.register "b").2.bind 0 ⟨1, "a"⟩).OwnThreads := by
    refine Host.ownThreads_bind own rfl (fun s bound => by cases bound) (Nat.le_succ 1)
  refine Host.ownThreads_bind first rfl (fun s bound => ?_) (Nat.le_refl 2)
  rw [Host.boundTo?_bind] at bound
  split at bound <;> cases bound

def started : World := ⟨(Debugger.initial .standard).start.2, fun _ => [], 1⟩

def startedWithTwo : World :=
  { started with debugger := { started.debugger with host := twoThreads } }

theorem idle_startedWithTwo : startedWithTwo.Idle := ⟨fun _ => rfl, rfl, ownThreads_twoThreads⟩

theorem wellTracked_startedWithTwo : startedWithTwo.debugger.WellTracked where
  coherent := by
    rintro session ⟨⟩ thread id ⟨⟩
  home := by
    rintro session thread id ⟨⟩ ⟨⟩

def lineEvent : Event := { Event.ofKind (.line false) with position := some ⟨"a.rb", 1⟩ }

def firstAdmitted : World :=
  (startedWithTwo.arrive 0 lineEvent).contend 0 ⟨⟨1, "a"⟩, 0, .asking lineEvent, false, 1, some lineEvent⟩ [] lineEvent
    false

theorem run_firstAdmitted {allowed : World → Nat → Move → Prop}
    (arrives : ∀ w s, allowed w s (.arrive lineEvent)) (asks : ∀ w s, allowed w s .ask) :
    ∃ got, Run allowed startedWithTwo got firstAdmitted := by
  have run : Run allowed startedWithTwo [] _ := .refl startedWithTwo
  have run := run.step (.arrive (s := 0) lineEvent (by rintro _ ⟨⟩)) (arrives _ _)
  have asking : (startedWithTwo.arrive 0 lineEvent).tasks 0 =
    [⟨⟨1, "a"⟩, 0, .asking lineEvent, false, 1, some lineEvent⟩] := rfl
  exact ⟨_, run.step (.ask asking rfl) (asks _ _)⟩

theorem disciplined_of_contention : ∃ got w, Run Calm startedWithTwo got w ∧
    w.holder = some ⟨1, "a"⟩ ∧ w.queue = [⟨2, "b"⟩] ∧ w.Disciplined := by
  obtain ⟨_, run⟩ : ∃ got, Run Calm startedWithTwo got firstAdmitted :=
    run_firstAdmitted (fun _ _ => rfl) fun _ _ => rfl
  have run := run.step (.arrive (s := 1) lineEvent (by rintro _ ⟨⟩)) rfl
  have asks : (firstAdmitted.arrive 1 lineEvent).tasks 1 =
    [⟨⟨2, "b"⟩, 1, .asking lineEvent, false, 1, some lineEvent⟩] := rfl
  have run := run.step (.ask asks rfl) rfl
  exact ⟨_, _, run, rfl, rfl, disciplined idle_startedWithTwo run⟩

end World

end EventDebugger
