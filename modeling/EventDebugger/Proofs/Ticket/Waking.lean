import EventDebugger.Proofs.Ticket.Alarm
import EventDebugger.Proofs.Ticket.Parking

/-!
# Waking of parked threads

A parked thread is woken up by the resume of its context as long as nobody suspends the context while the
host says that the thread sleeps. The suspension of all threads does so even where a context is suspended
already.

* `World.woken_of_parked`: what a parked thread can rely on.
* `World.forgotten_of_suspendAll`: a thread that stays parked although its context was resumed.
-/

namespace EventDebugger

/-! ## Requests -/

def Request.suspends (request : Request) (id : ContextId) : Bool :=
  match request with
  | .context other .suspend => other == id
  | .debugger .suspendAll => true
  | _ => false

namespace Request

open Script Script.Attempt Debugger

variable {id : ContextId} {d : Debugger}

theorem minds_debuggerCommand (command : DebuggerCommand) (system : Nat) (known : id < d.contexts.size)
    (awake : (Request.debugger command).suspends id → d.host.status (d.context id).thread ≠ .sleeping) :
    Minds id d ((Request.debugger command).serve system d) := by
  have whole {x : Attempt Reply} (within : Within (Minds id) x) : Minds id d (x (d, .initial [])).2.1 := within d _
  cases command with
  | start =>
      refine whole (within_map (R := Minds id) (within_change fun {d _ _} changed => ?_) _)
      have minds : Minds id d d.start.2 := d.minds_start
      rw [Except.ok.inj changed] at minds
      exact minds
  | stop => exact whole (within_map (R := Minds id) (within_change minds_stop) _)
  | forceStop =>
      refine whole (within_done (within_perform fun {d _} changed => ?_))
      cases changed
      exact d.minds_forceStop
  | isStarted | settings => exact whole (within_bind within_debugger fun _ => within_pure _)
  | addBreakpoint => exact whole (within_map (R := Minds id) (within_change minds_addBreakpoint) _)
  | removeBreakpoint => exact whole (within_map (R := Minds id) (within_change minds_removeBreakpoint) _)
  | breakpoints | catchpoint => exact whole (within_map (within_query _) _)
  | setCatchpoint => exact whole (within_done (within_perform minds_setCatchpoint))
  | setPostMortem => exact whole (within_done (within_perform minds_setPostMortem))
  | setTracing | setKeepFrameBinding | setDebug =>
      refine whole (within_done (within_perform fun h => ?_))
      cases h
      exact .of_contexts rfl (Nat.le_refl _)
  | contexts =>
      exact whole (within_bind (within_change minds_liveContexts) fun _ =>
        within_bind within_debugger fun _ => within_pure _)
  | lastContext =>
      exact whole (within_bind (within_query _) fun _ => within_bind within_debugger fun _ => within_pure _)
  | interrupt => exact whole (within_done (within_onDebugger fun d => d.minds_interrupt system))
  | interruptLast =>
      exact whole (within_bind (within_change minds_interruptLast) fun _ =>
        within_bind within_debugger fun _ => within_pure _)
  | suspendAll =>
      -- whose thread sleeps is asked of this debugger only
      refine related_bind (R := Minds id) ?_ fun _ => within_pure _
      rw [debugger_perform]
      cases suspended : d.suspendAll system with
      | ok d' => exact minds_suspendAll suspended known (awake rfl)
      | error error => exact .refl id d
  | resumeAll => exact whole (within_done (within_perform minds_resumeAll))

theorem minds_contextCommand (command : ContextCommand) (other : ContextId) (system : Nat)
    (awake : (Request.context other command).suspends id → d.host.status (d.context id).thread ≠ .sleeping) :
    Minds id d ((Request.context other command).serve system d) := by
  have whole {x : Attempt Reply} (within : Within (Minds id) x) : Minds id d (x (d, .initial [])).2.1 := within d _
  have stepping {f : Context → Except Error Context} (arms : f ∈ (Request.context other command).arming?) :
      Within (Minds id) (commandContext other f) :=
    within_done (within_perform (minds_command (alarm_stepping fun unstepped =>
      arms_of_unstepped unstepped _ f arms)))
  cases command with
  | suspend =>
      refine related_bind (R := Minds id) ?_ fun _ => within_pure _
      rw [debugger_perform]
      cases suspended : d.suspend other with
      | ok d' => exact minds_suspend suspended fun same => awake (beq_iff_eq.mpr same)
      | error error => exact .refl id d
  | resume => exact whole (within_done (within_perform minds_resume))
  | describe | summarize | frame | temporary => exact whole (within_map (within_query _) _)
  | evaluate =>
      refine whole (within_bind within_debugger fun _ => ?_)
      split
      · exact within_pure _
      · exact within_throw _
  | step | stepOver | stopFrame | interrupt => exact whole (stepping rfl)
  | setTracing on =>
      refine whole (within_done (within_perform (minds_command fun changed => ?_)))
      cases changed
      rfl
  | setTemporary => exact whole (within_map (R := Minds id) (within_change minds_setTemporary) _)
  | clearTemporary => exact whole (within_map (R := Minds id) (within_change minds_clearTemporary) _)

theorem minds (request : Request) (system : Nat) (known : id < d.contexts.size)
    (awake : request.suspends id → d.host.status (d.context id).thread ≠ .sleeping) :
    Minds id d (request.serve system d) := by
  cases request with
  | debugger command => exact minds_debuggerCommand command system known awake
  | context other command => exact minds_contextCommand command other system awake

end Request

/-! ## Threads -/

def Act.suspends (act : Act) (id : ContextId) : Bool :=
  match act with
  | .move (.request request) => request.suspends id
  | .move .enterPostMortem => true
  | _ => false

namespace World

variable {w w₀ w' : World} {s : Nat} {act : Act} {id : ContextId}

theorem Acts.minds (acts : w.Acts s act w') (known : id < w.debugger.contexts.size)
    (awake : act.suspends id → w.debugger.host.status (w.debugger.context id).thread ≠ .sleeping) :
    w.debugger.Minds id w'.debugger := by
  cases acts with
  | move step =>
      cases step with
      | arrive event free =>
          rw [debugger_arrive]
          exact w.debugger.minds_arrive s event
      | ask tasks stage =>
          rw [debugger_contend]
          exact w.debugger.minds_contend _ _ _
      | awake tasks stage wakes =>
          rw [debugger_contend]
          exact w.debugger.minds_contend _ _ _
      | dispatch tasks stage => exact w.debugger.minds_dispatch s _ _
      | answer tasks stage => exact (w.debugger.touches_run s _ _).minds
      | fail tasks stage => exact .refl id _
      | release tasks stage => exact w.debugger.minds_release
      | request request free => exact request.minds s known awake
      | enterPostMortem free =>
          rw [debugger_inspect]
          exact w.debugger.minds_enterPostMortem s known (awake rfl)
      | leavePostMortem tasks stage => exact w.debugger.minds_leavePostMortem s _
      | execute | register | begin | exit => exact .of_contexts rfl (Nat.le_refl _)
  | load stop free => exact w.debugger.minds_prepareLoad s stop
  | meet free => exact w.debugger.minds_currentContext s
  | skip other on free => exact w.debugger.minds_updateContext other _ fun _ => .inl rfl
  | keep on free => exact .of_contexts rfl (Nat.le_refl _)

theorem marked_contend {task task' : Task} {rest : List Task} {event event' : Event} {granted : Bool}
    {since : Nat} (tasks : w.tasks s = task :: rest) (known : task.context < w.debugger.contexts.size)
    (member : task' ∈ (w.contend s task rest event granted).tasks s)
    (stage : task'.stage = .waiting event' .parked since) : task' ∈ w.tasks s ∨
      ((w.contend s task rest event granted).debugger.context task'.context).alarm = (true, true) ∧
        since = (w.contend s task rest event granted).debugger.wakeups := by
  simp only [World.contend] at member ⊢
  rcases contended : w.debugger.contend task.thread task.context granted with ⟨turn, d⟩
  rw [contended] at member
  cases turn with
  | ticket =>
      simp only [tasks_set_self] at member
      rcases List.mem_cons.mp member with rfl | inRest
      · cases stage
      · exact .inl (mem_outer tasks inRest)
  | dropped =>
      simp only [tasks_set_self] at member
      exact .inl (mem_outer tasks member)
  | wait reason =>
      simp only [tasks_set_self] at member
      rcases List.mem_cons.mp member with rfl | inRest
      · cases stage
        exact .inr ⟨Debugger.alarm_of_parked contended known, rfl⟩
      · exact .inl (mem_outer tasks inRest)

theorem Acts.marked (acts : w.Acts s act w') (lodged : w.Lodged) {s' : Nat} {task' : Task}
    (member : task' ∈ w'.tasks s') {event' : Event} {since : Nat}
    (stage : task'.stage = .waiting event' .parked since) : task' ∈ w.tasks s' ∨
      (w'.debugger.context task'.context).alarm = (true, true) ∧ since = w'.debugger.wakeups := by
  cases acts with
  | load | meet | skip | keep => exact .inl member
  | move step =>
      by_cases here : s' = s
      · subst here
        have proceeded {task : Task} {rest : List Task} {piece : Outcome × Debugger}
            (tasks : w.tasks s' = task :: rest) (member : task' ∈ (w.proceed s' task rest piece).tasks s') :
            task' ∈ w.tasks s' := by
          rw [tasks_proceed] at member
          rcases List.mem_cons.mp member with rfl | inRest
          · have dispatched := Outcome.isDispatched_stage piece.1
            simp only at stage
            rw [stage] at dispatched
            cases dispatched
          · exact mem_outer tasks inRest
        have home {task : Task} {rest : List Task} (tasks : w.tasks s' = task :: rest)
            (event : task.stage.isInspecting = false) : task.context < w.debugger.contexts.size :=
          (lodged.home s' task (mem_innermost tasks) event).1
        cases step with
        | arrive event free =>
            simp only [World.arrive] at member
            split at member
            · exact .inl member
            · rw [tasks_set_self] at member
              rcases List.mem_cons.mp member with rfl | before
              · cases stage
              · exact .inl before
        | ask tasks asks => exact marked_contend tasks (home tasks (by rw [asks]; rfl)) member stage
        | awake tasks waits awake => exact marked_contend tasks (home tasks (by rw [waits]; rfl)) member stage
        | dispatch tasks _ | answer tasks _ | fail tasks _ => exact .inl (proceeded tasks member)
        | release tasks _ | leavePostMortem tasks _ =>
            rw [tasks_set_self] at member
            exact .inl (mem_outer tasks member)
        | enterPostMortem free =>
            simp only [World.inspect] at member
            split at member
            · exact .inl member
            · rw [tasks_set_self] at member
              rcases List.mem_cons.mp member with rfl | before
              · cases stage
              · exact .inl before
        | request | execute | register | begin | exit => exact .inl member
      · rw [step.tasks_ne here] at member
        exact .inl member

/-! ## Runs -/

/-- Steps that suspend no context on which a thread is parked of which the host says that it sleeps. -/
def Attentive (w : World) (_ : Nat) (act : Act) : Prop :=
  ∀ s, ∀ task ∈ w.tasks s, task.stage.isParked → act.suspends task.context →
    w.debugger.host.status task.thread ≠ .sleeping

/-- Runs with the number of wake-ups, for every context, at the last moment at which it was suspended. -/
inductive Watched (allowed : World → Nat → Act → Prop) (w : World) : World → (ContextId → Nat) → Prop where
  | refl : Watched allowed w w fun _ => w.debugger.wakeups
  | step {w' w'' : World} {seen : ContextId → Nat} {s : Nat} {act : Act}
      (watched : Watched allowed w w' seen) (next : w'.Acts s act w'') (ok : allowed w' s act) :
      Watched allowed w w'' fun id =>
        if (w''.debugger.context id).suspended then w''.debugger.wakeups else seen id

theorem Course.watched {allowed : World → Nat → Act → Prop} (course : Course allowed w w') :
    ∃ seen, Watched allowed w w' seen := by
  induction course with
  | refl => exact ⟨_, .refl⟩
  | step course next ok ih =>
      obtain ⟨seen, watched⟩ := ih
      exact ⟨_, watched.step next ok⟩

/-- Every parked thread can rely on its resume, whatever the waiting threads were woken up for before it
parked. -/
structure Guarded (w : World) (seen : ContextId → Nat) : Prop where
  lodged : w.Lodged
  rouses : ∀ {s task event since}, task ∈ w.tasks s → task.stage = .waiting event .parked since →
    w.debugger.Rouses task.context (seen task.context) ∧ since ≤ seen task.context

theorem Guarded.acts {seen : ContextId → Nat} (h : w.Guarded seen) (acts : w.Acts s act w')
    (attentive : w.Attentive s act) : w'.Guarded fun id =>
      if (w'.debugger.context id).suspended then w'.debugger.wakeups else seen id := by
  refine ⟨h.lodged.acts acts, fun {s' task' event since} member stage => ?_⟩
  rcases acts.marked h.lodged member stage with before | ⟨alarm, rfl⟩
  · obtain ⟨rouses, since⟩ := h.rouses before stage
    have event : task'.stage.isInspecting = false := by rw [stage]; rfl
    obtain ⟨known, home⟩ := h.lodged.home s' task' before event
    have minds := acts.minds known fun suspends => by
      rw [home]
      exact attentive s' task' before (by rw [stage]; rfl) suspends
    have later := minds.rouses known rouses
    have bound := later.bound
    cases later with
    | suspended is marked _ =>
        rw [if_pos is]
        exact ⟨.suspended is marked (Nat.le_refl _), Nat.le_trans since bound⟩
    | woken resumed woken =>
        rw [resumed, if_neg Bool.false_ne_true]
        exact ⟨.woken resumed woken, since⟩
  · simp only [Context.alarm, Prod.mk.injEq] at alarm
    rw [if_pos alarm.1]
    exact ⟨.suspended alarm.1 alarm.2 (Nat.le_refl _), Nat.le_refl _⟩

theorem Watched.guarded {seen : ContextId → Nat} (watched : Watched Attentive w₀ w seen)
    (idle : ∀ s, w₀.tasks s = []) (own : w₀.debugger.host.OwnThreads) (tracked : w₀.debugger.WellTracked) :
    w.Guarded seen := by
  induction watched with
  | refl =>
      refine ⟨.of_idle idle own tracked, fun {s task event since} member => ?_⟩
      rw [idle s] at member
      cases member
  | step watched next attentive ih => exact ih.acts next attentive

/-- The context of a parked thread is still suspended, or the waiting threads were woken up after it was
suspended last, and then the thread can go on; unless somebody suspended the context while the host said that
the thread sleeps. -/
theorem woken_of_parked {seen : ContextId → Nat} (idle : ∀ s, w₀.tasks s = [])
    (own : w₀.debugger.host.OwnThreads) (tracked : w₀.debugger.WellTracked)
    (watched : Watched Attentive w₀ w seen) {task : Task} (member : task ∈ w.tasks s) {event : Event}
    {since : Nat} (stage : task.stage = .waiting event .parked since) :
    (w.debugger.context task.context).suspended ∨
      (seen task.context < w.debugger.wakeups ∧
        w.debugger.isAwake ⟨s, task.thread, task.context, event, .parked, since⟩) := by
  obtain ⟨rouses, bound⟩ := (watched.guarded idle own tracked).rouses member stage
  cases rouses with
  | suspended is marked _ => exact .inl is
  | woken resumed woken =>
      have later : since < w.debugger.wakeups := Nat.lt_of_le_of_lt bound woken
      refine .inr ⟨woken, ?_⟩
      rw [Debugger.isAwake, decide_eq_true later, Bool.true_and, Debugger.isOver, resumed]
      exact Bool.or_true _

/-! ## Suspensions of a parked thread -/

def Wakeful (w : World) (_ : Nat) (_ : Act) : Prop :=
  ∀ record ∈ w.debugger.host.threads, record.status ≠ .sleeping

instance : Decidable (w.Wakeful s act) :=
  inferInstanceAs (Decidable (∀ record ∈ w.debugger.host.threads, record.status ≠ .sleeping))

theorem Wakeful.attentive (wakeful : w.Wakeful s act) : w.Attentive s act := by
  intro s' task member parked suspends sleeps
  simp only [Host.status] at sleeps
  split at sleeps
  · next record found =>
      split at sleeps
      · exact wakeful record (Host.mem_of_record? found).1 sleeps
      · cases sleeps
  · cases sleeps

def resumed : World :=
  (startedWithTwo.follow? Wakeful (parking ++ [(1, .move (.request (.context 0 .resume)))])).getD startedWithTwo

theorem woken_of_resume : ∃ seen, Watched Attentive startedWithTwo resumed seen ∧
    resumed.tasks 0 = [⟨⟨1, "a"⟩, 0, .waiting lineEvent .parked 1, false, 1, some lineEvent⟩] ∧
    (resumed.debugger.context 0).suspended = false ∧ seen 0 < resumed.debugger.wakeups ∧
    resumed.debugger.isAwake ⟨0, ⟨1, "a"⟩, 0, lineEvent, .parked, 1⟩ := by
  have course : Course Wakeful startedWithTwo resumed :=
    course_of_follow? (parking ++ [(1, .move (.request (.context 0 .resume)))]) rfl
  obtain ⟨seen, watched⟩ := (course.mono Wakeful.attentive).watched
  have tasks : resumed.tasks 0 = [⟨⟨1, "a"⟩, 0, .waiting lineEvent .parked 1, false, 1, some lineEvent⟩] := rfl
  have running : (resumed.debugger.context 0).suspended = false := rfl
  have woken := woken_of_parked (fun _ => rfl) ownThreads_twoThreads wellTracked_startedWithTwo watched
    (mem_innermost tasks) rfl
  rw [running] at woken
  exact ⟨seen, watched, tasks, running, woken.resolve_left Bool.false_ne_true⟩

def asleep : World :=
  parked.become { parked.debugger with host := parked.debugger.host.setStatus ⟨1, "a"⟩ .sleeping }

def suspendedAgain : World :=
  asleep.become ((Request.debugger .suspendAll).serve 1 asleep.debugger)

def forgotten : World :=
  suspendedAgain.become ((Request.debugger .resumeAll).serve 1 suspendedAgain.debugger)

/-- The context of the parked thread is resumed, but no wake-up was signalled since it was suspended, and the
thread stays parked. -/
theorem forgotten_of_suspendAll : ∃ seen, Watched Single startedWithTwo forgotten seen ∧
    forgotten.tasks 0 = [⟨⟨1, "a"⟩, 0, .waiting lineEvent .parked 1, false, 1, some lineEvent⟩] ∧
    (forgotten.debugger.context 0).suspended = false ∧ ¬ seen 0 < forgotten.debugger.wakeups ∧
    ¬ forgotten.debugger.isAwake ⟨0, ⟨1, "a"⟩, 0, lineEvent, .parked, 1⟩ := by
  obtain ⟨seen, watched⟩ := course_parked.watched
  have same : parked.debugger.host.SameThreads (parked.debugger.host.setStatus ⟨1, "a"⟩ .sleeping) := by decide
  have watched := watched.step (.move (.execute (s := 1) (by decide) same)) nofun
  have suspends : asleep.Acts 1 (.move (.request (.debugger .suspendAll))) suspendedAgain :=
    .move (.request (.debugger .suspendAll) (by decide))
  have resumes : suspendedAgain.Acts 1 (.move (.request (.debugger .resumeAll))) forgotten :=
    .move (.request (.debugger .resumeAll) (by decide))
  have watched := (watched.step suspends nofun).step resumes nofun
  exact ⟨_, watched, rfl, rfl, Nat.lt_irrefl 1, by decide⟩

end World

end EventDebugger
