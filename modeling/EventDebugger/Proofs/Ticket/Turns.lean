import EventDebugger.Proofs.Ticket.Courses
import EventDebugger.Proofs.Ticket.Deactivation

/-!
# Steps of one activation

Within one activation the debugger may be stopped, but is not started again: its threads keep the contexts
that they have. A step changes the tasks of its own system thread only, and of those the innermost one.

* `World.Acts.found`: who is tracked stays tracked.
* `World.Step.turns`: what a step makes of the tasks of its system thread.
-/

namespace EventDebugger

namespace Debugger

theorem session_command {d d' : Debugger} {id : ContextId} {f : Context → Except Error Context}
    (h : d.command id f = .ok d') : d'.session = d.session := by
  obtain ⟨context, _, changed⟩ := except_bind_eq_ok h
  cases changed
  rfl

theorem session_prepareLoad (d : Debugger) (system : Nat) (stop : Bool) :
    (d.prepareLoad system stop).2.session = (d.currentContext system).2.session := by
  simp only [prepareLoad]
  split
  · next found => rw [found]
  · next found =>
      rw [found]
      split
      · split
        · rfl
        · next commanded =>
            have same := session_command commanded
            exact same
      · rfl

theorem ticket_prepareLoad (d : Debugger) (system : Nat) (stop : Bool) :
    (d.prepareLoad system stop).2.ticket = d.ticket := by
  rw [ticket, d.session_prepareLoad system stop]
  exact (d.tends_currentContext system).ticket

theorem isStarted_forceStop (d : Debugger) : d.forceStop.isStarted = false := by
  simp only [forceStop]
  split
  · rfl
  · next inactive => exact eq_false_of_ne_true inactive

theorem session_request (d : Debugger) (request : Request) (system : Nat)
    (single : request = .debugger .start → d.isStarted) (activation : request.isActivation) :
    (request.serve system d).session = d.session ∨ (request.serve system d).session = none := by
  cases request with
  | context => cases activation
  | debugger command =>
      simp only [Request.isActivation, decide_eq_true_eq] at activation
      rcases activation with rfl | rfl | rfl
      · change d.start.2.session = _ ∨ _
        obtain ⟨session, active⟩ := Option.isSome_iff_exists.mp (single rfl)
        simp only [start, active]
        exact .inl trivial
      · rw [Request.serve]
        change ((do return .flag (← Script.Attempt.change stop) : Script.Attempt Script.Reply)
          (d, .initial [])).2.1.session = _ ∨ ((do return .flag (← Script.Attempt.change stop) :
            Script.Attempt Script.Reply) (d, .initial [])).2.1.session = _
        rw [Script.Attempt.debugger_map, Script.Attempt.debugger_change]
        split
        · next stopped =>
            obtain ⟨_, _, stopped⟩ := except_bind_eq_ok stopped
            simp only at stopped
            split at stopped <;> cases stopped
            · exact .inl rfl
            · exact .inr rfl
        · exact .inl rfl
      · change d.forceStop.session = _ ∨ d.forceStop.session = _
        simp only [forceStop]
        split
        · exact .inr rfl
        · exact .inl rfl

end Debugger

namespace World

variable {w w₀ w' w'' : World} {s s' : Nat} {move : Move} {act : Act}

/-! ## One activation -/

/-- Steps of one activation: the debugger is not started again once it was stopped. -/
def Single (w : World) (_ : Nat) (act : Act) : Prop :=
  act = .move (.request (.debugger .start)) → w.debugger.isStarted

instance : Decidable (w.Single s act) :=
  inferInstanceAs (Decidable (act = .move (.request (.debugger .start)) → w.debugger.isStarted))

theorem Orderly.acts (h : w.Orderly) (present : ∀ move, act = .move move → ¬ w.Overrides s move)
    (acts : w.Acts s act w') : w'.Orderly := by
  cases acts with
  | move step => exact h.step step (present _ rfl)
  | load stop free =>
      exact h.become ⟨.inl (w.debugger.ticket_prepareLoad s stop), w.debugger.grows_prepareLoad s stop⟩
  | meet free => exact h.become (w.debugger.tends_currentContext s).keeps.shifts
  | skip | keep => exact h.become ⟨.inl rfl, .refl _⟩

theorem Current.acts (h : w.Current) (acts : w.Acts s act w') (single : w.Single s act) : w'.Current := by
  have unchanged {d : Debugger} (same : d.ticket = w.debugger.ticket) : (w.become d).Current := by
    apply h.become
    apply activation_become
    rw [same]
    cases w.debugger.ticket with
    | none => exact .inr rfl
    | some ticket => exact .inl rfl
  cases acts with
  | move step =>
      cases lasts : Move.isActivation _ with
      | false => exact h.step step lasts
      | true =>
          cases step with
          | request request free =>
              have alone : request = .debugger .start → w.debugger.isStarted := by
                rintro rfl
                exact single rfl
              rcases w.debugger.session_request request s alone lasts with same | ended
              · apply unchanged
                rw [Debugger.ticket, same, Debugger.ticket]
              · have ended : (request.serve s w.debugger).ticket = none := by
                  rw [Debugger.ticket, ended, Option.map_none]
                exact h.become (activation_become (.inr ended))
          | _ => cases lasts
  | load stop free => exact unchanged (w.debugger.ticket_prepareLoad s stop)
  | meet free => exact unchanged (w.debugger.tends_currentContext s).ticket
  | skip | keep => exact unchanged rfl

theorem Acts.found (acts : w.Acts s act w') (single : w.Single s act) (well : w.debugger.WellTracked)
    {thread : Thread} {id : ContextId} (alive : w.debugger.host.isAlive thread)
    (found : w.debugger.contextOf? thread = some id) :
    w'.debugger.contextOf? thread = some id ∨ w'.debugger.isStarted = false := by
  have tracked {d : Debugger} (tracks : w.debugger.Tracks d) : d.contextOf? thread = some id :=
    tracks.found well alive found
  have same {d : Debugger} (session : d.session = w.debugger.session) : d.contextOf? thread = some id :=
    (Debugger.contextOf?_congr session thread).trans found
  cases acts with
  | move step =>
      cases step with
      | arrive event free =>
          rw [debugger_arrive]
          exact .inl (tracked (w.debugger.tends_arrive s event).tracks)
      | ask tasks stage =>
          rw [debugger_contend]
          exact .inl (tracked (w.debugger.tracks_contend _ _ _))
      | awake tasks stage awake =>
          rw [debugger_contend]
          exact .inl (tracked (w.debugger.tracks_contend _ _ _))
      | dispatch tasks stage =>
          rename_i task _ event
          cases exits : event.isExit with
          | false => exact .inl (same (w.debugger.touches_dispatch s task.context event exits).session)
          | true =>
              obtain ⟨d', touched, on | ended⟩ := w.debugger.dispatch_exit s task.context event exits
              · exact .inl (same ((congrArg Debugger.session on).trans touched.session))
              · change _ ∨ (w.debugger.dispatch s task.context event).2.isStarted = false
                rw [ended]
                exact .inr d'.isStarted_forceStop
      | answer tasks stage => exact .inl (same (w.debugger.touches_run s _ _).session)
      | fail tasks stage => exact .inl found
      | release tasks stage => exact .inl (tracked w.debugger.tracks_release)
      | request request free =>
          cases activation : request.isActivation with
          | false => exact .inl (tracked (request.tends_request s w.debugger activation).tracks)
          | true =>
              have alone : request = .debugger .start → w.debugger.isStarted := by
                rintro rfl
                exact single rfl
              rcases w.debugger.session_request request s alone activation with on | ended
              · exact .inl (same on)
              · exact .inr (congrArg Option.isSome ended)
      | enterPostMortem free =>
          rw [debugger_inspect]
          exact .inl (tracked (w.debugger.tends_enterPostMortem s).tracks)
      | leavePostMortem tasks stage => exact .inl (tracked (w.debugger.tends_leavePostMortem s _).tracks)
      | execute | register | begin | exit => exact .inl found
  | load stop free =>
      have current := tracked (w.debugger.tends_currentContext s).tracks
      exact .inl ((Debugger.contextOf?_congr (w.debugger.session_prepareLoad s stop) thread).trans current)
  | meet free => exact .inl (tracked (w.debugger.tends_currentContext s).tracks)
  | skip | keep => exact .inl found

theorem Course.single (course : Course Single w₀ w) (idle : w₀.Idle) : w.Orderly ∧ w.Current := by
  induction course with
  | refl => exact ⟨idle.orderly, idle.current⟩
  | step course next single ih =>
      obtain ⟨orderly, current⟩ := ih
      exact ⟨orderly.acts (fun move _ => current.not_overrides _ move) next, current.acts next single⟩

theorem Course.paired {allowed : World → Nat → Act → Prop} (course : Course allowed w w') (h : w.Paired) :
    w'.Paired := by
  induction course with
  | refl => exact h
  | step course next ok ih =>
      cases next with
      | move step => exact ih.step step
      | load | meet | skip | keep => exact ih

/-! ## The tasks of a system thread -/

inductive Turns (w : World) (s : Nat) : Move → List Task → Prop where
  | stays {move : Move} (other : move ≠ .dispatch) : Turns w s move (w.tasks s)
  | begins {move : Move} {task : Task} (other : move ≠ .dispatch) (free : w.IsFree s)
      (outside : ¬ task.stage.holds) : Turns w s move (task :: w.tasks s)
  | admitted {move : Move} {task : Task} {rest : List Task} {event : Event}
      (other : move ≠ .dispatch) (tasks : w.tasks s = task :: rest) (asks : task.stage.isOutside)
      (same : task.stage.event? = some event)
      (resumed : (w.debugger.context task.context).suspended = false) :
      Turns w s move ({ task with stage := .admitted event, activation := w.activation } :: rest)
  | waits {move : Move} {task : Task} {rest : List Task} {event : Event} {reason : Waiting} {since : Nat}
      (other : move ≠ .dispatch) (tasks : w.tasks s = task :: rest) (asks : task.stage.isOutside)
      (same : task.stage.event? = some event) :
      Turns w s move ({ task with stage := .waiting event reason since } :: rest)
  | dropped {move : Move} {task : Task} {rest : List Task} {granted : Bool} {d : Debugger}
      (other : move ≠ .dispatch) (tasks : w.tasks s = task :: rest) (asks : task.stage.isOutside)
      (fresh : granted = false → ¬ task.stage.isQueued)
      (refused : w.debugger.contend task.thread task.context granted = (.dropped, d)) :
      Turns w s move rest
  | dispatched {task : Task} {rest : List Task} {event : Event} {outcome : Outcome}
      (tasks : w.tasks s = task :: rest) (stage : task.stage = .admitted event) :
      Turns w s .dispatch ({ task with stage := outcome.stage } :: rest)
  | goesOn {move : Move} {task : Task} {rest : List Task} {outcome : Outcome} (other : move ≠ .dispatch)
      (tasks : w.tasks s = task :: rest) (called : task.stage.callback?.isSome) :
      Turns w s move ({ task with stage := outcome.stage } :: rest)
  | ends {move : Move} {task : Task} {rest : List Task} (other : move ≠ .dispatch)
      (tasks : w.tasks s = task :: rest)
      (last : task.stage = .handled ∨ move = .leavePostMortem ∧ task.stage.isInspecting) :
      Turns w s move rest

theorem turns_contend {task : Task} {rest : List Task} {event : Event} {granted : Bool}
    (other : move ≠ .dispatch) (tasks : w.tasks s = task :: rest) (asks : task.stage.isOutside)
    (same : task.stage.event? = some event) (fresh : granted = false → ¬ task.stage.isQueued) :
    w.Turns s move ((w.contend s task rest event granted).tasks s) := by
  simp only [World.contend]
  split
  · next admitted =>
      rw [tasks_set_self]
      exact .admitted other tasks asks same (Debugger.not_suspended_of_contend admitted)
  · next refused =>
      rw [tasks_set_self]
      exact .dropped other tasks asks fresh refused
  · rw [tasks_set_self]
    exact .waits other tasks asks same

theorem Step.turns (step : w.Step s move w') : w.Turns s move (w'.tasks s) := by
  cases step with
  | arrive event free =>
      simp only [World.arrive]
      split
      · exact .stays (by simp)
      · rw [tasks_set_self]
        exact .begins (by simp) free Bool.false_ne_true
  | ask tasks stage =>
      refine turns_contend (by simp) tasks ?_ ?_ fun _ => ?_ <;> rw [stage]
      · rfl
      · rfl
      · exact Bool.false_ne_true
  | awake tasks stage awake =>
      rename_i reason _
      refine turns_contend (by simp) tasks ?_ ?_ fun fresh => ?_ <;> rw [stage]
      · rfl
      · rfl
      · cases reason with
        | queued => cases fresh
        | parked => exact Bool.false_ne_true
  | dispatch tasks stage =>
      rw [tasks_proceed]
      exact .dispatched tasks stage
  | answer tasks stage | fail tasks stage =>
      rw [tasks_proceed]
      exact .goesOn (by simp) tasks (by rw [stage]; rfl)
  | release tasks stage =>
      rw [tasks_set_self]
      exact .ends (by simp) tasks (.inl stage)
  | leavePostMortem tasks stage =>
      rw [tasks_set_self]
      exact .ends (by simp) tasks (.inr ⟨rfl, by rw [stage]; rfl⟩)
  | enterPostMortem free =>
      simp only [World.inspect]
      split
      · exact .stays (by simp)
      · rw [tasks_set_self]
        exact .begins (by simp) free Bool.false_ne_true
  | request | execute | register | begin | exit => exact .stays (by simp)

/-- What a task that holds the ticket after a step was before: one that held it already, further on perhaps, or
one whose context is not suspended, and which got the ticket of the present activation. -/
inductive Held (w : World) (s : Nat) (task' : Task) : Prop where
  | before {task : Task} (member : task ∈ w.tasks s) (context : task.context = task'.context)
      (activation : task.activation = task'.activation) (holds : task.stage.holds)
      (same : task'.stage.isAdmitted → task = task')
  | admitted (resumed : (w.debugger.context task'.context).suspended = false)
      (activation : task'.activation = w.activation)

theorem Step.holds (step : w.Step s move w') {task' : Task} (member : task' ∈ w'.tasks s')
    (holds : task'.stage.holds) : w.Held s' task' := by
  have before (member : task' ∈ w.tasks s') : w.Held s' task' := .before member rfl rfl holds fun _ => rfl
  by_cases here : s' = s
  · subst here
    have turns := step.turns
    generalize w'.tasks s' = own at turns member
    cases turns with
    | stays other => exact before member
    | begins other free outside =>
        rcases List.mem_cons.mp member with rfl | member
        · exact absurd holds outside
        · exact before member
    | admitted other tasks asks same resumed =>
        rcases List.mem_cons.mp member with rfl | member
        · exact .admitted resumed rfl
        · exact before (mem_outer tasks member)
    | waits other tasks asks same =>
        rcases List.mem_cons.mp member with rfl | member
        · cases holds
        · exact before (mem_outer tasks member)
    | dropped other tasks asks fresh refused => exact before (mem_outer tasks member)
    | dispatched tasks stage =>
        rcases List.mem_cons.mp member with rfl | member
        · refine .before (mem_innermost tasks) rfl rfl (by rw [stage]; rfl) fun admitted => ?_
          rw [Outcome.not_isAdmitted_stage] at admitted
          cases admitted
        · exact before (mem_outer tasks member)
    | goesOn other tasks called =>
        rcases List.mem_cons.mp member with rfl | member
        · refine .before (mem_innermost tasks) rfl rfl (Stage.holds_of_callback? called) fun admitted => ?_
          rw [Outcome.not_isAdmitted_stage] at admitted
          cases admitted
        · exact before (mem_outer tasks member)
    | ends other tasks last => exact before (mem_outer tasks member)
  · rw [step.tasks_ne here] at member
    exact before member

/-! ## Activations -/

theorem Acts.inactive (acts : w.Acts s act w') (single : w.Single s act) (inactive : w.debugger.isStarted = false) :
    w'.debugger.isStarted = false := by
  have same {d : Debugger} (ticket : d.ticket = w.debugger.ticket) : d.isStarted = false :=
    (Debugger.isStarted_congr ticket).trans inactive
  cases acts with
  | move step =>
      cases step with
      | arrive event free =>
          rw [debugger_arrive]
          exact same (w.debugger.tends_arrive s event).keeps.ticket
      | ask | awake =>
          rw [debugger_contend, Debugger.isStarted_contend]
          exact inactive
      | dispatch tasks stage =>
          rcases w.debugger.ticket_dispatch s _ _ with kept | ended
          · exact same kept
          · exact (Debugger.isStarted_eq _).trans (congrArg Option.isSome ended)
      | answer tasks stage => exact same (w.debugger.touches_run s _ _).keeps.ticket
      | fail => exact inactive
      | release tasks stage => exact w.debugger.isStarted_release.trans inactive
      | request request free =>
          cases activation : request.isActivation with
          | false => exact same (request.tends_request s w.debugger activation).keeps.ticket
          | true =>
              have alone : request = .debugger .start → w.debugger.isStarted := by
                rintro rfl
                exact single rfl
              rcases w.debugger.session_request request s alone activation with kept | ended
              · exact (congrArg Option.isSome kept).trans inactive
              · exact congrArg Option.isSome ended
      | enterPostMortem free =>
          rw [debugger_inspect]
          exact same (w.debugger.tends_enterPostMortem s).keeps.ticket
      | leavePostMortem tasks stage => exact same (w.debugger.tends_leavePostMortem s _).keeps.ticket
      | execute | register | begin | exit => exact inactive
  | load stop free => exact same (w.debugger.ticket_prepareLoad s stop)
  | meet free => exact same (w.debugger.tends_currentContext s).ticket
  | skip | keep => exact inactive

theorem Acts.activation_become (acts : w.Acts s act w') : w'.activation = (w.become w'.debugger).activation := by
  cases acts with
  | move step =>
      cases step with
      | arrive =>
          simp only [World.arrive]
          split <;> rfl
      | ask | awake =>
          simp only [World.contend]
          split <;> rfl
      | enterPostMortem =>
          simp only [World.inspect]
          split <;> rfl
      | _ => rfl
  | _ => rfl

theorem Acts.activation (acts : w.Acts s act w') (single : w.Single s act) : w'.activation = w.activation := by
  rw [acts.activation_become]
  apply World.activation_become
  cases active : w.debugger.isStarted with
  | true => exact .inl ((w.debugger.isStarted_eq).symm.trans active)
  | false =>
      have ended := (w'.debugger.isStarted_eq).symm.trans (acts.inactive single active)
      exact .inr (Option.not_isSome_iff_eq_none.mp (ended ▸ Bool.false_ne_true))

end World

end EventDebugger
