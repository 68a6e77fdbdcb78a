import EventDebugger.Proofs.Commands.Failures
import EventDebugger.Proofs.Ticket.Restoration
import EventDebugger.Proofs.Ticket.Waking

/-!
# Suspensions and resumes

Whether a context can be suspended or resumed depends on nothing but whether it is suspended. A suspension has an
effect only if the host says that the thread runs or sleeps: a thread of any other status is left alone, although
the command succeeds. What is suspended stays so, whatever threads, front-ends and the host do, until a command
resumes the context or all of them, or a post-mortem ends.

* `Debugger.suspend_eq`, `Debugger.resume_eq`: the two commands.
* `World.Acts.holds`: what every step leaves suspended.
* `World.controlled`: the commands in any world, and any run between them.
-/

namespace EventDebugger

def Context.Held (context : Context) : Prop := context.suspended = true

namespace Context

theorem held_suspend_of_effective {status : ThreadStatus} (effective : status ≠ .other) (context : Context) :
    (context.suspend status).Held := by
  cases status with
  | running | sleeping => rfl
  | other => exact absurd rfl effective

theorem held_suspend (status : ThreadStatus) {context : Context} (held : context.Held) :
    (context.suspend status).Held := by
  cases status with
  | running | sleeping => rfl
  | other => exact held

end Context

namespace Debugger

variable {d d' d'' : Debugger} {system : Nat} {id other : ContextId}

/-! ## The commands -/

theorem suspend_eq (started : d.isStarted) (id : ContextId) :
    d.suspend id = if (d.context id).suspended then .error .alreadySuspended else .ok (d.suspendContext id) := by
  obtain ⟨session, active⟩ := Option.isSome_iff_exists.mp started
  simp only [suspend, activeSession, active]
  rfl

theorem resume_eq (started : d.isStarted) (id : ContextId) :
    d.resume id = if (d.context id).suspended then
        .ok (if (d.context id).wasRunning then (d.updateContext id Context.resume).wakeUp
          else d.updateContext id Context.resume)
      else .error .notSuspended := by
  obtain ⟨session, active⟩ := Option.isSome_iff_exists.mp started
  simp only [resume, activeSession, active]
  rfl

theorem held_suspendContext (known : id < d.contexts.size)
    (effective : d.host.status (d.context id).thread ≠ .other) : ((d.suspendContext id).context id).Held := by
  rw [suspendContext, d.context_updateContext_self _ known]
  exact Context.held_suspend_of_effective effective _

theorem suspendContext_of_other (left : d.host.status (d.context id).thread = .other) : d.suspendContext id = d := by
  rw [suspendContext, left]
  exact d.updateContext_self id

theorem suspended_resume (known : id < d.contexts.size) (resumed : d.resume id = .ok d') :
    (d'.context id).suspended = false := by
  obtain ⟨_, _, resumed⟩ := except_bind_eq_ok resumed
  have cleared : ((d.updateContext id Context.resume).context id).suspended = false :=
    congrArg Context.suspended (d.context_updateContext_self Context.resume known)
  simp only at resumed
  split at resumed
  · cases resumed
    split <;> exact cleared
  · cases resumed

/-! ## What stays suspended -/

abbrev Holds (id : ContextId) : Debugger → Debugger → Prop := Preserves Context.Held id

theorem Spares.holds (h : Spares d d') : Holds id d d' :=
  fun held => (congrArg Prod.fst (h.switches id)).trans held

theorem spares_liveContexts {ids : List ContextId} (h : d.liveContexts = .ok (ids, d')) : Spares d d' := by
  obtain ⟨session, _, built⟩ := except_bind_eq_ok h
  cases built
  exact (d.spares_entriesFor session.table d.host.liveThreads).trans ⟨rfl, fun _ => rfl⟩

theorem spares_arrive (d : Debugger) (system : Nat) (event : Event) : Spares d (d.arrive system event).2 := by
  simp only [arrive]
  split
  · have counted : Spares d { (d.currentThread system).2 with eventCount := d.eventCount + 1 } :=
      ⟨rfl, fun _ => rfl⟩
    split
    · exact counted
    · split
      · exact counted
      · next session _ =>
          have tracked := counted.trans (spares_track { (d.currentThread system).2 with
            eventCount := d.eventCount + 1 } session (d.currentThread system).1)
          split <;> exact tracked
  · exact ⟨rfl, fun _ => rfl⟩

theorem holds_contend (d : Debugger) (thread : Thread) (own : ContextId) (granted : Bool) :
    Holds id d (d.contend thread own granted).2 := by
  have letIn (session : Session) : Holds id d (d.letIn session own).2 := by
    simp only [Debugger.letIn]
    split
    · have handed : Holds id d { d with session := some session.handOver }.wakeUp := .of_contexts rfl
      exact handed.trans (preserves_updateContext _ own fun held => held)
    · exact .of_contexts rfl
  simp only [contend]
  split
  · exact fun held => held
  · split
    · exact letIn _
    · split
      · split
        · exact letIn _
        · exact fun held => held
      · exact .of_contexts rfl

theorem contexts_release (d : Debugger) : d.release.contexts = d.contexts := by
  simp only [release, pruneWhenDue]
  split
  · rfl
  · split <;> rfl

theorem holds_suspendContext (d : Debugger) (other : ContextId) : Holds id d (d.suspendContext other) :=
  d.preserves_updateContext other (Context.held_suspend _)

theorem holds_suspend (h : d.suspend other = .ok d') : Holds id d d' := by
  obtain ⟨_, _, suspended⟩ := except_bind_eq_ok h
  split at suspended
  · cases suspended
  · cases suspended
    exact d.holds_suspendContext other

theorem holds_suspendAll (h : d.suspendAll system = .ok d') : Holds id d d' := by
  obtain ⟨⟨ids, d₁⟩, others, suspended⟩ := except_bind_eq_ok h
  cases suspended
  have all (ids : List ContextId) (d : Debugger) : Holds id d (ids.foldl suspendContext d) := by
    induction ids generalizing d with
    | nil => exact fun held => held
    | cons other ids ih => exact (d.holds_suspendContext other).trans (ih _)
  exact (spares_otherContexts others).holds.trans (all ids d₁)

theorem holds_resume (ne : other ≠ id) (h : d.resume other = .ok d') : Holds id d d' := by
  obtain ⟨_, _, resumed⟩ := except_bind_eq_ok h
  have kept : Holds id d (d.updateContext other Context.resume) := by
    intro held
    rwa [d.context_updateContext_ne _ ne.symm]
  simp only at resumed
  split at resumed
  · cases resumed
    split <;> exact kept
  · cases resumed

theorem holds_command {f : Context → Except Error Context}
    (hf : ∀ {context context'}, f context = .ok context' → context'.alarm = context.alarm)
    (h : d.command other f = .ok d') : Holds id d d' := by
  obtain ⟨context, found, changed⟩ := except_bind_eq_ok h
  cases changed
  simp only [inspect] at found
  split at found
  · by_cases same : id = other
    · subst same
      intro held
      have alarm : (d.context id).alarm.1 = true := held
      by_cases known : id < d.contexts.size
      · rw [d.context_updateContext_self _ known]
        rwa [← hf found] at alarm
      · rwa [d.updateContext_unknown _ (Nat.le_of_not_lt known)]
    · intro held
      rwa [d.context_updateContext_ne _ same]
  · cases found

theorem holds_interrupt (d : Debugger) (system : Nat) : Holds id d (d.interrupt system).2 := by
  have current : Holds id d (d.currentContext system).2 := (d.spares_currentContext system).holds
  simp only [interrupt]
  split
  · next found => simpa only [found] using current
  · next found =>
      rw [found] at current
      split
      · next commanded => exact current.trans (holds_command alarm_interrupt commanded)
      · exact current

theorem holds_interruptLast {last : Option ContextId} (h : d.interruptLast = .ok (last, d')) : Holds id d d' := by
  obtain ⟨_, _, found⟩ := except_bind_eq_ok h
  split at found
  · cases found
    exact fun held => held
  · split at found
    · obtain ⟨_, commanded, same⟩ := except_bind_eq_ok found
      cases same
      exact holds_command alarm_interrupt commanded
    · cases found
      exact fun held => held

theorem holds_setTemporary {source : String} {target : BreakpointTarget} {guard : Option String} {bp : Breakpoint}
    (h : d.setTemporary other source target guard = .ok (bp, d')) : Holds id d d' := by
  obtain ⟨_, commanded, same⟩ := except_bind_eq_ok h
  cases same
  refine holds_command (fun changed => ?_) commanded
  cases changed
  rfl

theorem holds_clearTemporary {bp : Option Breakpoint} (h : d.clearTemporary other = .ok (bp, d')) :
    Holds id d d' := by
  obtain ⟨_, _, cleared⟩ := except_bind_eq_ok h
  obtain ⟨_, commanded, same⟩ := except_bind_eq_ok cleared
  cases same
  refine holds_command (fun changed => ?_) commanded
  cases changed
  rfl

theorem Touches.holds {own : ContextId} (h : Touches system own d d') (known : id < d.contexts.size) :
    Holds id d d' := by
  intro held
  have traits := h.traits id known
  simp only [Context.traits, Prod.mk.injEq] at traits
  exact traits.2.2.1.trans held

theorem holds_dispatch (d : Debugger) (system : Nat) (own : ContextId) (event : Event)
    (known : id < d.contexts.size) : Holds id d (d.dispatch system own event).2 := by
  cases exits : event.isExit with
  | false => exact (d.touches_dispatch system own event exits).holds known
  | true =>
      obtain ⟨d', touched, same | ended⟩ := d.dispatch_exit system own event exits
      · rw [same]
        exact touched.holds known
      · rw [ended]
        exact (touched.holds known).trans (.of_contexts d'.contexts_forceStop)

theorem holds_enterPostMortem (d : Debugger) (system : Nat) : Holds id d (d.enterPostMortem system).2 := by
  have current : Holds id d (d.currentContext system).2 := (d.spares_currentContext system).holds
  simp only [enterPostMortem]
  split
  · next found => simpa only [found] using current
  · next own d₁ found =>
      rw [found] at current
      split
      · exact current
      · next d₂ suspended =>
          have off : Holds id d₂ { d₂ with settings := { d₂.settings with tracing := false } } := .of_contexts rfl
          exact ((current.trans (holds_suspendAll suspended)).trans off).trans
            (preserves_updateContext _ own fun held => held)

theorem holds_prepareLoad (d : Debugger) (system : Nat) (stop : Bool) : Holds id d (d.prepareLoad system stop).2 := by
  have current : Holds id d (d.currentContext system).2 := (d.spares_currentContext system).holds
  simp only [prepareLoad]
  split
  · next found => simpa only [found] using current
  · next own d₁ found =>
      rw [found] at current
      have emptied : Holds id d (d₁.updateContext own fun context => { context with stack := [] }) :=
        current.trans (preserves_updateContext _ own fun held => held)
      split
      · split
        · exact emptied
        · next commanded => exact emptied.trans (holds_command alarm_interrupt commanded)
      · exact emptied

end Debugger

/-! ## Requests -/

def Request.resumes (request : Request) (id : ContextId) : Bool :=
  match request with
  | .context other .resume => other == id
  | .debugger .resumeAll => true
  | _ => false

namespace Request

open Script Script.Attempt Debugger

variable {id : ContextId}

theorem holds_debuggerCommand (command : DebuggerCommand) (system : Nat)
    (keeps : (Request.debugger command).resumes id = false) : Within (Holds id) (command.perform system) := by
  have quiet {α : Type} {change : Debugger → Except Error (α × Debugger)}
      (same : ∀ {d d' a}, change d = .ok (a, d') → d'.contexts = d.contexts) (f : α → Reply) :
      Within (Holds id) (do return f (← Attempt.change change)) :=
    within_map (R := Holds id) (within_change fun changed => .of_contexts (same changed)) _
  cases command with
  | start =>
      refine quiet (fun {d _ _} changed => ?_) _
      rw [← d.contexts_start, Except.ok.inj changed]
  | stop => exact quiet contexts_stop _
  | forceStop =>
      refine within_done (within_perform fun {d _} changed => ?_)
      cases changed
      exact .of_contexts d.contexts_forceStop
  | isStarted | settings => exact within_bind within_debugger fun _ => within_pure _
  | addBreakpoint => exact quiet contexts_addBreakpoint _
  | removeBreakpoint => exact quiet contexts_removeBreakpoint _
  | breakpoints | catchpoint => exact within_map (within_query _) _
  | setCatchpoint => exact within_done (within_perform fun changed => .of_contexts (contexts_setCatchpoint changed))
  | setPostMortem => exact within_done (within_perform fun changed => .of_contexts (contexts_setPostMortem changed))
  | setTracing | setKeepFrameBinding | setDebug =>
      refine within_done (within_perform fun changed => ?_)
      cases changed
      exact .of_contexts rfl
  | contexts =>
      exact within_bind (within_change fun listed => (spares_liveContexts listed).holds) fun _ =>
        within_bind within_debugger fun _ => within_pure _
  | lastContext =>
      exact within_bind (within_query _) fun _ => within_bind within_debugger fun _ => within_pure _
  | interrupt => exact within_done (within_onDebugger fun d => d.holds_interrupt system)
  | interruptLast =>
      exact within_bind (within_change holds_interruptLast) fun _ =>
        within_bind within_debugger fun _ => within_pure _
  | suspendAll => exact within_done (within_perform holds_suspendAll)
  | resumeAll => cases keeps

theorem holds_contextCommand (command : ContextCommand) (other : ContextId)
    (keeps : (Request.context other command).resumes id = false) : Within (Holds id) (command.perform other) := by
  have stepping {f : Context → Except Error Context} (arms : f ∈ (Request.context other command).arming?) :
      Within (Holds id) (commandContext other f) :=
    within_done (within_perform (holds_command (alarm_stepping fun unstepped =>
      arms_of_unstepped unstepped _ f arms)))
  cases command with
  | suspend => exact within_done (within_perform holds_suspend)
  | resume => exact within_done (within_perform (holds_resume (beq_eq_false_iff_ne.mp keeps)))
  | describe | summarize | frame | temporary => exact within_map (within_query _) _
  | evaluate =>
      refine within_bind within_debugger fun _ => ?_
      split
      · exact within_pure _
      · exact within_throw _
  | step | stepOver | stopFrame | interrupt => exact stepping rfl
  | setTracing on =>
      refine within_done (within_perform (holds_command fun changed => ?_))
      cases changed
      rfl
  | setTemporary => exact within_map (R := Holds id) (within_change holds_setTemporary) _
  | clearTemporary => exact within_map (R := Holds id) (within_change holds_clearTemporary) _

theorem holds (request : Request) (system : Nat) (d : Debugger) (keeps : request.resumes id = false) :
    Holds id d (request.serve system d) := by
  cases request with
  | debugger command => exact holds_debuggerCommand command system keeps d _
  | context other command => exact holds_contextCommand command other keeps d _

end Request

/-! ## Runs -/

def Act.resumes (act : Act) (id : ContextId) : Bool :=
  match act with
  | .move (.request request) => request.resumes id
  | .move .leavePostMortem => true
  | _ => false

namespace World

variable {w w' : World} {s : Nat} {act : Act} {id : ContextId}

/-- Steps that do not resume a context. -/
def Unresumed (id : ContextId) (_ : World) (_ : Nat) (act : Act) : Prop := act.resumes id = false

instance (id : ContextId) (w : World) (s : Nat) (act : Act) : Decidable (Unresumed id w s act) :=
  inferInstanceAs (Decidable (_ = _))

theorem Acts.holds (acts : w.Acts s act w') (known : id < w.debugger.contexts.size)
    (keeps : act.resumes id = false) : Debugger.Holds id w.debugger w'.debugger := by
  cases acts with
  | move step =>
      cases step with
      | arrive event free =>
          rw [debugger_arrive]
          exact (w.debugger.spares_arrive s event).holds
      | ask | awake =>
          rw [debugger_contend]
          exact w.debugger.holds_contend _ _ _
      | dispatch tasks stage => exact w.debugger.holds_dispatch s _ _ known
      | answer tasks stage => exact (w.debugger.touches_run s _ _).holds known
      | fail => exact fun held => held
      | release => exact .of_contexts w.debugger.contexts_release
      | request request free => exact request.holds s w.debugger keeps
      | enterPostMortem =>
          rw [debugger_inspect]
          exact w.debugger.holds_enterPostMortem s
      | leavePostMortem => cases keeps
      | execute | register | begin | exit => exact .of_contexts rfl
  | load stop free => exact w.debugger.holds_prepareLoad s stop
  | meet => exact (w.debugger.spares_currentContext s).holds
  | skip other on free => exact w.debugger.preserves_updateContext other fun held => held
  | keep => exact .of_contexts rfl

theorem Course.holds (course : Course (Unresumed id) w w') (known : id < w.debugger.contexts.size) :
    id < w'.debugger.contexts.size ∧ Debugger.Holds id w.debugger w'.debugger := by
  induction course with
  | refl => exact ⟨known, fun held => held⟩
  | step course next keeps ih =>
      exact ⟨Nat.lt_of_lt_of_le ih.1 next.lodges.size, ih.2.trans (next.holds ih.1 keeps)⟩

/-- What can be relied on when a context is suspended or resumed. -/
structure Controlled (w : World) (id : ContextId) : Prop where
  suspends : (∃ d, w.debugger.suspend id = .ok d) ↔ (w.debugger.context id).suspended = false
  refused : w.debugger.suspend id = .error .alreadySuspended ↔ (w.debugger.context id).suspended = true
  resumes : (∃ d, w.debugger.resume id = .ok d) ↔ (w.debugger.context id).suspended = true
  unsuspended : w.debugger.resume id = .error .notSuspended ↔ (w.debugger.context id).suspended = false
  resumed : ∀ d, w.debugger.resume id = .ok d → (d.context id).suspended = false
  /-- A thread that neither runs nor sleeps is left alone. -/
  spared : w.debugger.host.status (w.debugger.context id).thread = .other →
    ∀ d, w.debugger.suspend id = .ok d → d = w.debugger
  /-- Any other thread stays suspended until a resume: it cannot be suspended again, and one resume is enough. -/
  lasts : w.debugger.host.status (w.debugger.context id).thread ≠ .other →
    ∀ d, w.debugger.suspend id = .ok d → (d.context id).suspended = true ∧
      ∀ later, Course (Unresumed id) (w.become d) later → later.debugger.isStarted →
        later.debugger.suspend id = .error .alreadySuspended ∧
        ∃ d', later.debugger.resume id = .ok d' ∧ (d'.context id).suspended = false

theorem controlled (started : w.debugger.isStarted) (known : id < w.debugger.contexts.size) : w.Controlled id := by
  have suspend := Debugger.suspend_eq started id
  have resume := Debugger.resume_eq started id
  refine ⟨?_, ?_, ?_, ?_, fun d => Debugger.suspended_resume known, fun left d suspended => ?_,
    fun effective d suspended => ?_⟩
  iterate 2
    rw [suspend]
    cases (w.debugger.context id).suspended <;> simp
  iterate 2
    rw [resume]
    cases (w.debugger.context id).suspended <;> simp
  · rw [suspend] at suspended
    split at suspended
    · cases suspended
    · rw [← Except.ok.inj suspended, Debugger.suspendContext_of_other left]
  · rw [suspend] at suspended
    split at suspended
    · cases suspended
    · have held := Debugger.held_suspendContext known effective
      rw [Except.ok.inj suspended] at held
      refine ⟨held, fun later course active => ?_⟩
      have size : d.contexts.size = w.debugger.contexts.size := by
        rw [← Except.ok.inj suspended]
        exact Debugger.size_updateContext ..
      obtain ⟨known', holds⟩ := course.holds (size ▸ known)
      have held' : (later.debugger.context id).suspended = true := holds held
      have resumed := Debugger.resume_eq active id
      rw [if_pos held'] at resumed
      exact ⟨(Debugger.suspend_eq active id).trans (if_pos held'), _, resumed,
        Debugger.suspended_resume known' resumed⟩

def withMain : World := unstarted.afterwards
  [(0, .move (.request (.debugger .start))), (0, .meet), (1, .move (.register "b")), (1, .move (.begin ⟨2, "b"⟩))]

def parkedMain : World :=
  ((withMain.become (withMain.debugger.suspendContext 0)).follow? (Unresumed 0)
    [(1, .move (.request (.debugger .suspendAll))), (0, .move (.arrive lineEvent)), (0, .move .ask)]).getD withMain

theorem held_parkedMain : withMain.debugger.suspend 0 = .ok (withMain.debugger.suspendContext 0) ∧
    Course (Unresumed 0) (withMain.become (withMain.debugger.suspendContext 0)) parkedMain ∧
    (parkedMain.tasks 0).map (·.stage) = [.waiting lineEvent .parked 1] ∧
    parkedMain.debugger.suspend 0 = .error .alreadySuspended ∧
    ∃ d, parkedMain.debugger.resume 0 = .ok d ∧ (d.context 0).suspended = false := by
  have controlled : withMain.Controlled 0 := controlled rfl (by decide)
  have suspended : withMain.debugger.suspend 0 = .ok (withMain.debugger.suspendContext 0) := rfl
  have course : Course (Unresumed 0) (withMain.become (withMain.debugger.suspendContext 0)) parkedMain :=
    course_of_follow? [(1, .move (.request (.debugger .suspendAll))), (0, .move (.arrive lineEvent)),
      (0, .move .ask)] rfl
  exact ⟨suspended, course, rfl, (controlled.lasts (by decide) _ suspended).2 _ course rfl⟩

def aborting : World :=
  withMain.become { withMain.debugger with host := withMain.debugger.host.setStatus ⟨1, "main"⟩ .other }

/-- Suspending such a thread succeeds time and again without an effect, and cannot be undone. -/
theorem not_suspended_of_aborting : Course Anything unstarted aborting ∧ aborting.debugger.isStarted ∧
    aborting.debugger.suspend 0 = .ok aborting.debugger ∧
    (aborting.debugger.context 0).suspended = false ∧
    aborting.debugger.resume 0 = .error .notSuspended := by
  have course : Course Anything unstarted withMain := course_afterwards _ _
  have same : withMain.debugger.host.SameThreads (withMain.debugger.host.setStatus ⟨1, "main"⟩ .other) := by decide
  exact ⟨course.step (.move (.execute (s := 0) (by decide) same)) trivial, rfl, rfl, rfl, rfl⟩

end World

end EventDebugger
