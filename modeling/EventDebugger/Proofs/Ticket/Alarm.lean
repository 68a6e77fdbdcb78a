import EventDebugger.Proofs.Ticket.Courses

/-!
# Marks of suspended contexts

A resume wakes up the waiting threads only if its context is marked: the thread marks it when it parks, and a
suspension marks it or takes the mark away, depending on whether the host says that the thread runs or sleeps.

* `Debugger.Rouses`: what a thread that is parked on a context can rely on.
* `Debugger.Minds`: operations after which it still can.
-/

namespace EventDebugger

/-! ## Suspension and its mark -/

def Context.alarm (context : Context) : Bool × Bool := (context.suspended, context.wasRunning)

theorem Context.alarm_suspend {status : ThreadStatus} (awake : status ≠ .sleeping) (context : Context) :
    (context.suspend status).alarm = context.alarm ∨ (context.suspend status).alarm = (true, true) := by
  cases status with
  | running => exact .inr rfl
  | sleeping => exact absurd rfl awake
  | other => exact .inl rfl

namespace Host

theorem status_bind (host : Host) (system : Nat) (thread other : Thread) :
    (host.bind system thread).status other = host.status other := by
  change (host.updateThread thread fun record => { record with systemThread := some system }).status other = _
  simp only [status, host.record?_updateThread thread other
    (fun record => { record with systemThread := some system }) fun _ => rfl]
  cases host.record? other with
  | none => rfl
  | some record =>
      simp only [Option.map_some]
      split <;> rfl

theorem status_register {host : Host} {name : String} {thread : Thread}
    (sleeps : (host.register name).2.status thread = .sleeping) : host.status thread = .sleeping := by
  simp only [status, record?, register, List.find?_append] at sleeps ⊢
  cases found : host.threads.find? fun record => record.thread == thread with
  | some record =>
      rw [found, Option.some_or] at sleeps
      exact sleeps
  | none =>
      rw [found, Option.none_or] at sleeps
      simp only [List.find?_cons, List.find?_nil] at sleeps
      split at sleeps
      · next new =>
          split at new <;> cases new
          cases sleeps
      · cases sleeps

theorem status_currentThread {host : Host} {system : Nat} {thread : Thread}
    (sleeps : (host.currentThread system).2.status thread = .sleeping) : host.status thread = .sleeping := by
  simp only [currentThread] at sleeps
  split at sleeps
  · exact sleeps
  · rw [status_bind] at sleeps
    exact status_register sleeps

theorem Met.awake {a b : Host} {system : Nat} {thread : Thread} (met : a.Met system b)
    (awake : a.status thread ≠ .sleeping) : b.status thread ≠ .sleeping := by
  intro sleeps
  rcases met with same | met
  · exact awake (same ▸ sleeps)
  · exact awake (status_currentThread (met ▸ sleeps))

end Host

namespace Debugger

/-- What a thread that is parked on a context can rely on, where the waiting threads had been woken up `seen`
times when the context was suspended last. -/
inductive Rouses (d : Debugger) (id : ContextId) (seen : Nat) : Prop where
  /-- The context is suspended, and its resume wakes up the thread. -/
  | suspended (is : (d.context id).suspended = true) (marked : (d.context id).wasRunning = true)
      (bound : seen ≤ d.wakeups)
  /-- The thread was woken up since. -/
  | woken (resumed : (d.context id).suspended = false) (since : seen < d.wakeups)

theorem Rouses.bound {d : Debugger} {id : ContextId} {seen : Nat} (h : d.Rouses id seen) :
    seen ≤ d.wakeups := by
  cases h with
  | suspended is marked bound => exact bound
  | woken resumed since => exact Nat.le_of_lt since

structure Minds (id : ContextId) (d d' : Debugger) : Prop where
  size : d.contexts.size ≤ d'.contexts.size
  rouses : id < d.contexts.size → ∀ {seen}, d.Rouses id seen → d'.Rouses id seen

variable {id : ContextId} {d d' d'' : Debugger} {system : Nat}

theorem Minds.refl (id : ContextId) (d : Debugger) : Minds id d d :=
  ⟨Nat.le_refl _, fun _ _ rouses => rouses⟩

theorem Minds.trans (first : Minds id d d') (second : Minds id d' d'') : Minds id d d'' where
  size := Nat.le_trans first.size second.size
  rouses known _ rouses := second.rouses (Nat.lt_of_lt_of_le known first.size) (first.rouses known rouses)

instance : IsPreorder Debugger (Minds id) where
  refl := .refl id
  trans _ _ _ := .trans

theorem Minds.of_alarm (size : d.contexts.size ≤ d'.contexts.size) (wakeups : d.wakeups ≤ d'.wakeups)
    (alarm : id < d.contexts.size →
      (d'.context id).alarm = (d.context id).alarm ∨ (d'.context id).alarm = (true, true)) :
    Minds id d d' := by
  refine ⟨size, fun known seen rouses => ?_⟩
  simp only [Context.alarm, Prod.mk.injEq] at alarm
  rcases alarm known with ⟨suspended, wasRunning⟩ | ⟨suspended, wasRunning⟩
  · cases rouses with
    | suspended is marked bound =>
        exact .suspended (suspended.trans is) (wasRunning.trans marked) (Nat.le_trans bound wakeups)
    | woken resumed since => exact .woken (suspended.trans resumed) (Nat.lt_of_lt_of_le since wakeups)
  · exact .suspended suspended wasRunning (Nat.le_trans rouses.bound wakeups)

theorem Minds.of_contexts (contexts : d'.contexts = d.contexts) (wakeups : d.wakeups ≤ d'.wakeups) :
    Minds id d d' :=
  .of_alarm (Nat.le_of_eq (congrArg Array.size contexts.symm)) wakeups fun _ => by
    rw [context, contexts, context]
    exact .inl rfl

theorem minds_updateContext (d : Debugger) (other : ContextId) (f : Context → Context)
    (hf : other = id →
      (f (d.context id)).alarm = (d.context id).alarm ∨ (f (d.context id)).alarm = (true, true)) :
    Minds id d (d.updateContext other f) := by
  refine .of_alarm (Nat.le_of_eq (d.size_updateContext other f).symm) (Nat.le_refl _) fun known => ?_
  by_cases same : id = other
  · subst same
    rw [d.context_updateContext_self f known]
    exact hf rfl
  · rw [d.context_updateContext_ne f same]
    exact .inl rfl

/-! ## Tracking -/

theorem minds_newContext (d : Debugger) (thread : Thread) : Minds id d (d.newContext thread).2 :=
  have opens := d.opens_newContext thread
  .of_alarm opens.size (Nat.le_refl _) fun known => .inl (congrArg Context.alarm (opens.old id known))

theorem minds_track (d : Debugger) (session : Session) (thread : Thread) :
    Minds id d (d.track session thread).2 := by
  simp only [track]
  split
  · exact .of_contexts rfl (Nat.le_refl _)
  · exact (d.minds_newContext thread).trans (.of_contexts rfl (Nat.le_refl _))

theorem minds_entriesFor (d : Debugger) (table : ThreadTable) (threads : List Thread) :
    Minds id d (d.entriesFor table threads).2 := by
  induction threads generalizing d with
  | nil => exact .refl id d
  | cons thread threads ih =>
      simp only [entriesFor]
      split
      · exact ih d
      · exact (d.minds_newContext thread).trans (ih _)

theorem minds_rebuild (d : Debugger) (session : Session) : Minds id d (d.rebuild session).2 :=
  (d.minds_entriesFor session.table d.host.liveThreads).trans (.of_contexts rfl (Nat.le_refl _))

theorem minds_liveContexts {ids : List ContextId} (h : d.liveContexts = .ok (ids, d')) : Minds id d d' := by
  obtain ⟨session, _, built⟩ := except_bind_eq_ok h
  cases built
  exact d.minds_rebuild session

theorem minds_threadContext {thread : Thread} {found : ContextId}
    (h : d.threadContext thread = .ok (found, d')) : Minds id d d' := by
  obtain ⟨session, _, tracked⟩ := except_bind_eq_ok h
  split at tracked
  · have minds : Minds id d _ := d.minds_track session thread
    rw [Except.ok.inj tracked] at minds
    exact minds
  · cases tracked

theorem minds_currentThread (d : Debugger) (system : Nat) : Minds id d (d.currentThread system).2 :=
  .of_contexts rfl (Nat.le_refl _)

theorem minds_currentContext (d : Debugger) (system : Nat) : Minds id d (d.currentContext system).2 := by
  have current : Minds id d (d.currentThread system).2 := d.minds_currentThread system
  simp only [currentContext]
  split
  · next found => exact current.trans (minds_threadContext found)
  · exact current

theorem minds_arrive (d : Debugger) (system : Nat) (event : Event) : Minds id d (d.arrive system event).2 := by
  simp only [arrive]
  split
  · have counted : Minds id d { (d.currentThread system).2 with eventCount := d.eventCount + 1 } :=
      .of_contexts rfl (Nat.le_refl _)
    split
    · exact counted
    · split
      · exact counted
      · next session _ =>
          have tracked := counted.trans (minds_track { (d.currentThread system).2 with
            eventCount := d.eventCount + 1 } session (d.currentThread system).1)
          split <;> exact tracked
  · exact .refl id d

/-! ## The ticket -/

theorem minds_letIn (d : Debugger) (session : Session) (own : ContextId) :
    Minds id d (d.letIn session own).2 := by
  simp only [letIn]
  split
  · next suspended =>
      have handed : Minds id d { d with session := some session.handOver }.wakeUp :=
        .of_contexts rfl (Nat.le_succ _)
      apply handed.trans
      apply minds_updateContext
      rintro rfl
      exact .inr (Prod.ext suspended rfl)
  · exact .of_contexts rfl (Nat.le_refl _)

theorem minds_contend (d : Debugger) (thread : Thread) (own : ContextId) (granted : Bool) :
    Minds id d (d.contend thread own granted).2 := by
  simp only [contend]
  split
  · exact .refl id d
  · split
    · exact d.minds_letIn _ own
    · split
      · split
        · exact d.minds_letIn _ own
        · exact .refl id d
      · exact .of_contexts rfl (Nat.le_refl _)

theorem alarm_of_parked {thread : Thread} {granted : Bool}
    (parks : d.contend thread id granted = (.wait .parked, d')) (known : id < d.contexts.size) :
    (d'.context id).alarm = (true, true) := by
  obtain ⟨session, letIn⟩ := letIn_of_contend parks (by decide) (by decide)
  simp only [Debugger.letIn] at letIn
  split at letIn
  · next suspended =>
      cases letIn
      have known' : id < { d with session := some session.handOver }.wakeUp.contexts.size := known
      rw [context_updateContext_self _ _ known']
      exact Prod.ext suspended rfl
  · cases letIn

theorem minds_release (d : Debugger) : Minds id d d.release := by
  simp only [release, pruneWhenDue]
  split
  · exact .of_contexts rfl (Nat.le_succ _)
  · split <;> exact .of_contexts rfl (Nat.le_succ _)

/-! ## Suspension -/

theorem minds_suspendContext (d : Debugger) (other : ContextId)
    (awake : other = id → d.host.status (d.context id).thread ≠ .sleeping) :
    Minds id d (d.suspendContext other) := by
  apply minds_updateContext
  rintro rfl
  exact Context.alarm_suspend (awake rfl) _

theorem minds_suspend {other : ContextId} (h : d.suspend other = .ok d')
    (awake : other = id → d.host.status (d.context id).thread ≠ .sleeping) : Minds id d d' := by
  obtain ⟨_, _, suspended⟩ := except_bind_eq_ok h
  split at suspended
  · cases suspended
  · cases suspended
    exact d.minds_suspendContext other awake

theorem minds_resume {other : ContextId} (h : d.resume other = .ok d') : Minds id d d' := by
  obtain ⟨_, _, resumed⟩ := except_bind_eq_ok h
  simp only at resumed
  split at resumed
  · next suspended =>
      cases resumed
      have size : d.contexts.size = (d.updateContext other Context.resume).contexts.size :=
        (d.size_updateContext other _).symm
      by_cases same : id = other
      · subst same
        refine ⟨?_, fun known seen rouses => ?_⟩
        · split <;> exact Nat.le_of_eq size
        · have cleared : ((d.updateContext id Context.resume).context id).suspended = false :=
            congrArg Context.suspended (d.context_updateContext_self Context.resume known)
          cases rouses with
          | suspended is marked bound =>
              -- The mark is what makes the resume signal a wake-up.
              rw [if_pos marked]
              exact .woken cleared (Nat.lt_succ_of_le bound)
          | woken resumed since => cases resumed.symm.trans suspended
      · have alarm : ((d.updateContext other Context.resume).context id).alarm = (d.context id).alarm := by
          rw [d.context_updateContext_ne _ same]
        split
        · exact .of_alarm (Nat.le_of_eq size) (Nat.le_succ _) fun _ => .inl alarm
        · exact .of_alarm (Nat.le_of_eq size) (Nat.le_refl _) fun _ => .inl alarm
  · cases resumed

theorem minds_otherContexts {ids : List ContextId} (h : d.otherContexts system = .ok (ids, d')) :
    Minds id d d' := by
  obtain ⟨session, _, others⟩ := except_bind_eq_ok h
  cases others
  exact (d.minds_currentThread system).trans (minds_rebuild _ session)

theorem thread_suspendContext (d : Debugger) (other id : ContextId) :
    ((d.suspendContext other).context id).thread = (d.context id).thread := by
  have core := d.core_updateContext other id _ (core_suspend (d.host.status (d.context other).thread))
  exact congrArg (·.1) core

theorem minds_suspendContexts (d : Debugger) (ids : List ContextId)
    (awake : d.host.status (d.context id).thread ≠ .sleeping) : Minds id d (ids.foldl suspendContext d) := by
  induction ids generalizing d with
  | nil => exact .refl id d
  | cons other ids ih =>
      apply (d.minds_suspendContext other fun _ => awake).trans
      apply ih
      rw [thread_suspendContext]
      exact awake

theorem minds_suspendAll (h : d.suspendAll system = .ok d') (known : id < d.contexts.size)
    (awake : d.host.status (d.context id).thread ≠ .sleeping) : Minds id d d' := by
  obtain ⟨⟨ids, d₁⟩, others, suspended⟩ := except_bind_eq_ok h
  cases suspended
  have tends : Tends system d d₁ := tends_otherContexts others
  have thread : (d₁.context id).thread = (d.context id).thread :=
    congrArg (·.1) (tends.tracks.core id known)
  apply (minds_otherContexts others).trans
  apply minds_suspendContexts
  rw [thread]
  exact tends.host.awake awake

theorem resumeContexts_eq (d : Debugger) (ids : List ContextId) :
    ∃ contexts : Array Context, contexts.size = d.contexts.size ∧
      ids.foldl (fun d id => d.updateContext id Context.resume) d = { d with contexts } := by
  induction ids generalizing d with
  | nil => exact ⟨d.contexts, rfl, rfl⟩
  | cons other ids ih =>
      obtain ⟨contexts, size, eq⟩ := ih (d.updateContext other Context.resume)
      exact ⟨contexts, size.trans (d.size_updateContext other _), eq⟩

theorem context_resumeContexts (d : Debugger) (ids : List ContextId) (known : id < d.contexts.size) :
    (ids.foldl (fun d id => d.updateContext id Context.resume) d).context id =
      if id ∈ ids then (d.context id).resume else d.context id := by
  induction ids generalizing d with
  | nil => rfl
  | cons other ids ih =>
      have size := d.size_updateContext other Context.resume
      rw [List.foldl_cons, ih _ (size ▸ known)]
      by_cases same : id = other
      · subst same
        rw [d.context_updateContext_self _ known, if_pos List.mem_cons_self]
        split <;> rfl
      · rw [d.context_updateContext_ne _ same]
        simp only [List.mem_cons, same, false_or]

theorem minds_resumeAll (h : d.resumeAll system = .ok d') : Minds id d d' := by
  obtain ⟨⟨ids, d₁⟩, others, resumed⟩ := except_bind_eq_ok h
  cases resumed
  apply (minds_otherContexts others).trans
  obtain ⟨contexts, size, eq⟩ := d₁.resumeContexts_eq ids
  have context (known : id < d₁.contexts.size) : ({ d₁ with contexts } : Debugger).context id =
      if id ∈ ids then (d₁.context id).resume else d₁.context id := by
    rw [← eq, d₁.context_resumeContexts ids known]
  rw [eq]
  have later : d₁.wakeups ≤
      (if ids.any fun id => (d₁.context id).suspended && (d₁.context id).wasRunning then
        ({ d₁ with contexts } : Debugger).wakeUp else { d₁ with contexts }).wakeups := by
    split
    · exact Nat.le_succ _
    · exact Nat.le_refl _
  by_cases member : id ∈ ids
  · refine ⟨?_, fun known seen rouses => ?_⟩
    · split <;> exact Nat.le_of_eq size.symm
    · have resumed := congrArg Context.suspended ((context known).trans (if_pos member))
      cases rouses with
      | suspended is marked bound =>
          have wakes : ids.any fun id => (d₁.context id).suspended && (d₁.context id).wasRunning :=
            List.any_eq_true.mpr ⟨id, member, by rw [is, marked]; rfl⟩
          rw [if_pos wakes]
          exact .woken resumed (Nat.lt_succ_of_le bound)
      | woken _ since =>
          refine .woken ?_ (Nat.lt_of_lt_of_le since later)
          split <;> exact resumed
  · refine .of_alarm ?_ later fun known => .inl ?_
    · split <;> exact Nat.le_of_eq size.symm
    · have same := congrArg Context.alarm ((context known).trans (if_neg member))
      split <;> exact same

/-! ## Commands -/

theorem minds_command {other : ContextId} {f : Context → Except Error Context}
    (hf : ∀ {context context'}, f context = .ok context' → context'.alarm = context.alarm)
    (h : d.command other f = .ok d') : Minds id d d' := by
  obtain ⟨context, found, changed⟩ := except_bind_eq_ok h
  cases changed
  simp only [inspect] at found
  split at found
  · apply minds_updateContext
    rintro rfl
    exact .inl (hf found)
  · cases found

theorem alarm_stepping {f : Context → Except Error Context}
    (hf : ∀ {P : Context → Prop}, Unstepped P → Arming f P) {context context' : Context}
    (h : f context = .ok context') : context'.alarm = context.alarm :=
  hf (P := fun later => later.alarm = context.alarm) (fun same _ _ _ _ _ _ => same) h rfl

theorem alarm_interrupt {context context' : Context} (h : context.interrupt = .ok context') :
    context'.alarm = context.alarm := alarm_stepping interrupt_keeps h

theorem minds_interrupt (d : Debugger) (system : Nat) : Minds id d (d.interrupt system).2 := by
  have current : Minds id d (d.currentContext system).2 := d.minds_currentContext system
  simp only [interrupt]
  split
  · next found => simpa only [found] using current
  · next found =>
      rw [found] at current
      split
      · next commanded => exact current.trans (minds_command alarm_interrupt commanded)
      · exact current

theorem minds_interruptLast {last : Option ContextId} (h : d.interruptLast = .ok (last, d')) :
    Minds id d d' := by
  obtain ⟨halted, _, found⟩ := except_bind_eq_ok h
  split at found
  · cases found
    exact .refl id d
  · split at found
    · obtain ⟨d'', commanded, same⟩ := except_bind_eq_ok found
      cases same
      exact minds_command alarm_interrupt commanded
    · cases found
      exact .refl id d

theorem minds_setTemporary {other : ContextId} {source : String} {target : BreakpointTarget}
    {guard : Option String} {bp : Breakpoint} (h : d.setTemporary other source target guard = .ok (bp, d')) :
    Minds id d d' := by
  obtain ⟨d'', commanded, same⟩ := except_bind_eq_ok h
  cases same
  refine minds_command (fun changed => ?_) commanded
  cases changed
  rfl

theorem minds_clearTemporary {other : ContextId} {bp : Option Breakpoint}
    (h : d.clearTemporary other = .ok (bp, d')) : Minds id d d' := by
  obtain ⟨_, _, cleared⟩ := except_bind_eq_ok h
  obtain ⟨d'', commanded, same⟩ := except_bind_eq_ok cleared
  cases same
  refine minds_command (fun changed => ?_) commanded
  cases changed
  rfl

/-! ## Activation, breakpoints and settings -/

theorem minds_start (d : Debugger) : Minds id d d.start.2 := by
  simp only [start]
  split <;> exact .of_contexts rfl (Nat.le_refl _)

theorem minds_stop {ended : Bool} (h : d.stop = .ok (ended, d')) : Minds id d d' := by
  obtain ⟨_, _, stopped⟩ := except_bind_eq_ok h
  simp only at stopped
  split at stopped <;> cases stopped
  · exact .of_contexts rfl (Nat.le_refl _)
  · exact .of_contexts rfl (Nat.le_succ _)

theorem minds_forceStop (d : Debugger) : Minds id d d.forceStop := by
  simp only [forceStop]
  split
  · exact .of_contexts rfl (Nat.le_succ _)
  · exact .of_contexts rfl (Nat.le_refl _)

theorem minds_addBreakpoint {source : String} {target : BreakpointTarget} {guard : Option String}
    {bp : Breakpoint} (h : d.addBreakpoint source target guard = .ok (bp, d')) : Minds id d d' := by
  obtain ⟨_, _, added⟩ := except_bind_eq_ok h
  cases added
  exact .of_contexts rfl (Nat.le_refl _)

theorem minds_removeBreakpoint {number : Nat} {bp : Option Breakpoint}
    (h : d.removeBreakpoint number = .ok (bp, d')) : Minds id d d' := by
  obtain ⟨_, _, removed⟩ := except_bind_eq_ok h
  cases removed
  exact .of_contexts rfl (Nat.le_refl _)

theorem minds_setCatchpoint {className : Option String} (h : d.setCatchpoint className = .ok d') :
    Minds id d d' := by
  obtain ⟨_, _, changed⟩ := except_bind_eq_ok h
  cases changed
  exact .of_contexts rfl (Nat.le_refl _)

theorem minds_setPostMortem {on : Bool} (h : d.setPostMortem on = .ok d') : Minds id d d' := by
  obtain ⟨_, _, changed⟩ := except_bind_eq_ok h
  cases changed
  exact .of_contexts rfl (Nat.le_refl _)

/-! ## Events and post-mortems -/

theorem Touches.minds {own : ContextId} (h : Touches system own d d') : Minds id d d' := by
  refine .of_alarm h.size (Nat.le_of_eq (congrArg Debugger.wakeups h.rest).symm) fun known => .inl ?_
  have traits := h.traits id known
  simp only [Context.traits, Prod.mk.injEq] at traits
  obtain ⟨-, -, suspended, -, -, -, -, wasRunning, -⟩ := traits
  exact Prod.ext suspended wasRunning

theorem minds_dispatch (d : Debugger) (system : Nat) (own : ContextId) (event : Event) :
    Minds id d (d.dispatch system own event).2 := by
  cases exits : event.isExit with
  | false => exact (d.touches_dispatch system own event exits).minds
  | true =>
      obtain ⟨d', touched, same | ended⟩ := d.dispatch_exit system own event exits
      · rw [same]
        exact touched.minds
      · rw [ended]
        exact touched.minds.trans d'.minds_forceStop

theorem minds_enterPostMortem (d : Debugger) (system : Nat) (known : id < d.contexts.size)
    (awake : d.host.status (d.context id).thread ≠ .sleeping) : Minds id d (d.enterPostMortem system).2 := by
  have current : Minds id d (d.currentContext system).2 := d.minds_currentContext system
  have tends := d.tends_currentContext system
  simp only [enterPostMortem]
  split
  · next found => simpa only [found] using current
  · next own d₁ found =>
      rw [found] at current tends
      split
      · exact current
      · next d₂ suspended =>
          have thread : (d₁.context id).thread = (d.context id).thread :=
            congrArg (·.1) (tends.tracks.core id known)
          have awake' : d₁.host.status (d₁.context id).thread ≠ .sleeping := by
            rw [thread]
            exact tends.host.awake awake
          have known' := Nat.lt_of_lt_of_le known current.size
          have all := current.trans (minds_suspendAll suspended known' awake')
          have turnedOff : Minds id d₂ { d₂ with settings := { d₂.settings with tracing := false } } :=
            .of_contexts rfl (Nat.le_refl _)
          exact (all.trans turnedOff).trans (minds_updateContext _ _ _ fun _ => .inl rfl)

theorem minds_leavePostMortem (d : Debugger) (system : Nat) (before : ContextId × Bool × Bool) :
    Minds id d (d.leavePostMortem system before).2 := by
  have restored : Minds id d { d with settings := { d.settings with tracing := before.2.1 } } :=
    .of_contexts rfl (Nat.le_refl _)
  simp only [leavePostMortem]
  split
  · exact restored
  · next commanded =>
      have commanded := restored.trans (minds_command (fun changed => by
        cases changed
        rfl) commanded)
      split
      · exact commanded
      · next resumed => exact commanded.trans (minds_resumeAll resumed)

theorem minds_prepareLoad (d : Debugger) (system : Nat) (stop : Bool) :
    Minds id d (d.prepareLoad system stop).2 := by
  have current : Minds id d (d.currentContext system).2 := d.minds_currentContext system
  simp only [prepareLoad]
  split
  · next found => simpa only [found] using current
  · next own d₁ found =>
      rw [found] at current
      have emptied := current.trans
        (d₁.minds_updateContext own (fun context => { context with stack := [] }) fun _ => .inl rfl)
      split
      · split
        · exact emptied
        · next commanded => exact emptied.trans (minds_command alarm_interrupt commanded)
      · exact emptied

end Debugger

end EventDebugger
