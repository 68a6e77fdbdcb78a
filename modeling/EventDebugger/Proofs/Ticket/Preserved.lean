import EventDebugger.Proofs.Ticket.System

/-!
# Properties of contexts that only events and steps change

Whatever threads and front-ends do apart from the dispatch of events, they change of a context no more than
whether it is suspended or traced, its temporary breakpoint, and on a command the steps that are armed.
A property that does not depend on these is kept, and holds of a new context if it holds of one. One that
depends on the steps, or on the temporary breakpoint, is kept as long as no command is about these.

* `Request.preserves`: the requests of a front-end.
* `World.Step.preserves_tolerant`: every step but the dispatch of an event.
-/

namespace EventDebugger

/-- A property that does not depend on whether a context is suspended or traced, and that does not tell new
contexts apart. -/
structure Tolerant (P : Context → Prop) : Prop where
  adjust : ∀ {context}, P context → ∀ suspended tracing wasRunning,
    P { context with suspended, tracing, wasRunning }
  initial : ∀ {thread number ignored} thread' number' ignored', P (.initial thread number ignored) →
    P (.initial thread' number' ignored')

def Untemporary (P : Context → Prop) : Prop :=
  ∀ {context}, P context → ∀ temporary temporaryCount, P { context with temporary, temporaryCount }

/-- A property that does not depend on whether a context is suspended or traced, nor on its temporary
breakpoint, and that does not tell new contexts apart. -/
structure Neutral (P : Context → Prop) : Prop where
  adjust : ∀ {context}, P context → ∀ suspended tracing wasRunning temporary temporaryCount,
    P { context with suspended, tracing, wasRunning, temporary, temporaryCount }
  initial : ∀ {thread number ignored} thread' number' ignored', P (.initial thread number ignored) →
    P (.initial thread' number' ignored')

theorem Neutral.tolerant {P : Context → Prop} (neutral : Neutral P) : Tolerant P :=
  ⟨fun {context} h suspended tracing wasRunning =>
    neutral.adjust h suspended tracing wasRunning context.temporary context.temporaryCount, neutral.initial⟩

theorem Neutral.untemporary {P : Context → Prop} (neutral : Neutral P) : Untemporary P :=
  fun {context} h => neutral.adjust h context.suspended context.tracing context.wasRunning

def Unstepped (P : Context → Prop) : Prop :=
  ∀ {context}, P context → ∀ stopNext stopLine stepped forced targetDepth finishDepth,
    P { context with stopNext, stopLine, stepped, forced, targetDepth, finishDepth }

def Arming (f : Context → Except Error Context) (P : Context → Prop) : Prop :=
  ∀ ⦃context context'⦄, f context = .ok context' → P context → P context'

namespace Debugger

def Preserves (P : Context → Prop) (id : ContextId) (d d' : Debugger) : Prop :=
  P (d.context id) → P (d'.context id)

instance (P : Context → Prop) (id : ContextId) : IsPreorder Debugger (Preserves P id) where
  refl _ := fun h => h
  trans _ _ _ first second := fun h => second (first h)

/-! ## Operations that leave the contexts alone -/

theorem contexts_start (d : Debugger) : d.start.2.contexts = d.contexts := by
  simp only [start]
  split <;> rfl

theorem contexts_stop {d d' : Debugger} {ended : Bool} (h : d.stop = .ok (ended, d')) :
    d'.contexts = d.contexts := by
  obtain ⟨_, _, stopped⟩ := except_bind_eq_ok h
  simp only at stopped
  split at stopped <;> cases stopped <;> rfl

theorem contexts_forceStop (d : Debugger) : d.forceStop.contexts = d.contexts := by
  simp only [forceStop]
  split <;> rfl

theorem contexts_addBreakpoint {d d' : Debugger} {source : String} {target : BreakpointTarget}
    {guard : Option String} {bp : Breakpoint} (h : d.addBreakpoint source target guard = .ok (bp, d')) :
    d'.contexts = d.contexts := by
  obtain ⟨_, _, added⟩ := except_bind_eq_ok h
  cases added
  rfl

theorem contexts_removeBreakpoint {d d' : Debugger} {id : Nat} {bp : Option Breakpoint}
    (h : d.removeBreakpoint id = .ok (bp, d')) : d'.contexts = d.contexts := by
  obtain ⟨_, _, removed⟩ := except_bind_eq_ok h
  cases removed
  rfl

theorem contexts_setCatchpoint {d d' : Debugger} {className : Option String}
    (h : d.setCatchpoint className = .ok d') : d'.contexts = d.contexts := by
  obtain ⟨_, _, changed⟩ := except_bind_eq_ok h
  cases changed
  rfl

theorem contexts_setPostMortem {d d' : Debugger} {on : Bool} (h : d.setPostMortem on = .ok d') :
    d'.contexts = d.contexts := by
  obtain ⟨_, _, changed⟩ := except_bind_eq_ok h
  cases changed
  rfl

variable {P : Context → Prop} {id : ContextId}

theorem Preserves.trans {d d' d'' : Debugger} (first : Preserves P id d d')
    (second : Preserves P id d' d'') : Preserves P id d d'' := fun h => second (first h)

theorem Preserves.of_contexts {d d' : Debugger} (same : d'.contexts = d.contexts) :
    Preserves P id d d' := by
  intro h
  rw [context, same]
  exact h

theorem preserves_updateContext (d : Debugger) (other : ContextId) {f : Context → Context}
    (hf : ∀ {context}, P context → P (f context)) : Preserves P id d (d.updateContext other f) := by
  intro h
  by_cases same : id = other
  · subst same
    by_cases known : id < d.contexts.size
    · rw [d.context_updateContext_self f known]
      exact hf h
    · rw [d.updateContext_unknown f (Nat.le_of_not_lt known)]
      exact h
  · rw [d.context_updateContext_ne f same]
    exact h

theorem context_unknown {d : Debugger} (unknown : d.contexts.size ≤ id) :
    d.context id = .initial default 0 false := by
  rw [context, Array.getD_eq_getD_getElem?, Array.getElem?_eq_none unknown, Option.getD_none]

theorem preserves_addContext (d : Debugger) {context : Context}
    (new : P (.initial default 0 false) → P context) : Preserves P id d (d.addContext context).2 := by
  intro h
  rcases Nat.lt_trichotomy id d.contexts.size with known | rfl | unknown
  · rw [d.context_addContext context known]
    exact h
  · rw [context_unknown (Nat.le_refl _)] at h
    rw [d.context_addContext_new]
    exact new h
  · have size : (d.addContext context).2.contexts.size = d.contexts.size + 1 := Array.size_push _
    rw [context_unknown (Nat.le_of_lt unknown)] at h
    rw [context_unknown (size ▸ unknown)]
    exact h

variable (tolerant : Tolerant P)

include tolerant

/-! ## Tracking -/

theorem preserves_newContext (d : Debugger) (thread : Thread) :
    Preserves P id d (d.newContext thread).2 :=
  preserves_addContext { d with contextCount := d.contextCount + 1 } (tolerant.initial _ _ _)

theorem preserves_track (d : Debugger) (session : Session) (thread : Thread) :
    Preserves P id d (d.track session thread).2 := by
  simp only [track]
  split
  · exact .of_contexts rfl
  · exact preserves_newContext tolerant d thread

theorem preserves_entriesFor (d : Debugger) (table : ThreadTable) (threads : List Thread) :
    Preserves P id d (d.entriesFor table threads).2 := by
  induction threads generalizing d with
  | nil => exact refl_of _ d
  | cons thread threads ih =>
      simp only [entriesFor]
      split
      · exact ih d
      · exact (preserves_newContext tolerant d thread).trans (ih _)

theorem preserves_rebuild (d : Debugger) (session : Session) : Preserves P id d (d.rebuild session).2 :=
  (preserves_entriesFor tolerant d session.table d.host.liveThreads).trans (.of_contexts rfl)

theorem preserves_liveContexts {d d' : Debugger} {ids : List ContextId}
    (h : d.liveContexts = .ok (ids, d')) : Preserves P id d d' := by
  obtain ⟨session, _, built⟩ := except_bind_eq_ok h
  cases built
  exact preserves_rebuild tolerant d session

theorem preserves_threadContext {d d' : Debugger} {thread : Thread} {found : ContextId}
    (h : d.threadContext thread = .ok (found, d')) : Preserves P id d d' := by
  obtain ⟨session, _, tracked⟩ := except_bind_eq_ok h
  split at tracked
  · have kept : Preserves P id d _ := preserves_track tolerant d session thread
    rw [Except.ok.inj tracked] at kept
    exact kept
  · cases tracked

theorem preserves_currentContext (d : Debugger) (system : Nat) :
    Preserves P id d (d.currentContext system).2 := by
  have current : Preserves P id d (d.currentThread system).2 := .of_contexts rfl
  simp only [currentContext]
  split
  · next found => exact current.trans (preserves_threadContext tolerant found)
  · exact current

theorem preserves_arrive (d : Debugger) (system : Nat) (event : Event) :
    Preserves P id d (d.arrive system event).2 := by
  simp only [arrive]
  split
  · have counted : Preserves P id d { (d.currentThread system).2 with eventCount := d.eventCount + 1 } :=
      .of_contexts rfl
    split
    · exact counted
    · split
      · exact counted
      · next session _ =>
          have tracked := counted.trans (preserves_track tolerant
            { (d.currentThread system).2 with eventCount := d.eventCount + 1 } session
            (d.currentThread system).1)
          split <;> exact tracked
  · exact refl_of _ d

/-! ## The ticket -/

theorem preserves_contend (d : Debugger) (thread : Thread) (own : ContextId) (granted : Bool) :
    Preserves P id d (d.contend thread own granted).2 := by
  have letIn (session : Session) : Preserves P id d (d.letIn session own).2 := by
    simp only [Debugger.letIn]
    split
    · have handed : Preserves P id d { d with session := some session.handOver }.wakeUp :=
        .of_contexts rfl
      exact handed.trans (preserves_updateContext _ own fun h => tolerant.adjust h _ _ true)
    · exact .of_contexts rfl
  simp only [contend]
  split
  · exact refl_of _ d
  · split
    · exact letIn _
    · split
      · split
        · exact letIn _
        · exact refl_of _ d
      · exact .of_contexts rfl

omit tolerant in
theorem preserves_release (d : Debugger) : Preserves P id d d.release := by
  simp only [release, pruneWhenDue]
  split
  · exact .of_contexts rfl
  · split <;> exact .of_contexts rfl

/-! ## Suspension -/

theorem preserves_suspendContext (d : Debugger) (other : ContextId) :
    Preserves P id d (d.suspendContext other) := by
  apply preserves_updateContext
  intro context h
  cases d.host.status (d.context other).thread with
  | running => exact tolerant.adjust h true _ true
  | sleeping => exact tolerant.adjust h true _ false
  | other => exact h

theorem preserves_resumeContext (d : Debugger) (other : ContextId) :
    Preserves P id d (d.updateContext other Context.resume) :=
  preserves_updateContext d other fun h => tolerant.adjust h false _ _

theorem preserves_suspend {d d' : Debugger} {other : ContextId} (h : d.suspend other = .ok d') :
    Preserves P id d d' := by
  obtain ⟨_, _, suspended⟩ := except_bind_eq_ok h
  split at suspended
  · cases suspended
  · cases suspended
    exact preserves_suspendContext tolerant d other

theorem preserves_resume {d d' : Debugger} {other : ContextId} (h : d.resume other = .ok d') :
    Preserves P id d d' := by
  obtain ⟨_, _, resumed⟩ := except_bind_eq_ok h
  have first : Preserves P id d _ := preserves_resumeContext tolerant d other
  simp only at resumed
  split at resumed
  · cases resumed
    split
    · exact first.trans (.of_contexts rfl)
    · exact first
  · cases resumed

theorem preserves_otherContexts {d d' : Debugger} {system : Nat} {ids : List ContextId}
    (h : d.otherContexts system = .ok (ids, d')) : Preserves P id d d' := by
  obtain ⟨session, _, others⟩ := except_bind_eq_ok h
  cases others
  have current : Preserves P id d (d.currentThread system).2 := .of_contexts rfl
  exact current.trans (preserves_rebuild tolerant _ session)

omit tolerant in
theorem preserves_foldl {α : Type} (f : Debugger → α → Debugger)
    (kept : ∀ d a, Preserves P id d (f d a)) (d : Debugger) (as : List α) :
    Preserves P id d (as.foldl f d) := by
  induction as generalizing d with
  | nil => exact refl_of _ d
  | cons a as ih => exact (kept d a).trans (ih (f d a))

theorem preserves_suspendAll {d d' : Debugger} {system : Nat} (h : d.suspendAll system = .ok d') :
    Preserves P id d d' := by
  obtain ⟨⟨ids, d₁⟩, others, suspended⟩ := except_bind_eq_ok h
  cases suspended
  exact (preserves_otherContexts tolerant others).trans
    (preserves_foldl suspendContext (preserves_suspendContext tolerant) d₁ ids)

theorem preserves_resumeAll {d d' : Debugger} {system : Nat} (h : d.resumeAll system = .ok d') :
    Preserves P id d d' := by
  obtain ⟨⟨ids, d₁⟩, others, resumed⟩ := except_bind_eq_ok h
  have all : Preserves P id d _ := (preserves_otherContexts tolerant others).trans (preserves_foldl
    (fun d id => d.updateContext id Context.resume) (preserves_resumeContext tolerant) d₁ ids)
  cases resumed
  split
  · exact all.trans (.of_contexts rfl)
  · exact all

/-! ## Commands of contexts -/

omit tolerant in
theorem preserves_command {d d' : Debugger} {other : ContextId} {f : Context → Except Error Context}
    (hf : ∀ {context context'}, f context = .ok context' → P context → P context')
    (h : d.command other f = .ok d') : Preserves P id d d' := by
  obtain ⟨context, found, changed⟩ := except_bind_eq_ok h
  cases changed
  simp only [inspect] at found
  split at found
  · intro holds
    by_cases same : id = other
    · subst same
      by_cases known : id < d.contexts.size
      · rw [d.context_updateContext_self _ known]
        exact hf found holds
      · rw [d.updateContext_unknown _ (Nat.le_of_not_lt known)]
        exact holds
    · rw [d.context_updateContext_ne _ same]
      exact holds
  · cases found

omit tolerant in
theorem preserves_command_ne {d d' : Debugger} {other : ContextId} {f : Context → Except Error Context}
    (ne : id ≠ other) (h : d.command other f = .ok d') : Preserves P id d d' := by
  obtain ⟨context, _, changed⟩ := except_bind_eq_ok h
  cases changed
  intro holds
  rw [d.context_updateContext_ne _ ne]
  exact holds

omit tolerant in
theorem preserves_temporary {d d' : Debugger} {other : ContextId} {temporary : Option Breakpoint}
    {count : Context → Nat} (loose : Untemporary P ∨ other ≠ id)
    (h : (d.command other fun context => .ok { context with temporary, temporaryCount := count context }) = .ok d') :
    Preserves P id d d' := by
  rcases loose with untemporary | ne
  · refine preserves_command (fun changed holds => ?_) h
    cases changed
    exact untemporary holds _ _
  · exact preserves_command_ne ne.symm h

omit tolerant in
theorem preserves_setTemporary {d d' : Debugger} {other : ContextId} {source : String}
    {target : BreakpointTarget} {guard : Option String} {bp : Breakpoint} (loose : Untemporary P ∨ other ≠ id)
    (h : d.setTemporary other source target guard = .ok (bp, d')) : Preserves P id d d' := by
  obtain ⟨d'', commanded, same⟩ := except_bind_eq_ok h
  cases same
  exact preserves_temporary loose commanded

omit tolerant in
theorem preserves_clearTemporary {d d' : Debugger} {other : ContextId} {bp : Option Breakpoint}
    (loose : Untemporary P ∨ other ≠ id) (h : d.clearTemporary other = .ok (bp, d')) : Preserves P id d d' := by
  obtain ⟨_, _, cleared⟩ := except_bind_eq_ok h
  obtain ⟨d'', commanded, same⟩ := except_bind_eq_ok cleared
  cases same
  exact preserves_temporary loose commanded

/-! ## Steps -/

omit tolerant in
theorem step_keeps (unstepped : Unstepped P) {n : Int} {force : Bool} : Arming (·.step n force) P := by
  intro context context' h holds
  obtain ⟨_, _, stepped⟩ := except_bind_eq_ok h
  cases stepped
  exact unstepped holds _ _ _ _ _ _

omit tolerant in
theorem interrupt_keeps (unstepped : Unstepped P) : Arming Context.interrupt P := fun _ _ h =>
  step_keeps unstepped h

omit tolerant in
theorem stepOver_keeps (unstepped : Unstepped P) {n : Int} {frame : Option Int} {force : Bool} :
    Arming (·.stepOver n frame force) P := by
  intro context context' h holds
  obtain ⟨_, _, h⟩ := except_bind_eq_ok h
  simp only at h
  split at h
  · cases h
  · split at h
    · obtain ⟨_, _, stepped⟩ := except_bind_eq_ok h
      cases stepped
      exact unstepped holds _ _ _ _ _ _
    · cases h
      exact unstepped holds _ _ _ _ _ _

omit tolerant in
theorem stopFrame_keeps (unstepped : Unstepped P) {index : Int} : Arming (·.stopFrame index) P := by
  intro context context' h holds
  obtain ⟨_, _, stopped⟩ := except_bind_eq_ok h
  cases stopped
  exact unstepped holds _ _ _ _ _ _

omit tolerant in
theorem preserves_stepping {d d' : Debugger} {other : ContextId} {f : Context → Except Error Context}
    (quiet : Arming f P ∨ other ≠ id) (h : d.command other f = .ok d') : Preserves P id d d' := by
  rcases quiet with keeps | ne
  · exact preserves_command (fun changed => keeps changed) h
  · exact preserves_command_ne ne.symm h

theorem preserves_interrupt (d : Debugger) (system : Nat)
    (quiet : Arming Context.interrupt P ∨ (d.currentContext system).1 ≠ .ok id) :
    Preserves P id d (d.interrupt system).2 := by
  have current : Preserves P id d (d.currentContext system).2 := preserves_currentContext tolerant d system
  simp only [interrupt]
  split
  · next found => simpa only [found] using current
  · next other d₁ found =>
      rw [found] at current quiet
      split
      · next commanded =>
          exact current.trans (preserves_stepping (quiet.imp_right fun ne same => ne (same ▸ rfl)) commanded)
      · exact current

omit tolerant in
theorem preserves_interruptLast {d d' : Debugger} {last : Option ContextId}
    (quiet : Arming Context.interrupt P ∨ d.lastContext ≠ .ok (some id))
    (h : d.interruptLast = .ok (last, d')) : Preserves P id d d' := by
  obtain ⟨halted, is, found⟩ := except_bind_eq_ok h
  rw [is] at quiet
  split at found
  · cases found
    exact refl_of _ d
  · split at found
    · obtain ⟨d'', commanded, same⟩ := except_bind_eq_ok found
      cases same
      exact preserves_stepping (quiet.imp_right fun ne same => ne (same ▸ rfl)) commanded
    · cases found
      exact refl_of _ d

/-! ## Post-mortems -/

theorem preserves_enterPostMortem (d : Debugger) (system : Nat) :
    Preserves P id d (d.enterPostMortem system).2 := by
  have current : Preserves P id d (d.currentContext system).2 := preserves_currentContext tolerant d system
  simp only [enterPostMortem]
  split
  · next found => simpa only [found] using current
  · next found =>
      rw [found] at current
      split
      · exact current
      · next d₁ suspended =>
          have all := current.trans (preserves_suspendAll tolerant suspended)
          have turnedOff : Preserves P id d₁ { d₁ with settings := { d₁.settings with tracing := false } } :=
            .of_contexts rfl
          exact (all.trans turnedOff).trans
            (preserves_updateContext _ _ fun h => tolerant.adjust h _ false _)

theorem preserves_leavePostMortem (d : Debugger) (system : Nat) (before : ContextId × Bool × Bool) :
    Preserves P id d (d.leavePostMortem system before).2 := by
  have restored : Preserves P id d { d with settings := { d.settings with tracing := before.2.1 } } :=
    .of_contexts rfl
  simp only [leavePostMortem]
  split
  · exact restored
  · next commanded =>
      have commanded := restored.trans (preserves_command (fun changed holds => by
        cases changed
        exact tolerant.adjust holds _ before.2.2 _) commanded)
      split
      · exact commanded
      · next resumed => exact commanded.trans (preserves_resumeAll tolerant resumed)

end Debugger

/-! ## Requests -/

/-- Whether a command of a context is about the steps that are armed. -/
def Script.ContextCommand.isStepping : Script.ContextCommand → Bool
  | .step .. | .stepOver .. | .stopFrame .. | .interrupt => true
  | _ => false

namespace Request

open Script Script.Attempt Debugger

def Resets (request : Request) (id : ContextId) : Prop :=
  match request with
  | .context other (.setTemporary ..) | .context other .clearTemporary => other = id
  | _ => False

/-- Whether a request arms steps of the context at an address. -/
def Steps (request : Request) (system : Nat) (d : Debugger) (id : ContextId) : Prop :=
  match request with
  | .context other command => other = id ∧ command.isStepping
  | .debugger .interrupt => (d.currentContext system).1 = .ok id
  | .debugger .interruptLast => d.lastContext = .ok (some id)
  | .debugger _ => False

def arming? (request : Request) : Option (Context → Except Error Context) :=
  match request with
  | .context _ (.step n force) => some (·.step n force)
  | .context _ (.stepOver n frame force) => some (·.stepOver n frame force)
  | .context _ (.stopFrame index) => some (·.stopFrame index)
  | .context _ .interrupt | .debugger .interrupt | .debugger .interruptLast => some Context.interrupt
  | _ => none

def Arms (request : Request) (P : Context → Prop) : Prop := ∀ f ∈ request.arming?, Arming f P

variable {P : Context → Prop} {id : ContextId}

theorem arms_of_unstepped (unstepped : Unstepped P) (request : Request) : request.Arms P := by
  intro f arms
  cases request with
  | debugger command =>
      cases command with
      | interrupt | interruptLast =>
          cases arms
          exact interrupt_keeps unstepped
      | _ => cases arms
  | context other command =>
      cases command with
      | step =>
          cases arms
          exact step_keeps unstepped
      | interrupt =>
          cases arms
          exact interrupt_keeps unstepped
      | stepOver =>
          cases arms
          exact stepOver_keeps unstepped
      | stopFrame =>
          cases arms
          exact stopFrame_keeps unstepped
      | _ => cases arms

variable (tolerant : Tolerant P)

include tolerant

theorem preserves_debuggerCommand (command : DebuggerCommand) (system : Nat) (d : Debugger)
    (quiet : (Request.debugger command).Arms P ∨ ¬ (Request.debugger command).Steps system d id) :
    Preserves P id d ((Request.debugger command).serve system d) := by
  -- whether steps are armed depends on the debugger, so only one run of the command is looked at
  have whole {x : Attempt Reply} (within : Within (Preserves P id) x) :
      Preserves P id d (x (d, .initial [])).2.1 := within d _
  cases command with
  | start =>
      refine whole (within_map (R := Preserves P id) (within_change fun {d _ _} changed => ?_) _)
      have same := d.contexts_start
      rw [Except.ok.inj changed] at same
      exact .of_contexts same
  | stop =>
      exact whole (within_map (R := Preserves P id)
        (within_change fun h => .of_contexts (contexts_stop h)) _)
  | forceStop =>
      refine whole (within_done (within_perform fun {d _} changed => ?_))
      cases changed
      exact .of_contexts d.contexts_forceStop
  | isStarted | settings => exact whole (within_bind within_debugger fun _ => within_pure _)
  | addBreakpoint =>
      exact whole (within_map (R := Preserves P id)
        (within_change fun h => .of_contexts (contexts_addBreakpoint h)) _)
  | removeBreakpoint =>
      exact whole (within_map (R := Preserves P id)
        (within_change fun h => .of_contexts (contexts_removeBreakpoint h)) _)
  | breakpoints | catchpoint => exact whole (within_map (within_query _) _)
  | setCatchpoint =>
      exact whole (within_done (within_perform fun h => .of_contexts (contexts_setCatchpoint h)))
  | setPostMortem =>
      exact whole (within_done (within_perform fun h => .of_contexts (contexts_setPostMortem h)))
  | setTracing | setKeepFrameBinding | setDebug =>
      refine whole (within_done (within_perform fun h => ?_))
      cases h
      exact .of_contexts rfl
  | contexts =>
      exact whole (within_bind (within_change (preserves_liveContexts tolerant)) fun _ =>
        within_bind within_debugger fun _ => within_pure _)
  | lastContext =>
      exact whole (within_bind (within_query _) fun _ =>
        within_bind within_debugger fun _ => within_pure _)
  | interrupt =>
      have quiet := quiet.imp_left fun arms => arms _ rfl
      exact related_bind (preserves_interrupt tolerant d system quiet) fun _ => within_pure _
  | interruptLast =>
      refine related_bind (R := Preserves P id) ?_ fun _ => within_bind within_debugger fun _ => within_pure _
      rw [debugger_change]
      split
      · next found => exact preserves_interruptLast (quiet.imp_left fun arms => arms _ rfl) found
      · exact refl_of _ d
  | suspendAll => exact whole (within_done (within_perform (preserves_suspendAll tolerant)))
  | resumeAll => exact whole (within_done (within_perform (preserves_resumeAll tolerant)))

theorem preserves_contextCommand (command : ContextCommand) (other : ContextId)
    (quiet : (Request.context other command).Arms P ∨ ¬ (other = id ∧ command.isStepping))
    (loose : Untemporary P ∨ ¬ (Request.context other command).Resets id) :
    Within (Preserves P id) (command.perform other) := by
  have stepping {f : Context → Except Error Context} (is : command.isStepping)
      (arms : f ∈ (Request.context other command).arming?) : Within (Preserves P id) (commandContext other f) :=
    within_done (within_perform (preserves_stepping (quiet.imp (fun keeps => keeps f arms) fun ne same =>
      ne ⟨same, is⟩)))
  cases command with
  | suspend => exact within_done (within_perform (preserves_suspend tolerant))
  | resume => exact within_done (within_perform (preserves_resume tolerant))
  | describe | summarize | frame | temporary => exact within_map (within_query _) _
  | evaluate =>
      refine within_bind within_debugger fun _ => ?_
      split
      · exact within_pure _
      · exact within_throw _
  | step | stepOver | stopFrame | interrupt => exact stepping rfl rfl
  | setTracing on =>
      refine within_done (within_perform (preserves_command fun changed holds => ?_))
      cases changed
      exact tolerant.adjust holds _ on _
  | setTemporary =>
      exact within_map (R := Preserves P id) (within_change (preserves_setTemporary loose)) _
  | clearTemporary =>
      exact within_map (R := Preserves P id) (within_change (preserves_clearTemporary loose)) _

theorem preserves_tolerant (request : Request) (system : Nat) (d : Debugger)
    (quiet : request.Arms P ∨ ¬ request.Steps system d id) (loose : Untemporary P ∨ ¬ request.Resets id) :
    Preserves P id d (request.serve system d) := by
  cases request with
  | debugger command => exact preserves_debuggerCommand tolerant command system d quiet
  | context other command => exact preserves_contextCommand tolerant command other quiet loose d _

end Request

/-! ## Threads -/

/-- Whether a step is part of the dispatch of an event. -/
def Move.isDispatch : Move → Bool
  | .dispatch | .answer => true
  | _ => false

/-- Steps that arm no steps of the context at an address. -/
def World.Continues (id : ContextId) (w : World) (s : Nat) (move : Move) : Prop :=
  ∀ request, move = .request request → ¬ request.Steps s w.debugger id

theorem World.Step.preserves_tolerant {P : Context → Prop} {id : ContextId} (tolerant : Tolerant P) {w w' : World}
    {s : Nat} {move : Move} (step : w.Step s move w') (other : move.isDispatch = false)
    (quiet : (∀ request, move = .request request → request.Arms P) ∨ w.Continues id s move)
    (loose : Untemporary P ∨ ∀ request, move = .request request → ¬ request.Resets id) :
    Debugger.Preserves P id w.debugger w'.debugger := by
  cases step with
  | arrive event free =>
      rw [World.debugger_arrive]
      exact Debugger.preserves_arrive tolerant w.debugger s event
  | ask tasks stage =>
      rw [World.debugger_contend]
      exact Debugger.preserves_contend tolerant w.debugger _ _ _
  | awake tasks stage awake =>
      rw [World.debugger_contend]
      exact Debugger.preserves_contend tolerant w.debugger _ _ _
  | dispatch tasks stage => cases other
  | answer tasks stage => cases other
  | fail tasks stage => exact fun holds => holds
  | release tasks stage => exact Debugger.preserves_release w.debugger
  | request request free =>
      exact request.preserves_tolerant tolerant s w.debugger
        (quiet.imp (fun arms => arms request rfl) fun quiet => quiet request rfl)
        (loose.imp_right fun loose => loose request rfl)
  | enterPostMortem free =>
      rw [World.debugger_inspect]
      exact Debugger.preserves_enterPostMortem tolerant w.debugger s
  | leavePostMortem tasks stage => exact Debugger.preserves_leavePostMortem tolerant w.debugger s _
  | execute | register | begin | exit => exact .of_contexts rfl

theorem World.Step.preserves {P : Context → Prop} {id : ContextId} (neutral : Neutral P) {w w' : World}
    {s : Nat} {move : Move} (step : w.Step s move w') (other : move.isDispatch = false)
    (quiet : Unstepped P ∨ w.Continues id s move) : Debugger.Preserves P id w.debugger w'.debugger :=
  step.preserves_tolerant neutral.tolerant other
    (quiet.imp_left fun unstepped request _ => request.arms_of_unstepped unstepped) (.inl neutral.untemporary)

end EventDebugger
