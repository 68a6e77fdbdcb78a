import EventDebugger.Proofs.Tracking
import EventDebugger.Script.Primitives
import Mathlib.Order.Defs.Unbundled

/-!
# What leaves the ticket alone

The ticket and its queue belong to the session. Apart from asking for the ticket, giving it back and
the activation of the debugger, nothing that the program, the debugger or its front-end does changes
them.

* `Touches.keeps`: the dispatch of an event.
* `tends_request`: the commands of a front-end.
-/

namespace EventDebugger

theorem except_bind_eq_ok {ε α β : Type} {x : Except ε α} {f : α → Except ε β} {b : β}
    (h : (x >>= f) = .ok b) : ∃ a, x = .ok a ∧ f a = .ok b := by
  cases x with
  | error e => cases h
  | ok a => exact ⟨a, rfl, h⟩

namespace Debugger

/-- The holder of the ticket and the threads that wait for it, while the debugger is active. -/
def ticket (d : Debugger) : Option (Option Thread × List Thread) :=
  d.session.map fun session => (session.holder, session.waiting)

structure Keeps (d d' : Debugger) : Prop where
  ticket : d'.ticket = d.ticket
  host : d.host.Grows d'.host

theorem Keeps.refl (d : Debugger) : Keeps d d := ⟨rfl, .refl _⟩

theorem Keeps.of_same {d d' : Debugger} (session : d'.session = d.session) (host : d'.host = d.host) :
    Keeps d d' := by
  refine ⟨by rw [Debugger.ticket, session, Debugger.ticket], ?_⟩
  rw [host]
  exact .refl _

theorem Touches.keeps {system : Nat} {id : ContextId} {d d' : Debugger} (h : Touches system id d d') :
    Keeps d d' := ⟨by rw [ticket, h.session, ticket], h.grows⟩

theorem activeSession_eq_ok {d : Debugger} {session : Session} (h : d.activeSession = .ok session) :
    d.session = some session := by
  simp only [activeSession] at h
  split at h
  · next active =>
      cases h
      exact active
  · cases h

/-- A later debugger after something else than the dispatch of an event and the exchange of the ticket,
on a system thread: the ticket, the contexts of the threads and their frames are the same. -/
structure Tends (system : Nat) (d d' : Debugger) : Prop where
  ticket : d'.ticket = d.ticket
  host : d.host.Met system d'.host
  tracks : Tracks d d'

namespace Tends

variable {system : Nat} {d d' d'' : Debugger}

theorem keeps (h : Tends system d d') : Keeps d d' := ⟨h.ticket, h.host.grows⟩

theorem refl (system : Nat) (d : Debugger) : Tends system d d := ⟨rfl, .refl _ _, .refl d⟩

theorem trans (first : Tends system d d') (second : Tends system d' d'') : Tends system d d'' :=
  ⟨second.ticket.trans first.ticket, first.host.trans second.host, first.tracks.trans second.tracks⟩

theorem of_same (session : d'.session = d.session) (host : d'.host = d.host)
    (contexts : d'.contexts = d.contexts)
    (blockHosts : d'.settings.blockHostTypes = d.settings.blockHostTypes) : Tends system d d' := by
  refine ⟨by rw [Debugger.ticket, session, Debugger.ticket], .inl host,
    .of_same (by rw [session]) (host ▸ .refl _) blockHosts (by rw [contexts]) fun id => ?_⟩
  rw [context, contexts, context]

theorem of_registry {session : Session} (active : d.session = some session) (registry : Registry) :
    Tends system d { d with session := some { session with registry } } :=
  ⟨by simp only [Debugger.ticket, active, Option.map_some], .refl _ _,
    .of_same (by rw [active]; rfl) (.refl _) rfl rfl fun _ => rfl⟩

instance : IsPreorder Debugger (Tends system) where
  refl := .refl system
  trans _ _ _ := .trans

end Tends

theorem tends_updateContext (system : Nat) (d : Debugger) (id : ContextId) (f : Context → Context)
    (hf : ∀ context, (f context).core = context.core) : Tends system d (d.updateContext id f) :=
  ⟨rfl, .refl _ _, d.tracks_updateContext id f hf⟩

/-! ## Tracking -/

variable {system : Nat}

theorem tends_currentThread (d : Debugger) (system : Nat) :
    Tends system d (d.currentThread system).2 := ⟨rfl, .inr rfl, d.tracks_currentThread system⟩

theorem ticket_track {d : Debugger} {session : Session} (active : d.session = some session)
    (thread : Thread) : (d.track session thread).2.ticket = d.ticket := by
  simp only [track]
  split <;> simp only [ticket, active, Option.map_some]

theorem host_track (d : Debugger) (session : Session) (thread : Thread) :
    (d.track session thread).2.host = d.host := by
  simp only [track]
  split <;> rfl

theorem tends_track {d : Debugger} {session : Session} (active : d.session = some session)
    (thread : Thread) : Tends system d (d.track session thread).2 :=
  ⟨ticket_track active thread, .inl (d.host_track session thread), tracks_track active thread⟩

theorem tends_rebuild {d : Debugger} {session : Session} (active : d.session = some session) :
    Tends system d (d.rebuild session).2 := by
  obtain ⟨opens, _⟩ := d.entriesFor_spec session.table d.host.liveThreads
  exact ⟨by simp only [rebuild, ticket, active, Option.map_some], .inl opens.host, tracks_rebuild active⟩

theorem tends_liveContexts {d d' : Debugger} {ids : List ContextId}
    (h : d.liveContexts = .ok (ids, d')) : Tends system d d' := by
  obtain ⟨session, active, built⟩ := except_bind_eq_ok h
  cases built
  exact tends_rebuild (activeSession_eq_ok active)

theorem tends_threadContext {d d' : Debugger} {thread : Thread} {id : ContextId}
    (h : d.threadContext thread = .ok (id, d')) : Tends system d d' := by
  obtain ⟨session, active, found⟩ := except_bind_eq_ok h
  split at found
  · have tracked : Tends system d _ := tends_track (activeSession_eq_ok active) thread
    rw [Except.ok.inj found] at tracked
    exact tracked
  · cases found

theorem tends_currentContext (d : Debugger) (system : Nat) :
    Tends system d (d.currentContext system).2 := by
  have current := d.tends_currentThread system
  simp only [currentContext]
  split
  · next found => exact current.trans (tends_threadContext found)
  · exact current

def CoreCommand (f : Context → Except Error Context) : Prop :=
  ∀ {context context'}, f context = .ok context' → context'.core = context.core

theorem tends_command {d d' : Debugger} {id : ContextId} {f : Context → Except Error Context}
    (hf : CoreCommand f) (h : d.command id f = .ok d') : Tends system d d' := by
  obtain ⟨context, found, changed⟩ := except_bind_eq_ok h
  cases changed
  simp only [inspect] at found
  split at found
  · have core := hf found
    refine ⟨rfl, .refl _ _, .of_same rfl (.refl _) rfl (d.size_updateContext id _) fun other => ?_⟩
    by_cases same : other = id
    · subst same
      by_cases known : other < d.contexts.size
      · rw [d.context_updateContext_self _ known, core]
      · rw [d.updateContext_unknown _ (Nat.le_of_not_lt known)]
    · rw [d.context_updateContext_ne _ same]
  · cases found

theorem core_step (n : Int) (force : Bool) : CoreCommand (·.step n force) := by
  intro context context' h
  obtain ⟨_, _, stepped⟩ := except_bind_eq_ok h
  cases stepped
  rfl

theorem core_interrupt : CoreCommand Context.interrupt := core_step 1 false

theorem core_stepOver (n : Int) (frame : Option Int) (force : Bool) :
    CoreCommand (·.stepOver n frame force) := by
  intro context context' h
  obtain ⟨_, _, h⟩ := except_bind_eq_ok h
  simp only at h
  split at h
  · cases h
  · split at h
    · obtain ⟨_, _, stepped⟩ := except_bind_eq_ok h
      cases stepped
      rfl
    · cases h
      rfl

theorem core_stopFrame (index : Int) : CoreCommand (·.stopFrame index) := by
  intro context context' h
  obtain ⟨_, _, stopped⟩ := except_bind_eq_ok h
  cases stopped
  rfl

theorem core_ok (f : Context → Context) (hf : ∀ context, (f context).core = context.core) :
    CoreCommand fun context => .ok (f context) := by
  intro context context' h
  cases h
  exact hf context

theorem tends_interrupt (d : Debugger) (system : Nat) : Tends system d (d.interrupt system).2 := by
  have current := d.tends_currentContext system
  simp only [interrupt]
  split
  · next found => simpa only [found] using current
  · next found =>
      rw [found] at current
      split
      · next commanded => exact current.trans (tends_command core_interrupt commanded)
      · exact current

theorem tends_interruptLast {d d' : Debugger} {id : Option ContextId}
    (h : d.interruptLast = .ok (id, d')) : Tends system d d' := by
  obtain ⟨last, _, found⟩ := except_bind_eq_ok h
  split at found
  · cases found
    exact .refl _ d
  · split at found
    · obtain ⟨d'', commanded, same⟩ := except_bind_eq_ok found
      cases same
      exact tends_command core_interrupt commanded
    · cases found
      exact .refl _ d

/-! ## Suspension -/

theorem core_suspend (status : ThreadStatus) (context : Context) :
    (context.suspend status).core = context.core := by
  cases status <;> rfl

theorem tends_suspendContext (d : Debugger) (id : ContextId) : Tends system d (d.suspendContext id) :=
  d.tends_updateContext _ id _ (core_suspend _)

theorem tends_suspend {d d' : Debugger} {id : ContextId} (h : d.suspend id = .ok d') : Tends system d d' := by
  obtain ⟨_, _, suspended⟩ := except_bind_eq_ok h
  split at suspended
  · cases suspended
  · cases suspended
    exact d.tends_suspendContext id

theorem tends_resumeContext (d : Debugger) (id : ContextId) :
    Tends system d (d.updateContext id Context.resume) := d.tends_updateContext _ id _ fun _ => rfl

theorem tends_resume {d d' : Debugger} {id : ContextId} (h : d.resume id = .ok d') : Tends system d d' := by
  obtain ⟨_, _, resumed⟩ := except_bind_eq_ok h
  have first : Tends system d _ := d.tends_resumeContext id
  simp only at resumed
  split at resumed
  · cases resumed
    split
    · exact first.trans (.of_same rfl rfl rfl rfl)
    · exact first
  · cases resumed

theorem tends_otherContexts {d d' : Debugger} {ids : List ContextId}
    (h : d.otherContexts system = .ok (ids, d')) : Tends system d d' := by
  obtain ⟨session, active, others⟩ := except_bind_eq_ok h
  cases others
  have same : (d.currentThread system).2.session = some session := activeSession_eq_ok active
  exact (d.tends_currentThread system).trans (tends_rebuild same)

theorem tends_foldl {α : Type} (f : Debugger → α → Debugger) (kept : ∀ d a, Tends system d (f d a))
    (d : Debugger) (as : List α) : Tends system d (as.foldl f d) := by
  induction as generalizing d with
  | nil => exact .refl _ d
  | cons a as ih => exact (kept d a).trans (ih (f d a))

theorem tends_suspendAll {d d' : Debugger} (h : d.suspendAll system = .ok d') :
    Tends system d d' := by
  obtain ⟨⟨ids, d₁⟩, others, suspended⟩ := except_bind_eq_ok h
  cases suspended
  exact (tends_otherContexts others).trans
    (tends_foldl suspendContext tends_suspendContext d₁ ids)

theorem tends_resumeAll {d d' : Debugger} (h : d.resumeAll system = .ok d') :
    Tends system d d' := by
  obtain ⟨⟨ids, d₁⟩, others, resumed⟩ := except_bind_eq_ok h
  have all := (tends_otherContexts others).trans (tends_foldl
    (fun d id => d.updateContext id Context.resume) tends_resumeContext d₁ ids)
  cases resumed
  split
  · exact all.trans (.of_same rfl rfl rfl rfl)
  · exact all

/-! ## Breakpoints -/

theorem tends_addBreakpoint {d d' : Debugger} {source : String} {target : BreakpointTarget}
    {guard : Option String} {bp : Breakpoint} (h : d.addBreakpoint source target guard = .ok (bp, d')) :
    Tends system d d' := by
  obtain ⟨session, active, added⟩ := except_bind_eq_ok h
  cases added
  exact (Tends.of_registry (activeSession_eq_ok active) _).trans (.of_same rfl rfl rfl rfl)

theorem tends_removeBreakpoint {d d' : Debugger} {id : Nat} {bp : Option Breakpoint}
    (h : d.removeBreakpoint id = .ok (bp, d')) : Tends system d d' := by
  obtain ⟨session, active, removed⟩ := except_bind_eq_ok h
  cases removed
  exact .of_registry (activeSession_eq_ok active) _

theorem tends_setCatchpoint {d d' : Debugger} {className : Option String}
    (h : d.setCatchpoint className = .ok d') : Tends system d d' := by
  obtain ⟨_, _, changed⟩ := except_bind_eq_ok h
  cases changed
  exact .of_same rfl rfl rfl rfl

theorem tends_setPostMortem {d d' : Debugger} {on : Bool} (h : d.setPostMortem on = .ok d') :
    Tends system d d' := by
  obtain ⟨_, _, changed⟩ := except_bind_eq_ok h
  cases changed
  exact .of_same rfl rfl rfl rfl

theorem tends_setTemporary {d d' : Debugger} {id : ContextId} {source : String}
    {target : BreakpointTarget} {guard : Option String} {bp : Breakpoint}
    (h : d.setTemporary id source target guard = .ok (bp, d')) : Tends system d d' := by
  obtain ⟨d'', commanded, same⟩ := except_bind_eq_ok h
  cases same
  exact tends_command (core_ok (fun context => { context with
    temporary := some ⟨0, source, target, guard⟩, temporaryCount := context.temporaryCount + 1 })
      fun _ => rfl) commanded

theorem tends_clearTemporary {d d' : Debugger} {id : ContextId} {bp : Option Breakpoint}
    (h : d.clearTemporary id = .ok (bp, d')) : Tends system d d' := by
  obtain ⟨_, _, cleared⟩ := except_bind_eq_ok h
  obtain ⟨d'', commanded, same⟩ := except_bind_eq_ok cleared
  cases same
  exact tends_command (core_ok (fun context => { context with temporary := none }) fun _ => rfl) commanded

end Debugger

/-! ## Requests -/

namespace Script.Attempt

variable {α β : Type}

def Within (R : Debugger → Debugger → Prop) (x : Attempt α) : Prop := ∀ d state, R d (x (d, state)).2.1

theorem debugger_change (f : Debugger → Except Error (α × Debugger)) (d : Debugger) (state : State) :
    (change f (d, state)).2.1 = match f d with
      | .ok (_, d') => d'
      | .error _ => d := by
  change (match f d with
    | .ok (a, d) => ((.ok a : Except Error α), d)
    | .error error => (.error error, d)).2 = _
  split <;> rfl

theorem debugger_perform (f : Debugger → Except Error Debugger) (d : Debugger) (state : State) :
    (perform f (d, state)).2.1 = match f d with
      | .ok d' => d'
      | .error _ => d := by
  have changed := debugger_change (fun d => (f d).map fun d => ((), d)) d state
  change (change (fun d => (f d).map fun d => ((), d)) (d, state)).2.1 = _
  rw [changed]
  cases f d <;> rfl

theorem debugger_map (x : Attempt α) (f : α → β) (d : Debugger) (state : State) :
    ((do return f (← x) : Attempt β) (d, state)).2.1 = (x (d, state)).2.1 := by
  let return' (a : α) : Attempt β := pure (f a)
  change (ExceptT.bindCont return' (x (d, state)).1 (x (d, state)).2).2.1 = _
  cases (x (d, state)).1 <;> rfl

section

variable {R : Debugger → Debugger → Prop} [IsPreorder Debugger R]

theorem related_bind {x : Attempt α} {f : α → Attempt β} {d : Debugger} {state : State}
    (first : R d (x (d, state)).2.1) (hf : ∀ a, Within R (f a)) : R d ((x >>= f) (d, state)).2.1 := by
  change R d (ExceptT.bindCont f (x (d, state)).1 (x (d, state)).2).2.1
  cases (x (d, state)).1 with
  | ok a => exact trans_of R first (hf a _ _)
  | error failure => exact first

theorem within_bind {x : Attempt α} {f : α → Attempt β} (hx : Within R x) (hf : ∀ a, Within R (f a)) :
    Within R (x >>= f) := fun d state => related_bind (hx d state) hf

theorem within_pure (a : α) : Within R (pure a : Attempt α) := fun d _ => refl_of R d

theorem within_throw (failure : Failure) : Within R (throw failure : Attempt α) := fun d _ => refl_of R d

theorem within_debugger : Within R debugger := fun d _ => refl_of R d

theorem within_query (f : Debugger → Except Error α) : Within R (query f) := by
  refine within_bind within_debugger fun d => ?_
  split
  · exact within_pure _
  · exact within_throw _

omit [IsPreorder Debugger R] in
theorem within_onDebugger {f : Debugger → Except Error α × Debugger} (hf : ∀ d, R d (f d).2) :
    Within R (onDebugger f) := fun d _ => hf d

theorem within_change {f : Debugger → Except Error (α × Debugger)}
    (hf : ∀ {d a d'}, f d = .ok (a, d') → R d d') : Within R (change f) := by
  intro d state
  rw [debugger_change]
  split
  · next h => exact hf h
  · exact refl_of R d

theorem within_perform {f : Debugger → Except Error Debugger} (hf : ∀ {d d'}, f d = .ok d' → R d d') :
    Within R (perform f) := by
  refine within_change fun {d a d'} h => ?_
  cases hd : f d with
  | ok d'' =>
      rw [hd] at h
      cases h
      exact hf hd
  | error error =>
      rw [hd] at h
      cases h

theorem within_done {x : Attempt Unit} (hx : Within R x) : Within R (do x; return Reply.done) :=
  within_bind hx fun _ => within_pure _

omit [IsPreorder Debugger R] in
theorem within_map {x : Attempt α} (hx : Within R x) (f : α → β) : Within R (do return f (← x)) := by
  intro d state
  rw [debugger_map]
  exact hx d state

end

abbrev Harmless (system : Nat) (x : Attempt α) : Prop := Within (Debugger.Tends system) x

end Script.Attempt

/-- What a front-end asks of the debugger or of a context. -/
inductive Request where
  | debugger (command : Script.DebuggerCommand)
  | context (id : ContextId) (command : Script.ContextCommand)
deriving DecidableEq, Repr

namespace Request

open Script Script.Attempt

def isActivation : Request → Bool
  | .debugger command => command = .start ∨ command = .stop ∨ command = .forceStop
  | .context _ _ => false

def attempt (system : Nat) : Request → Attempt Reply
  | .debugger command => command.perform system
  | .context id command => command.perform id

/-- The debugger after a request, whether it succeeded or failed. -/
def serve (request : Request) (system : Nat) (d : Debugger) : Debugger :=
  (request.attempt system (d, .initial [])).2.1

theorem harmless_debuggerCommand (system : Nat) (command : DebuggerCommand)
    (other : (Request.debugger command).isActivation = false) : Harmless system (command.perform system) := by
  cases command with
  | start | stop | forceStop => simp [isActivation] at other
  | isStarted | settings => exact within_bind within_debugger fun _ => within_pure _
  | addBreakpoint =>
      exact within_map (R := Debugger.Tends system) (within_change Debugger.tends_addBreakpoint) _
  | removeBreakpoint =>
      exact within_map (R := Debugger.Tends system) (within_change Debugger.tends_removeBreakpoint) _
  | breakpoints | catchpoint => exact within_map (within_query _) _
  | setCatchpoint => exact within_done (within_perform Debugger.tends_setCatchpoint)
  | setPostMortem => exact within_done (within_perform Debugger.tends_setPostMortem)
  | setTracing | setKeepFrameBinding | setDebug =>
      refine within_done (within_perform fun {d d'} h => ?_)
      cases h
      exact .of_same rfl rfl rfl rfl
  | contexts =>
      exact within_bind (within_change Debugger.tends_liveContexts) fun _ =>
        within_bind within_debugger fun _ => within_pure _
  | lastContext =>
      exact within_bind (within_query _) fun _ =>
        within_bind within_debugger fun _ => within_pure _
  | interrupt => exact within_done (within_onDebugger fun d => d.tends_interrupt system)
  | interruptLast =>
      exact within_bind (within_change Debugger.tends_interruptLast) fun _ =>
        within_bind within_debugger fun _ => within_pure _
  | suspendAll => exact within_done (within_perform Debugger.tends_suspendAll)
  | resumeAll => exact within_done (within_perform Debugger.tends_resumeAll)

theorem harmless_contextCommand (system : Nat) (id : ContextId) (command : ContextCommand) :
    Harmless system (command.perform id) := by
  cases command with
  | suspend => exact within_done (within_perform Debugger.tends_suspend)
  | resume => exact within_done (within_perform Debugger.tends_resume)
  | describe | summarize | frame | temporary => exact within_map (within_query _) _
  | evaluate =>
      refine within_bind within_debugger fun _ => ?_
      split
      · exact within_pure _
      · exact within_throw _
  | step n force =>
      exact within_done (within_perform (Debugger.tends_command (Debugger.core_step n force)))
  | stepOver n index force =>
      exact within_done (within_perform (Debugger.tends_command (Debugger.core_stepOver n index force)))
  | stopFrame index =>
      exact within_done (within_perform (Debugger.tends_command (Debugger.core_stopFrame index)))
  | interrupt => exact within_done (within_perform (Debugger.tends_command Debugger.core_interrupt))
  | setTracing on =>
      exact within_done (within_perform
        (Debugger.tends_command (Debugger.core_ok ({ · with tracing := on }) fun _ => rfl)))
  | setTemporary =>
      exact within_map (R := Debugger.Tends system) (within_change Debugger.tends_setTemporary) _
  | clearTemporary =>
      exact within_map (R := Debugger.Tends system) (within_change Debugger.tends_clearTemporary) _

theorem tends_request (request : Request) (system : Nat) (d : Debugger)
    (other : request.isActivation = false) : Debugger.Tends system d (request.serve system d) := by
  cases request with
  | debugger command => exact harmless_debuggerCommand system command other d _
  | context id command => exact harmless_contextCommand system id command d _

end Request

end EventDebugger
