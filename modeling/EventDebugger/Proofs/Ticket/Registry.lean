import EventDebugger.Proofs.Ticket.Courses

/-!
# The registry and its numbers

Only requests add persistent breakpoints and remove them. Everything else leaves the registry alone as long as the
activation lasts, and an activation begins with an empty one. The count of the breakpoints outlasts activations, so
that a new breakpoint has a number that none had before.

* `Request.retains`: requests that neither add nor remove a breakpoint nor begin an activation.
* `World.Acts.filed`: what a step makes of the registry, in the order of what was filed.
* `World.Logged.filed`: runs, restarts of the debugger included.
-/

namespace EventDebugger

namespace Debugger

def registry (d : Debugger) : Registry := d.session.elim [] (·.registry)

/-- A later debugger that has given no number since, and that lists the same breakpoints unless the activation is
over. -/
structure Retains (d d' : Debugger) : Prop where
  count : d'.breakpointCount = d.breakpointCount
  listed : d'.isStarted → d.isStarted ∧ d'.registry = d.registry

namespace Retains

variable {d d' d'' : Debugger}

theorem refl (d : Debugger) : Retains d d := ⟨rfl, fun started => ⟨started, rfl⟩⟩

theorem trans (first : Retains d d') (second : Retains d' d'') : Retains d d'' := by
  refine ⟨second.count.trans first.count, fun started => ?_⟩
  obtain ⟨started', listed'⟩ := second.listed started
  obtain ⟨started, listed⟩ := first.listed started'
  exact ⟨started, listed'.trans listed⟩

instance : IsPreorder Debugger Retains where
  refl := .refl
  trans _ _ _ := .trans

theorem of_same (session : d'.session = d.session) (count : d'.breakpointCount = d.breakpointCount) :
    Retains d d' := by
  refine ⟨count, fun started => ?_⟩
  rw [isStarted, session] at started
  rw [registry, session]
  exact ⟨started, rfl⟩

theorem of_ended (ended : d'.session = none) (count : d'.breakpointCount = d.breakpointCount) : Retains d d' := by
  refine ⟨count, fun started => ?_⟩
  rw [isStarted, ended] at started
  cases started

theorem of_session {session session' : Session} (active : d.session = some session)
    (active' : d'.session = some session') (registry : session'.registry = session.registry)
    (count : d'.breakpointCount = d.breakpointCount) : Retains d d' := by
  refine ⟨count, fun _ => ?_⟩
  rw [isStarted, Debugger.registry, Debugger.registry, active, active']
  exact ⟨rfl, registry⟩

end Retains

variable {d d' : Debugger} {system : Nat}

/-! ## Tracking -/

theorem retains_track {session : Session} (active : d.session = some session) (thread : Thread) :
    Retains d (d.track session thread).2 := by
  simp only [track]
  split <;> exact .of_session active rfl rfl rfl

theorem entriesFor_keeps (d : Debugger) (table : ThreadTable) (threads : List Thread) :
    (d.entriesFor table threads).2.session = d.session ∧
      (d.entriesFor table threads).2.breakpointCount = d.breakpointCount := by
  induction threads generalizing d with
  | nil => exact ⟨rfl, rfl⟩
  | cons thread threads ih =>
      simp only [entriesFor]
      split <;> exact ih _

theorem retains_rebuild {session : Session} (active : d.session = some session) : Retains d (d.rebuild session).2 :=
  .of_session active rfl rfl (d.entriesFor_keeps session.table d.host.liveThreads).2

theorem retains_liveContexts {ids : List ContextId} (h : d.liveContexts = .ok (ids, d')) : Retains d d' := by
  obtain ⟨session, active, built⟩ := except_bind_eq_ok h
  cases built
  exact retains_rebuild (activeSession_eq_ok active)

theorem retains_threadContext {thread : Thread} {found : ContextId} (h : d.threadContext thread = .ok (found, d')) :
    Retains d d' := by
  obtain ⟨session, active, tracked⟩ := except_bind_eq_ok h
  split at tracked
  · have kept := retains_track (activeSession_eq_ok active) thread
    rw [Except.ok.inj tracked] at kept
    exact kept
  · cases tracked

theorem retains_currentContext (d : Debugger) (system : Nat) : Retains d (d.currentContext system).2 := by
  have current : Retains d (d.currentThread system).2 := .of_same rfl rfl
  simp only [currentContext]
  split
  · next found => exact current.trans (retains_threadContext found)
  · exact current

theorem retains_arrive (d : Debugger) (system : Nat) (event : Event) : Retains d (d.arrive system event).2 := by
  simp only [arrive]
  split
  · have counted : Retains d { (d.currentThread system).2 with eventCount := d.eventCount + 1 } := .of_same rfl rfl
    split
    · exact counted
    · split
      · exact counted
      · next session active =>
          have tracked := retains_track (d := { (d.currentThread system).2 with eventCount := d.eventCount + 1 }) active
            (d.currentThread system).1
          split <;> exact counted.trans tracked
  · exact .refl d

/-! ## The ticket -/

theorem retains_contend (d : Debugger) (thread : Thread) (id : ContextId) (granted : Bool) :
    Retains d (d.contend thread id granted).2 := by
  have letIn {session session' : Session} (active : d.session = some session)
      (same : session'.registry = session.registry) : Retains d (d.letIn session' id).2 := by
    simp only [Debugger.letIn]
    split <;> exact .of_session active rfl same rfl
  simp only [contend]
  split
  · exact .refl d
  · next session active =>
      split
      · exact letIn active rfl
      · split
        · split
          · exact letIn active rfl
          · exact .refl d
        · refine .of_session active rfl ?_ rfl
          simp only [Session.enqueue]
          split <;> rfl

theorem retains_release (d : Debugger) : Retains d d.release := by
  simp only [release, pruneWhenDue]
  split
  · exact .of_same rfl rfl
  · next session active => split <;> exact .of_session active rfl rfl rfl

/-! ## Suspension -/

theorem retains_suspend {id : ContextId} (h : d.suspend id = .ok d') : Retains d d' := by
  obtain ⟨_, _, suspended⟩ := except_bind_eq_ok h
  split at suspended
  · cases suspended
  · cases suspended
    exact .of_same rfl rfl

theorem retains_resume {id : ContextId} (h : d.resume id = .ok d') : Retains d d' := by
  obtain ⟨_, _, resumed⟩ := except_bind_eq_ok h
  simp only at resumed
  split at resumed
  · cases resumed
    split <;> exact .of_same rfl rfl
  · cases resumed

theorem retains_otherContexts {ids : List ContextId} (h : d.otherContexts system = .ok (ids, d')) : Retains d d' := by
  obtain ⟨session, active, others⟩ := except_bind_eq_ok h
  cases others
  have current : Retains d (d.currentThread system).2 := .of_same rfl rfl
  exact current.trans (retains_rebuild (activeSession_eq_ok active))

theorem retains_foldl {α : Type} (f : Debugger → α → Debugger) (kept : ∀ d a, Retains d (f d a)) (d : Debugger)
    (as : List α) : Retains d (as.foldl f d) := by
  induction as generalizing d with
  | nil => exact .refl d
  | cons a as ih => exact (kept d a).trans (ih (f d a))

theorem retains_suspendAll (h : d.suspendAll system = .ok d') : Retains d d' := by
  obtain ⟨⟨ids, d₁⟩, others, suspended⟩ := except_bind_eq_ok h
  cases suspended
  exact (retains_otherContexts others).trans (retains_foldl suspendContext (fun _ _ => .of_same rfl rfl) d₁ ids)

theorem retains_resumeAll (h : d.resumeAll system = .ok d') : Retains d d' := by
  obtain ⟨⟨ids, d₁⟩, others, resumed⟩ := except_bind_eq_ok h
  have all := (retains_otherContexts others).trans
    (retains_foldl (fun d id => d.updateContext id Context.resume) (fun _ _ => .of_same rfl rfl) d₁ ids)
  cases resumed
  split
  · exact all.trans (.of_same rfl rfl)
  · exact all

/-! ## Commands -/

theorem retains_command {id : ContextId} {f : Context → Except Error Context} (h : d.command id f = .ok d') :
    Retains d d' := by
  obtain ⟨_, _, changed⟩ := except_bind_eq_ok h
  cases changed
  exact .of_same rfl rfl

theorem retains_interrupt (d : Debugger) (system : Nat) : Retains d (d.interrupt system).2 := by
  have current := d.retains_currentContext system
  simp only [interrupt]
  split
  · next found => simpa only [found] using current
  · next found =>
      rw [found] at current
      split
      · next commanded => exact current.trans (retains_command commanded)
      · exact current

theorem retains_interruptLast {last : Option ContextId} (h : d.interruptLast = .ok (last, d')) : Retains d d' := by
  obtain ⟨_, _, found⟩ := except_bind_eq_ok h
  split at found
  · cases found
    exact .refl d
  · split at found
    · obtain ⟨_, commanded, same⟩ := except_bind_eq_ok found
      cases same
      exact retains_command commanded
    · cases found
      exact .refl d

theorem retains_setTemporary {id : ContextId} {source : String} {target : BreakpointTarget} {guard : Option String}
    {bp : Breakpoint} (h : d.setTemporary id source target guard = .ok (bp, d')) : Retains d d' := by
  obtain ⟨_, commanded, same⟩ := except_bind_eq_ok h
  cases same
  exact retains_command commanded

theorem retains_clearTemporary {id : ContextId} {bp : Option Breakpoint} (h : d.clearTemporary id = .ok (bp, d')) :
    Retains d d' := by
  obtain ⟨_, _, cleared⟩ := except_bind_eq_ok h
  obtain ⟨_, commanded, same⟩ := except_bind_eq_ok cleared
  cases same
  exact retains_command commanded

theorem retains_setCatchpoint {className : Option String} (h : d.setCatchpoint className = .ok d') : Retains d d' := by
  obtain ⟨_, _, changed⟩ := except_bind_eq_ok h
  cases changed
  exact .of_same rfl rfl

theorem retains_setPostMortem {on : Bool} (h : d.setPostMortem on = .ok d') : Retains d d' := by
  obtain ⟨_, _, changed⟩ := except_bind_eq_ok h
  cases changed
  exact .of_same rfl rfl

/-! ## Activation -/

theorem retains_stop {ended : Bool} (h : d.stop = .ok (ended, d')) : Retains d d' := by
  obtain ⟨_, _, stopped⟩ := except_bind_eq_ok h
  simp only at stopped
  split at stopped
  · cases stopped
    exact .of_same rfl rfl
  · cases stopped
    exact .of_ended rfl rfl

theorem retains_forceStop (d : Debugger) : Retains d d.forceStop := by
  simp only [forceStop]
  split
  · exact .of_ended rfl rfl
  · exact .of_same rfl rfl

/-! ## Post-mortems and sections -/

theorem retains_enterPostMortem (d : Debugger) (system : Nat) : Retains d (d.enterPostMortem system).2 := by
  have current := d.retains_currentContext system
  simp only [enterPostMortem]
  split
  · next found => simpa only [found] using current
  · next found =>
      rw [found] at current
      split
      · exact current
      · next suspended => exact (current.trans (retains_suspendAll suspended)).trans (.of_same rfl rfl)

theorem retains_leavePostMortem (d : Debugger) (system : Nat) (before : ContextId × Bool × Bool) :
    Retains d (d.leavePostMortem system before).2 := by
  have restored : Retains d { d with settings := { d.settings with tracing := before.2.1 } } := .of_same rfl rfl
  simp only [leavePostMortem]
  split
  · exact restored
  · next commanded =>
      have commanded := restored.trans (retains_command commanded)
      split
      · exact commanded
      · next resumed => exact commanded.trans (retains_resumeAll resumed)

theorem retains_prepareLoad (d : Debugger) (system : Nat) (stop : Bool) : Retains d (d.prepareLoad system stop).2 := by
  have current := d.retains_currentContext system
  simp only [prepareLoad]
  split
  · next found => simpa only [found] using current
  · next id d₁ found =>
      rw [found] at current
      have emptied : Retains d (d₁.updateContext id fun context => { context with stack := [] }) :=
        current.trans (.of_same rfl rfl)
      split
      · split
        · exact emptied
        · next commanded => exact emptied.trans (retains_command commanded)
      · exact emptied

/-! ## Events -/

theorem Touches.retains {id : ContextId} (h : Touches system id d d') : Retains d d' :=
  .of_same h.session (congrArg (·.breakpointCount) h.rest)

theorem retains_dispatch (d : Debugger) (system : Nat) (id : ContextId) (event : Event) :
    Retains d (d.dispatch system id event).2 := by
  cases exits : event.isExit with
  | false => exact (d.touches_dispatch system id event exits).retains
  | true =>
      obtain ⟨d', touched, same | ended⟩ := d.dispatch_exit system id event exits
      · rw [same]
        exact touched.retains
      · rw [ended]
        exact touched.retains.trans d'.retains_forceStop

end Debugger

namespace Request

open Script Script.Attempt Debugger

def isFiled : Request → Bool
  | .debugger .start | .debugger (.addBreakpoint _ _ _) | .debugger (.removeBreakpoint _) => true
  | _ => false

theorem retains_debuggerCommand (command : DebuggerCommand) (system : Nat)
    (other : (Request.debugger command).isFiled = false) : Within Retains (command.perform system) := by
  cases command with
  | start | addBreakpoint | removeBreakpoint => cases other
  | stop => exact within_map (R := Retains) (within_change retains_stop) _
  | forceStop =>
      refine within_done (within_perform fun {d _} changed => ?_)
      cases changed
      exact d.retains_forceStop
  | isStarted | settings => exact within_bind within_debugger fun _ => within_pure _
  | breakpoints | catchpoint => exact within_map (within_query _) _
  | setCatchpoint => exact within_done (within_perform retains_setCatchpoint)
  | setPostMortem => exact within_done (within_perform retains_setPostMortem)
  | setTracing | setKeepFrameBinding | setDebug =>
      refine within_done (within_perform fun changed => ?_)
      cases changed
      exact .of_same rfl rfl
  | contexts =>
      exact within_bind (within_change retains_liveContexts) fun _ =>
        within_bind within_debugger fun _ => within_pure _
  | lastContext =>
      exact within_bind (within_query _) fun _ => within_bind within_debugger fun _ => within_pure _
  | interrupt => exact within_done (within_onDebugger fun d => d.retains_interrupt system)
  | interruptLast =>
      exact within_bind (within_change retains_interruptLast) fun _ =>
        within_bind within_debugger fun _ => within_pure _
  | suspendAll => exact within_done (within_perform retains_suspendAll)
  | resumeAll => exact within_done (within_perform retains_resumeAll)

theorem retains_contextCommand (command : ContextCommand) (id : ContextId) : Within Retains (command.perform id) := by
  cases command with
  | suspend => exact within_done (within_perform retains_suspend)
  | resume => exact within_done (within_perform retains_resume)
  | describe | summarize | frame | temporary => exact within_map (within_query _) _
  | evaluate =>
      refine within_bind within_debugger fun _ => ?_
      split
      · exact within_pure _
      · exact within_throw _
  | step | stepOver | stopFrame | interrupt | setTracing => exact within_done (within_perform retains_command)
  | setTemporary => exact within_map (R := Retains) (within_change retains_setTemporary) _
  | clearTemporary => exact within_map (R := Retains) (within_change retains_clearTemporary) _

theorem retains (request : Request) (system : Nat) (d : Debugger) (other : request.isFiled = false) :
    Retains d (request.serve system d) := by
  cases request with
  | debugger command => exact retains_debuggerCommand command system other d _
  | context id command => exact retains_contextCommand command id d _

end Request

/-! ## What is filed -/

/-- What happens to the registry. -/
inductive Filing where
  /-- An activation begins. -/
  | begun
  | added (bp : Breakpoint)
  /-- The removal of the breakpoint with a number, if there is one. -/
  | removed (id : Nat)
deriving DecidableEq, Repr

namespace Filing

def breakpoint? : Filing → Option Breakpoint
  | .added bp => some bp
  | _ => none

def apply (registry : Registry) : Filing → Registry
  | .begun => []
  | .added bp => registry.add bp
  | .removed id => registry.remove id

def given (log : List Filing) : List Breakpoint := log.filterMap breakpoint?

def registry (log : List Filing) : Registry := log.foldl apply []

theorem given_append (log more : List Filing) : given (log ++ more) = given log ++ given more := List.filterMap_append

theorem registry_append (log more : List Filing) : registry (log ++ more) = more.foldl apply (registry log) :=
  List.foldl_append

theorem registry_sublist (log : List Filing) : (registry log).Sublist (given log) := by
  have replayed (log : List Filing) (left : Registry) (before : List Breakpoint) (sub : left.Sublist before) :
      (log.foldl apply left).Sublist (before ++ given log) := by
    induction log generalizing left before with
    | nil => rwa [given, List.filterMap_nil, List.append_nil]
    | cons filing log ih =>
        cases filing with
        | begun => exact ih [] before (List.nil_sublist before)
        | added bp =>
            have further := ih (left ++ [bp]) (before ++ [bp]) (sub.append_right [bp])
            rwa [List.append_assoc, List.singleton_append] at further
        | removed id => exact ih (left.remove id) before (List.eraseP_sublist.trans sub)
  exact replayed log [] [] (List.nil_sublist [])

end Filing

/-- What a request files: an addition only if it succeeds, a removal only while the debugger is active. -/
def Request.filings (request : Request) (d : Debugger) : List Filing :=
  match request with
  | .debugger .start => if d.isStarted then [] else [.begun]
  | .debugger (.addBreakpoint source target guard) =>
      match d.addBreakpoint source target guard with
      | .ok (bp, _) => [.added bp]
      | .error _ => []
  | .debugger (.removeBreakpoint id) => if d.isStarted then [.removed id] else []
  | _ => []

def Act.filings (act : Act) (d : Debugger) : List Filing :=
  match act with
  | .move (.request request) => request.filings d
  | _ => []

namespace Debugger

structure Filed (base : Nat) (log : List Filing) (d : Debugger) : Prop where
  count : d.breakpointCount = base + (Filing.given log).length
  numbers : (Filing.given log).map (·.id) = List.range' (base + 1) (Filing.given log).length
  listed : d.isStarted → d.registry = Filing.registry log

variable {base : Nat} {log : List Filing} {d d' : Debugger}

theorem Filed.retains (h : Filed base log d) (retains : Retains d d') : Filed base log d' := by
  refine ⟨retains.count.trans h.count, h.numbers, fun started => ?_⟩
  obtain ⟨before, same⟩ := retains.listed started
  exact same.trans (h.listed before)

theorem Filed.unfiled (h : Filed base log d) (retains : Retains d d') : Filed base (log ++ []) d' := by
  rw [List.append_nil]
  exact h.retains retains

theorem Filed.unnumbered (h : Filed base log d) {filing : Filing} (other : filing.breakpoint? = none)
    (count : d'.breakpointCount = d.breakpointCount) (left : d'.registry = Filing.apply (Filing.registry log) filing) :
    Filed base (log ++ [filing]) d' := by
  have given : Filing.given (log ++ [filing]) = Filing.given log := by
    rw [Filing.given_append, Filing.given, Filing.given, List.filterMap_cons_none other]
    exact List.append_nil _
  refine ⟨?_, ?_, fun _ => ?_⟩
  · rw [given, count, h.count]
  · rw [given, h.numbers]
  · rw [left, Filing.registry_append]
    rfl

theorem Filed.added (h : Filed base log d) (started : d.isStarted) {bp : Breakpoint}
    (number : bp.id = d.breakpointCount + 1) (count : d'.breakpointCount = d.breakpointCount + 1)
    (added : d'.registry = d.registry.add bp) : Filed base (log ++ [.added bp]) d' := by
  have given : Filing.given (log ++ [.added bp]) = Filing.given log ++ [bp] := Filing.given_append _ _
  refine ⟨?_, ?_, fun _ => ?_⟩
  · rw [given, List.length_append, count, h.count]
    rfl
  · have last : base + 1 + (Filing.given log).length = bp.id := by
      rw [number, h.count]
      omega
    rw [given, List.map_append, List.length_append, h.numbers, List.length_singleton, List.range'_1_concat, last]
    rfl
  · rw [added, h.listed started, Filing.registry_append]
    rfl

theorem registry_eq {session : Session} (active : d.session = some session) : d.registry = session.registry := by
  rw [registry, active]
  rfl

theorem session_of_listed {bp : Breakpoint} (listed : bp ∈ d.registry) : ∃ session, d.session = some session := by
  cases active : d.session with
  | some session => exact ⟨session, rfl⟩
  | none =>
      rw [registry, active] at listed
      cases listed

theorem addBreakpoint_eq {session : Session} (active : d.session = some session) (source : String)
    (target : BreakpointTarget) (guard : Option String) :
    d.addBreakpoint source target guard = .ok (⟨d.breakpointCount + 1, source, target, guard⟩, { d with
      breakpointCount := d.breakpointCount + 1
      session := some { session with
        registry := session.registry.add ⟨d.breakpointCount + 1, source, target, guard⟩ } }) := by
  simp only [addBreakpoint, activeSession, active]
  rfl

theorem removeBreakpoint_eq {session : Session} (active : d.session = some session) (id : Nat) :
    d.removeBreakpoint id = .ok (session.registry.find? id,
      { d with session := some { session with registry := session.registry.remove id } }) := by
  simp only [removeBreakpoint, activeSession, active]
  rfl

theorem activeSession_ended (ended : d.session = none) : d.activeSession = .error .notStarted := by
  simp only [activeSession, ended]

end Debugger

namespace Request

open Script Script.Attempt Debugger

variable {base : Nat} {log : List Filing} {d : Debugger}

theorem filed_start (h : Filed base log d) (system : Nat) :
    Filed base (log ++ (Request.debugger .start).filings d) ((Request.debugger .start).serve system d) := by
  have served : (Request.debugger .start).serve system d = d.start.2 := rfl
  rcases active : d.session with _ | session
  · have filings : (Request.debugger .start).filings d = [.begun] := by
      simp only [Request.filings, isStarted, active]
      rfl
    rw [served, filings]
    refine h.unnumbered rfl ?_ ?_
    · simp only [start, active]
    · simp only [start, active]
      rfl
  · have filings : (Request.debugger .start).filings d = [] := by
      simp only [Request.filings, isStarted, active]
      rfl
    rw [served, filings, List.append_nil]
    refine h.retains (.of_same ?_ ?_) <;> simp only [start, active]

theorem filed_addBreakpoint (h : Filed base log d) (source : String) (target : BreakpointTarget)
    (guard : Option String) (system : Nat) :
    Filed base (log ++ (Request.debugger (.addBreakpoint source target guard)).filings d)
      ((Request.debugger (.addBreakpoint source target guard)).serve system d) := by
  change Filed base _ ((do return Reply.breakpoint (← change (·.addBreakpoint source target guard)) : Attempt Reply)
    (d, .initial [])).2.1
  rw [debugger_map, debugger_change]
  rcases active : d.session with _ | session
  · have refused : d.addBreakpoint source target guard = .error .notStarted := by
      rw [addBreakpoint, activeSession_ended active]
      rfl
    simp only [Request.filings, refused, List.append_nil]
    exact h
  · simp only [Request.filings, addBreakpoint_eq active]
    refine h.added (Option.isSome_iff_exists.mpr ⟨session, active⟩) rfl rfl ?_
    rw [registry_eq active]
    rfl

theorem filed_removeBreakpoint (h : Filed base log d) (id : Nat) (system : Nat) :
    Filed base (log ++ (Request.debugger (.removeBreakpoint id)).filings d)
      ((Request.debugger (.removeBreakpoint id)).serve system d) := by
  change Filed base _ ((do return Reply.ofOption Reply.breakpoint (← change (·.removeBreakpoint id)) : Attempt Reply)
    (d, .initial [])).2.1
  rw [debugger_map, debugger_change]
  rcases active : d.session with _ | session
  · have refused : d.removeBreakpoint id = .error .notStarted := by
      rw [removeBreakpoint, activeSession_ended active]
      rfl
    have filings : (Request.debugger (.removeBreakpoint id)).filings d = [] := by
      simp only [Request.filings, isStarted, active]
      rfl
    rw [refused, filings, List.append_nil]
    exact h
  · have started : d.isStarted := Option.isSome_iff_exists.mpr ⟨session, active⟩
    have filings : (Request.debugger (.removeBreakpoint id)).filings d = [.removed id] := if_pos started
    rw [removeBreakpoint_eq active, filings]
    refine h.unnumbered rfl rfl ?_
    rw [← h.listed started, registry_eq active]
    rfl

theorem filed (request : Request) (system : Nat) (h : Filed base log d) :
    Filed base (log ++ request.filings d) (request.serve system d) := by
  cases other : request.isFiled with
  | false =>
      have filings : request.filings d = [] := by
        revert other
        rcases request with command | ⟨id, command⟩
        · cases command <;> simp [isFiled, Request.filings]
        · simp [Request.filings]
      rw [filings]
      exact h.unfiled (request.retains system d other)
  | true =>
      rcases request with command | ⟨id, command⟩
      · cases command with
        | start => exact filed_start h system
        | addBreakpoint source target guard => exact filed_addBreakpoint h source target guard system
        | removeBreakpoint id => exact filed_removeBreakpoint h id system
        | _ => cases other
      · cases other

end Request

/-! ## Runs -/

namespace World

variable {w w' w₀ : World} {s : Nat} {move : Move} {act : Act} {allowed : World → Nat → Act → Prop} {base : Nat}
  {log : List Filing}

theorem Step.filed (step : w.Step s move w') (h : w.debugger.Filed base log) :
    w'.debugger.Filed base (log ++ (Act.move move).filings w.debugger) := by
  cases step with
  | arrive event free =>
      rw [debugger_arrive]
      exact h.unfiled (w.debugger.retains_arrive s event)
  | ask | awake =>
      rw [debugger_contend]
      exact h.unfiled (w.debugger.retains_contend _ _ _)
  | dispatch tasks stage => exact h.unfiled (w.debugger.retains_dispatch s _ _)
  | answer tasks stage => exact h.unfiled (w.debugger.touches_run s _ _).retains
  | fail => exact h.unfiled (.refl _)
  | release => exact h.unfiled w.debugger.retains_release
  | request request free => exact request.filed s h
  | enterPostMortem =>
      rw [debugger_inspect]
      exact h.unfiled (w.debugger.retains_enterPostMortem s)
  | leavePostMortem => exact h.unfiled (w.debugger.retains_leavePostMortem s _)
  | execute | register | begin | exit => exact h.unfiled (.of_same rfl rfl)

theorem Acts.filed (acts : w.Acts s act w') (h : w.debugger.Filed base log) :
    w'.debugger.Filed base (log ++ act.filings w.debugger) := by
  cases acts with
  | move step => exact step.filed h
  | load stop free => exact h.unfiled (w.debugger.retains_prepareLoad s stop)
  | meet => exact h.unfiled (w.debugger.retains_currentContext s)
  | skip | keep => exact h.unfiled (.of_same rfl rfl)

/-- Runs with what is filed in them. -/
inductive Logged (w₀ : World) : List Filing → World → Prop where
  | refl : Logged w₀ [] w₀
  | step {w w' : World} {log : List Filing} {s : Nat} {act : Act} (logged : Logged w₀ log w) (next : w.Acts s act w') :
      Logged w₀ (log ++ act.filings w.debugger) w'

theorem Course.logged (course : Course allowed w₀ w) : ∃ log, w₀.Logged log w := by
  induction course with
  | refl => exact ⟨_, .refl⟩
  | step course next ok ih =>
      obtain ⟨log, logged⟩ := ih
      exact ⟨_, logged.step next⟩

theorem Logged.filed (logged : w₀.Logged log w) (ended : w₀.debugger.session = none) :
    w.debugger.Filed w₀.debugger.breakpointCount log := by
  induction logged with
  | refl =>
      refine ⟨rfl, rfl, fun started => ?_⟩
      rw [Debugger.isStarted, ended] at started
      cases started
  | step logged next ih => exact next.filed ih

end World

end EventDebugger
