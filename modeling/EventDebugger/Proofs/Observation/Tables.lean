import EventDebugger.Proofs.Observation.Bare
import EventDebugger.Proofs.Schedule.Events
import EventDebugger.Proofs.Ticket.Operations

/-!
# The ticket and the tables under observation

As long as every thread that has a context is alive there is nothing to forget, so it makes no difference how
often exited threads are forgotten. The contexts of threads are looked up and made alike.

* `Debugger.Alone`: a bound thread none of whose companions exited.
* `Debugger.Shares.release`: the ticket is given back alike.
-/

namespace EventDebugger

namespace Debugger

def Tended (d : Debugger) : Prop := ∀ table, d.session.map (·.table) = some table →
  table.Coherent ∧ ∀ entry ∈ table.entries, d.host.isAlive entry.1

structure Alone (d : Debugger) (system : Nat) (thread : Thread) : Prop where
  bound : d.host.boundTo? system = some thread
  alive : d.host.isAlive thread
  tended : d.Tended

variable {d d' e : Debugger} {system : Nat} {thread : Thread} {traces : Bool}

theorem arrive_inactive (inactive : d.session = none) (system : Nat) (event : Event) :
    d.arrive system event = (none, d) := by
  unfold Debugger.arrive Debugger.isStarted
  rw [inactive]
  rfl

theorem table_contend (d : Debugger) (thread : Thread) (id : ContextId) (granted : Bool) :
    (d.contend thread id granted).2.session.map (·.table) = d.session.map (·.table) := by
  have letIn (session : Session) : (d.letIn session id).2.session.map (·.table) = some session.table := by
    unfold Debugger.letIn
    split <;> rfl
  unfold contend
  split
  · rfl
  · next session active =>
      rw [active]
      split
      · exact letIn _
      · split
        · split
          · exact letIn session
          · rw [active]
        · simp only [Session.enqueue]
          split <;> rfl

namespace Tended

theorem of_same (h : d.Tended) (alive : ∀ thread, d.host.isAlive thread → d'.host.isAlive thread)
    (table : d'.session.map (·.table) = d.session.map (·.table)) : d'.Tended := by
  intro t is
  obtain ⟨coherent, kept⟩ := h t (table.symm.trans is)
  exact ⟨coherent, fun entry member => alive _ (kept entry member)⟩

theorem track (h : d.Tended) {session : Session} (active : d.session = some session)
    (alive : d.host.isAlive thread) : (d.track session thread).2.Tended := by
  obtain ⟨coherent, kept⟩ := h session.table (by rw [active]; rfl)
  unfold Debugger.track
  split
  · next id found =>
      intro t is
      cases is
      rw [ThreadTable.find?_eq_stored? coherent] at found
      exact ⟨ThreadTable.coherent_remember found, kept⟩
  · next unknown =>
      intro t is
      cases is
      rw [ThreadTable.find?_eq_stored? coherent] at unknown
      refine ⟨ThreadTable.coherent_insert unknown, fun entry member => ?_⟩
      rcases List.mem_append.mp member with older | new
      · exact kept entry older
      · rw [List.mem_singleton.mp new]
        exact alive

theorem prune_eq (h : d.Tended) {session : Session} (active : d.session = some session) :
    session.table.prune d.host.isAlive = session.table := by
  obtain ⟨coherent, kept⟩ := h session.table (by rw [active]; rfl)
  have entries : session.table.entries.filter (fun entry => d.host.isAlive entry.1) = session.table.entries :=
    List.filter_eq_self.mpr kept
  have recent : (session.table.recent.filter fun recent =>
      session.table.entries.any fun entry => entry.1 == recent.1) = session.table.recent := by
    cases aside : session.table.recent with
    | none => rfl
    | some entry =>
        obtain ⟨before, after, split, -⟩ := List.lookup_eq_some_iff.mp (coherent aside)
        have listed : (session.table.entries.any fun other => other.1 == entry.1) = true := by
          rw [split]
          simp
        exact if_pos listed
  unfold ThreadTable.prune ThreadTable.replace
  rw [entries, recent]

theorem pruneWhenDue_eq (h : d.Tended) {session : Session} (active : d.session = some session) :
    ∃ last, d.pruneWhenDue session = (session, { d with prunedAt := last }) := by
  unfold pruneWhenDue
  split
  · exact ⟨d.eventCount, by rw [h.prune_eq active]⟩
  · exact ⟨d.prunedAt, rfl⟩

end Tended

namespace Alone

theorem of_same (h : d.Alone system thread) (same : d.host.SameThreads d'.host)
    (table : d'.session.map (·.table) = d.session.map (·.table)) : d'.Alone system thread := by
  refine ⟨(same.boundTo?_eq system).trans h.bound, (same.isAlive_eq thread).trans h.alive, ?_⟩
  exact h.tended.of_same (fun other alive => (same.isAlive_eq other).trans alive) table

theorem of_ended (h : d.Alone system thread) (host : d'.host = d.host) (ended : d'.session = none) :
    d'.Alone system thread := by
  refine ⟨host ▸ h.bound, host ▸ h.alive, fun t is => ?_⟩
  rw [ended] at is
  cases is

theorem of_touches (h : d.Alone system thread) {id : ContextId} (touches : Touches system id d d') :
    d'.Alone system thread := by
  refine h.of_same ?_ (by rw [touches.session])
  rw [touches.host.eq_of_bound h.bound]
  exact .refl _

theorem track (h : d.Alone system thread) {session : Session} (active : d.session = some session) :
    (d.track session thread).2.Alone system thread := by
  have host := d.host_track session thread
  exact ⟨host ▸ h.bound, host ▸ h.alive, h.tended.track active h.alive⟩

theorem arrive (h : d.Alone system thread) (event : Event) : (d.arrive system event).2.Alone system thread := by
  cases active : d.session with
  | none =>
      rw [arrive_inactive active]
      exact h
  | some session =>
      have counted : d.counted.Alone system thread := h.of_same (.refl _) rfl
      rw [arrive_of_bound active h.bound]
      split
      · exact counted
      · have tracked : (d.counted.track session thread).2.Alone system thread := counted.track active
        dsimp only
        split <;> exact tracked

theorem contend (h : d.Alone system thread) (other : Thread) (id : ContextId) (granted : Bool) :
    (d.contend other id granted).2.Alone system thread := by
  have host : (d.contend other id granted).2.host = d.host := host_contend d other id granted
  exact h.of_same (host ▸ .refl _) (table_contend d other id granted)

theorem release (h : d.Alone system thread) : d.release.Alone system thread := by
  refine h.of_same (d.host_release ▸ .refl _) ?_
  cases active : d.session with
  | none => simp only [Debugger.release, active, Debugger.wakeUp]
  | some session =>
      obtain ⟨last, pruned⟩ := h.tended.pruneWhenDue_eq active
      simp only [Debugger.release, active, pruned]
      rfl

end Alone

/-! ## The ticket -/

structure Restores (traces : Bool) (before before' : ContextId × Bool × Bool) : Prop where
  current : before'.1 = before.1
  context : before'.2.2 = (traces && before.2.2)
  debugger : before'.2.1 = (traces && before.2.1)

namespace Shares

theorem wakeUp (h : d.Shares traces e) : d.wakeUp.Shares traces e.wakeUp :=
  h.change Debugger.wakeUp fun _ _ => rfl

theorem setSession (h : d.Shares traces e) (session : Option Session) :
    ({ d with session } : Debugger).Shares traces { e with session } :=
  h.change (fun d => { d with session }) fun _ _ => rfl

theorem letIn (h : d.Shares traces e) (session : Session) (id : ContextId) :
    Both traces (d.letIn session id) (e.letIn session id) := by
  have suspended : (e.context id).suspended = (d.context id).suspended :=
    h.reads id (·.suspended) fun _ _ => rfl
  unfold Debugger.letIn
  rw [suspended]
  split
  · have woken := (h.setSession (some session.handOver)).wakeUp
    refine ⟨rfl, woken.updateContext id (g := ({ · with wasRunning := true })) ?_ ?_⟩
    · exact fun _ => rfl
    · exact fun _ => rfl
  · exact ⟨rfl, h.setSession (some session)⟩

theorem contend (h : d.Shares traces e) (thread : Thread) (id : ContextId) (granted : Bool) :
    Both traces (d.contend thread id granted) (e.contend thread id granted) := by
  unfold Debugger.contend
  rw [h.session]
  split
  · exact ⟨rfl, h⟩
  · split
    · exact h.letIn _ id
    · split
      · split
        · exact h.letIn _ id
        · exact ⟨rfl, h⟩
      · exact ⟨rfl, h.setSession _⟩

theorem release (h : d.Shares traces e) (alone : d.Alone system thread) : d.release.Shares traces e.release := by
  have released {traces : Bool} {d : Debugger} (alone : d.Alone system thread) : d.release.bare traces =
      ({ d.bare traces with session := d.session.map Session.handOver } : Debugger).wakeUp := by
    cases active : d.session with
    | none =>
        simp only [Debugger.release, active]
        exact congrArg (fun session => ({ d.bare traces with session } : Debugger).wakeUp) active
    | some session =>
        obtain ⟨last, pruned⟩ := alone.tended.pruneWhenDue_eq active
        simp only [Debugger.release, active, pruned]
        rfl
  have alone' : e.Alone system thread := alone.of_same (h.host ▸ .refl _) (by rw [h.session])
  rw [Shares, released alone, released alone', h, h.session]

/-! ## Tables -/

theorem newContext (h : d.Shares traces e) (thread : Thread) :
    Both traces (d.newContext thread) (e.newContext thread) := by
  have count : e.contextCount = d.contextCount := congrArg (·.contextCount) h
  have ofDebugger : e.host.isDebuggerThread thread = d.host.isDebuggerThread thread := by rw [h.host]
  have counted := h.change (fun f => { f with contextCount := d.contextCount + 1 }) fun _ _ => rfl
  unfold Debugger.newContext
  dsimp only
  rw [count, ofDebugger]
  exact counted.addContext ((Context.bare_initial ..).trans (Context.bare_initial ..).symm)

theorem track (h : d.Shares traces e) (session : Session) (thread : Thread) :
    Both traces (d.track session thread) (e.track session thread) := by
  obtain ⟨address, made⟩ := h.newContext thread
  unfold Debugger.track
  split
  · exact ⟨rfl, h.setSession _⟩
  · simp only [address]
    exact ⟨rfl, made.setSession _⟩

theorem currentThread (h : d.Shares traces e) (system : Nat) :
    Both traces (d.currentThread system) (e.currentThread system) := by
  unfold Debugger.currentThread
  rw [h.host]
  exact ⟨rfl, h.change (fun d => { d with host := _ }) fun _ _ => rfl⟩

theorem arrive (h : d.Shares traces e) (alone : d.Alone system thread) (event : Event) :
    Both traces (d.arrive system event) (e.arrive system event) := by
  have counted := h.change counted fun _ _ => rfl
  cases active : d.session with
  | none =>
      rw [arrive_inactive active, arrive_inactive (h.session.trans active)]
      exact ⟨rfl, h⟩
  | some session =>
      obtain ⟨address, tracked⟩ := counted.track session thread
      have active' := h.session.trans active
      rw [arrive_of_bound active alone.bound, arrive_of_bound active' (h.host ▸ alone.bound)]
      generalize d.counted.track session thread = x at address tracked ⊢
      generalize e.counted.track session thread = y at address tracked ⊢
      have ignored : (y.2.context y.1).ignored = (x.2.context x.1).ignored := by
        rw [address]
        exact tracked.reads x.1 (·.ignored) fun _ _ => rfl
      split
      · exact ⟨rfl, counted⟩
      · dsimp only
        rw [ignored, address]
        split <;> exact ⟨rfl, tracked⟩

/-! ## Requests -/

theorem activeSession (h : d.Shares traces e) : e.activeSession = d.activeSession := by
  unfold Debugger.activeSession
  rw [h.session]

theorem inspect {α β : Type} (h : d.Shares traces e) {id : ContextId} {r : α → β → Prop}
    {f : Context → Except Error α} {g : Context → Except Error β}
    (read : Results r (f (d.context id)) (g (e.context id))) : Results r (d.inspect id f) (e.inspect id g) := by
  unfold Debugger.inspect
  rw [h.isStarted]
  split
  · exact read
  · exact .error _

theorem inspect_eq {α : Type} (h : d.Shares traces e) (id : ContextId) {f : Context → Except Error α}
    (hf : ∀ (traces : Bool) context, f (context.bare traces) = f context) :
    e.inspect id f = d.inspect id f := by
  unfold Debugger.inspect
  rw [h.isStarted, h.reads id f hf]

theorem command (h : d.Shares traces e) (id : ContextId) {f g : Context → Except Error Context}
    (changed : Results (fun context context' => context'.bare true = context.bare traces) (f (d.context id))
      (g (e.context id))) : Results (Shares traces) (d.command id f) (e.command id g) :=
  (h.inspect changed).bind fun {context _} same =>
    .ok (h.updateContext id (g := fun _ => context.bare traces) (fun _ => rfl) fun _ => same)

theorem threadContext (h : d.Shares traces e) (thread : Thread) :
    Results (Both traces) (d.threadContext thread) (e.threadContext thread) := by
  unfold Debugger.threadContext
  rw [h.activeSession, h.host]
  refine (Results.same d.activeSession).bind fun {session _} same => ?_
  subst same
  split
  · exact .ok (h.track session thread)
  · exact .error _

theorem currentContext (h : d.Shares traces e) (system : Nat) :
    Both traces (d.currentContext system) (e.currentContext system) := by
  obtain ⟨thread, met⟩ := h.currentThread system
  have found := met.threadContext (d.currentThread system).1
  simp only [Debugger.currentContext, thread]
  generalize (d.currentThread system).2.threadContext _ = x at found ⊢
  generalize (e.currentThread system).2.threadContext _ = y at found ⊢
  cases found with
  | error error => exact ⟨rfl, met⟩
  | ok both => exact ⟨congrArg Except.ok both.same, both.shares⟩

theorem entriesFor (h : d.Shares traces e) (table : ThreadTable) (threads : List Thread) :
    Both traces (d.entriesFor table threads) (e.entriesFor table threads) := by
  induction threads generalizing d e with
  | nil => exact ⟨rfl, h⟩
  | cons thread threads ih =>
      unfold Debugger.entriesFor
      cases table.stored? thread with
      | some id =>
          obtain ⟨rest, made⟩ := ih h
          exact ⟨congrArg ((thread, id) :: ·) rest, made⟩
      | none =>
          obtain ⟨address, first⟩ := h.newContext thread
          obtain ⟨rest, made⟩ := ih first
          exact ⟨congrArg₂ (fun id entries => (thread, id) :: entries) address rest, made⟩

theorem rebuild (h : d.Shares traces e) (session : Session) :
    Both traces (d.rebuild session) (e.rebuild session) := by
  obtain ⟨entries, made⟩ := h.entriesFor session.table d.host.liveThreads
  simp only [Debugger.rebuild, h.host, entries]
  exact ⟨rfl, made.setSession _⟩

theorem otherContexts (h : d.Shares traces e) (system : Nat) :
    Results (Both traces) (d.otherContexts system) (e.otherContexts system) := by
  unfold Debugger.otherContexts
  rw [h.activeSession]
  refine (Results.same d.activeSession).bind fun {session _} same => ?_
  subst same
  obtain ⟨thread, met⟩ := h.currentThread system
  obtain ⟨ids, made⟩ := met.rebuild session
  have owner (id : ContextId) := made.reads id (·.thread) fun _ _ => rfl
  have others : (fun id => (((e.currentThread system).2.rebuild session).2.context id).thread !=
        (e.currentThread system).1) =
      fun id => (((d.currentThread system).2.rebuild session).2.context id).thread !=
        (d.currentThread system).1 := by
    funext id
    rw [owner, thread]
  exact .ok ⟨congrArg₂ List.filter others ids, made⟩

theorem foldl (h : d.Shares traces e) {f : Debugger → ContextId → Debugger}
    (each : ∀ {d e : Debugger} (id), d.Shares traces e → (f d id).Shares traces (f e id))
    (ids : List ContextId) : (ids.foldl f d).Shares traces (ids.foldl f e) := by
  induction ids generalizing d e with
  | nil => exact h
  | cons id ids ih => exact ih (each id h)

theorem suspendContext (h : d.Shares traces e) (id : ContextId) :
    (d.suspendContext id).Shares traces (e.suspendContext id) := by
  have status : e.host.status (e.context id).thread = d.host.status (d.context id).thread := by
    rw [h.host, h.reads id (·.thread) fun _ _ => rfl]
  unfold Debugger.suspendContext
  rw [status]
  have alike {traces : Bool} (status : ThreadStatus) :
      Context.Bares traces (.suspend status) (.suspend status) := by
    cases status <;> exact fun _ => rfl
  exact h.updateContext id (alike _) (alike _)

theorem suspendAll (h : d.Shares traces e) (system : Nat) :
    Results (Shares traces) (d.suspendAll system) (e.suspendAll system) := by
  refine (h.otherContexts system).bind fun {x y} both => ?_
  obtain ⟨ids, d⟩ := x
  obtain ⟨_, e⟩ := y
  obtain ⟨rfl, made⟩ := both
  exact .ok (made.foldl (fun id h => h.suspendContext id) _)

theorem resumeAll (h : d.Shares traces e) (system : Nat) :
    Results (Shares traces) (d.resumeAll system) (e.resumeAll system) := by
  refine (h.otherContexts system).bind fun {x y} both => ?_
  obtain ⟨_, d⟩ := x
  obtain ⟨ids, e⟩ := y
  obtain ⟨rfl, made⟩ := both
  have resumed := made.foldl (f := fun d id => d.updateContext id Context.resume)
    (fun id h => h.updateContext id (g := Context.resume) (fun _ => rfl) fun _ => rfl) ids
  have wakes (id : ContextId) :=
    made.reads id (fun context => context.suspended && context.wasRunning) fun _ _ => rfl
  refine .ok ?_
  simp only [wakes]
  split
  · exact resumed.wakeUp
  · exact resumed

/-! ## Post-mortems -/

theorem setTracing (h : d.Shares traces e) {on on' : Bool} (same : on' = (traces && on)) :
    Shares traces { d with settings := { d.settings with tracing := on } }
      { e with settings := { e.settings with tracing := on' } } := by
  have set :=
    congrArg₂ (fun (d : Debugger) on => { d with settings := { d.settings with tracing := on } }) h same
  exact set

theorem enterPostMortem (h : d.Shares traces e) (system : Nat) :
    (d.enterPostMortem system).2.Shares traces (e.enterPostMortem system).2 ∧
      Results (Restores traces) (d.enterPostMortem system).1 (e.enterPostMortem system).1 := by
  obtain ⟨found, made⟩ := h.currentContext system
  unfold Debugger.enterPostMortem
  generalize d.currentContext system = x at found made ⊢
  generalize e.currentContext system = y at found made ⊢
  obtain ⟨_, d'⟩ := x
  obtain ⟨own, e'⟩ := y
  obtain rfl := found
  cases own with
  | error error => exact ⟨made, .error error⟩
  | ok id =>
      have suspended := made.suspendAll system
      dsimp only at made ⊢
      generalize d'.suspendAll system = x at suspended ⊢
      generalize e'.suspendAll system = y at suspended ⊢
      cases suspended with
      | error error => exact ⟨made, .error error⟩
      | ok shares =>
          have off : (traces && false) = false := Bool.and_false traces
          refine ⟨?_, .ok ⟨rfl, made.tracing_context id, made.tracing⟩⟩
          refine (shares.setTracing off.symm).updateContext id (g := ({ · with tracing := false })) ?_ ?_
          · exact fun context => congrArg (fun tracing => { context.bare traces with tracing }) off
          · exact fun _ => rfl

theorem leavePostMortem (h : d.Shares traces e) (system : Nat) {before before' : ContextId × Bool × Bool}
    (same : Restores traces before before') :
    Both traces (d.leavePostMortem system before) (e.leavePostMortem system before') := by
  have set := h.setTracing same.debugger
  have restored := set.command before.1 (f := fun context => .ok { context with tracing := before.2.2 })
    (g := fun context => .ok { context with tracing := traces && before.2.2 })
    (.ok (congrArg ({ · with tracing := traces && before.2.2 }) (set.context before.1)))
  simp only [Debugger.leavePostMortem, same.current, same.context]
  generalize Debugger.command _ _ _ = x at restored ⊢
  generalize Debugger.command _ _ _ = y at restored ⊢
  cases restored with
  | error error => exact ⟨rfl, set⟩
  | @ok d' e' shares =>
      have resumed := shares.resumeAll system
      dsimp only
      generalize d'.resumeAll system = x at resumed ⊢
      generalize e'.resumeAll system = y at resumed ⊢
      cases resumed with
      | error error => exact ⟨rfl, shares⟩
      | ok shares => exact ⟨rfl, shares⟩

end Shares

end Debugger

end EventDebugger
