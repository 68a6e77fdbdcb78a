import EventDebugger.Proofs.Handling
import EventDebugger.Proofs.Histories

/-!
# What lasts on a system thread

What a thread does on its system thread, apart from starts, stops and sections of its own, leaves the starts of the
debugger, its switch for post-mortems and the context of the thread as they are, with its mark for events that are
not handled.

* `Debugger.Edits.balances`, `Debugger.Touches.balances`: requests and pieces of dispatch.
* `Debugger.Reinstates.skips`: the mark, as a lookup of the context shows it.
-/

namespace EventDebugger

namespace Host

/-! ## The thread of a system thread -/

structure Attended (system : Nat) (before after : Host) : Prop where
  thread : (after.currentThread system).1 = (before.currentThread system).1
  alive : (after.currentThread system).2.isAlive (after.currentThread system).1 =
    (before.currentThread system).2.isAlive (before.currentThread system).1

variable {system : Nat} {a b c : Host}

theorem Attended.refl (system : Nat) (host : Host) : host.Attended system host := ⟨rfl, rfl⟩

theorem Attended.trans (ab : a.Attended system b) (bc : b.Attended system c) : a.Attended system c :=
  ⟨bc.thread.trans ab.thread, bc.alive.trans ab.alive⟩

theorem Met.attended (met : a.Met system b) : a.Attended system b := by
  rcases met with rfl | rfl
  · exact .refl _ _
  · have again := currentThread_of_bound (boundTo?_currentThread a system)
    exact ⟨congrArg (·.1) again, by rw [again]⟩

theorem identities_bind (host : Host) (system : Nat) (thread : Thread) :
    (host.bind system thread).identities = host.identities.map fun identity =>
      if identity.1 = thread then (identity.1, some system, identity.2.2) else identity := by
  simp only [identities, bind, updateThread, List.map_map]
  refine List.map_congr_left fun record _ => ?_
  simp only [Function.comp_apply]
  split <;> rfl

theorem identities_register (host : Host) (name : String) :
    (host.register name).2.identities =
      host.identities ++ [(⟨host.threadCount + 1, name⟩, none, true)] := List.map_append

theorem SameThreads.currentThread (same : a.SameThreads b) (system : Nat) :
    (b.currentThread system).1 = (a.currentThread system).1 ∧
      (a.currentThread system).2.SameThreads (b.currentThread system).2 := by
  have empty : b.threads.isEmpty = a.threads.isEmpty := by
    have listed := congrArg List.isEmpty same.identities
    simpa only [Host.identities, List.isEmpty_map] using listed
  have name : b.selfRegisteredName = a.selfRegisteredName := by
    rw [selfRegisteredName, empty, same.count, selfRegisteredName]
  have registered : (b.register b.selfRegisteredName).1 = (a.register a.selfRegisteredName).1 := by
    simp only [register, name, same.count]
  simp only [Host.currentThread, same.bound]
  split
  · exact ⟨rfl, same⟩
  · refine ⟨registered, ?_, ?_, ?_⟩
    · change _ :: List.filter _ b.bound = _ :: List.filter _ a.bound
      rw [registered, same.bound]
    · exact congrArg (· + 1) same.count
    · rw [identities_bind, identities_register, identities_bind, identities_register, same.identities, registered,
        name, same.count]

theorem SameThreads.attended (same : a.SameThreads b) (system : Nat) : a.Attended system b := by
  obtain ⟨thread, threads⟩ := same.currentThread system
  exact ⟨thread, by rw [threads.isAlive_eq, thread]⟩

end Host

namespace Debugger

variable {d d' d'' : Debugger} {system : Nat} {id : ContextId}

def Present (d : Debugger) (system : Nat) : Prop := (d.currentThread system).2.host.isAlive (d.currentThread system).1

def marked (d : Debugger) (system : Nat) : Bool :=
  (d.contextOf? (d.currentThread system).1).any fun id => (d.context id).skipped

/-- Whether events are not handled in the context of the thread of a system thread, as a lookup of it shows. -/
def skips (d : Debugger) (system : Nat) : Except Error Bool :=
  match d.currentContext system with
  | (.ok id, d) => .ok (d.context id).skipped
  | (.error error, _) => .error error

def Occupied (d : Debugger) (system : Nat) : Prop :=
  ∃ waiting, d.ticket = some (some (d.currentThread system).1, waiting)

/-! ## The mark of a context -/

theorem marked_of_found (found : d.contextOf? (d.currentThread system).1 = some id) :
    d.marked system = (d.context id).skipped := by
  rw [marked, found, Option.any_some]

theorem marked_of_unknown (unknown : d.contextOf? (d.currentThread system).1 = none) : d.marked system = false := by
  rw [marked, unknown, Option.any_none]

theorem marked_updateContext (found : d.contextOf? (d.currentThread system).1 = some id) (known : id < d.contexts.size)
    (f : Context → Context) : (d.updateContext id f).marked system = (f (d.context id)).skipped := by
  have found' : (d.updateContext id f).contextOf? ((d.updateContext id f).currentThread system).1 = some id := found
  rw [marked_of_found found', d.context_updateContext_self f known]

theorem skipped_track {session : Session} (active : d.session = some session) (thread : Thread) :
    ((d.track session thread).2.context (d.track session thread).1).skipped =
      (d.contextOf? thread).any fun id => (d.context id).skipped := by
  have found : d.contextOf? thread = session.table.find? thread := by rw [contextOf?, active, Option.bind_some]
  rw [found]
  simp only [track]
  split
  · next known => rw [known, Option.any_some, context, context]
  · next unknown =>
      rw [unknown, Option.any_none]
      have opens := d.opens_newContext thread
      exact (opens.fresh d.contexts.size (Nat.le_refl _) (by rw [size_newContext]; exact Nat.lt_succ_self _)).2

theorem skips_eq (d : Debugger) (system : Nat) :
    d.skips system = if d.isStarted then
        if (d.currentThread system).2.host.isAlive (d.currentThread system).1 then .ok (d.marked system)
        else .error (.untrackedThread (d.currentThread system).1.text)
      else .error .notStarted := by
  simp only [skips, currentContext, threadContext, activeSession]
  cases active : d.session with
  | none =>
      have inactive : (d.currentThread system).2.session = none := active
      simp only [isStarted, active, inactive]
      rfl
  | some session =>
      have active' : (d.currentThread system).2.session = some session := active
      have started : d.isStarted = true := by rw [isStarted, active]; rfl
      simp only [active', started, if_true]
      by_cases alive : (d.currentThread system).2.host.isAlive (d.currentThread system).1
      · have mark := skipped_track active' (d.currentThread system).1
        simp only [if_pos alive]
        exact congrArg Except.ok mark
      · simp only [if_neg alive]
        rfl

/-! ## The thread and its context last -/

structure Lasts (system : Nat) (d d' : Debugger) : Prop where
  history : History d d'
  host : d.host.Attended system d'.host
  found : d.Regular → d.Present system → ∀ {id}, d.contextOf? (d.currentThread system).1 = some id →
    d'.contextOf? (d.currentThread system).1 = some id
  marked : d.Regular → d.Present system → d'.marked system = d.marked system

structure Balances (system : Nat) (d d' : Debugger) : Prop extends Lasts system d d' where
  startCount : d'.startCount = d.startCount
  started : d'.isStarted = d.isStarted
  postMortem : d'.settings.postMortem = d.settings.postMortem

structure Reinstates (system : Nat) (d d' : Debugger) : Prop extends Balances system d d' where
  occupied : d.Occupied system → d'.Occupied system

theorem Present.of_attended (present : d.Present system) (host : d.host.Attended system d'.host) :
    d'.Present system := host.alive.trans present

theorem Occupied.of_attended (occupied : d.Occupied system) (host : d.host.Attended system d'.host)
    (ticket : d'.ticket = d.ticket) : d'.Occupied system := by
  obtain ⟨waiting, held⟩ := occupied
  refine ⟨waiting, ticket.trans (held.trans ?_)⟩
  rw [show (d'.currentThread system).1 = (d.currentThread system).1 from host.thread]

theorem Lasts.thread (lasts : Lasts system d d') : (d'.currentThread system).1 = (d.currentThread system).1 :=
  lasts.host.thread

theorem Lasts.trans (first : Lasts system d d') (second : Lasts system d' d'') : Lasts system d d'' where
  history := first.history.trans second.history
  host := first.host.trans second.host
  found regular present _ is := by
    have later := first.found regular present is
    rw [← first.thread] at later ⊢
    exact second.found (first.history.regular regular) (present.of_attended first.host) later
  marked regular present := by
    rw [second.marked (first.history.regular regular) (present.of_attended first.host), first.marked regular present]

theorem Balances.trans (first : Balances system d d') (second : Balances system d' d'') : Balances system d d'' :=
  ⟨first.toLasts.trans second.toLasts, second.startCount.trans first.startCount, second.started.trans first.started,
    second.postMortem.trans first.postMortem⟩

theorem Reinstates.trans (first : Reinstates system d d') (second : Reinstates system d' d'') :
    Reinstates system d d'' :=
  ⟨first.toBalances.trans second.toBalances, fun held => second.occupied (first.occupied held)⟩

theorem lasts_of_session (history : History d d') (host : d.host.Attended system d'.host)
    (session : d'.session = d.session) (contexts : d'.contexts = d.contexts) : Lasts system d d' := by
  have same (thread : Thread) : d'.contextOf? thread = d.contextOf? thread := contextOf?_congr session thread
  refine ⟨history, host, fun _ _ _ is => (same _).trans is, fun _ _ => ?_⟩
  have thread : (d'.currentThread system).1 = (d.currentThread system).1 := host.thread
  simp only [Debugger.marked, thread, same, context, contexts]

theorem Reinstates.refl (system : Nat) (d : Debugger) : Reinstates system d d :=
  ⟨⟨lasts_of_session .refl (.refl _ _) rfl rfl, rfl, rfl, rfl⟩, fun held => held⟩

theorem Regular.alive_of_found (regular : d.Regular) (present : d.Present system)
    (found : d.contextOf? (d.currentThread system).1 = some id) : d.host.isAlive (d.currentThread system).1 := by
  cases bound : d.host.boundTo? system with
  | some thread =>
      have here := Host.currentThread_of_bound bound
      simp only [Present, currentThread, here] at present
      simpa only [currentThread, here] using present
  | none =>
      -- A thread that is registered in passing has no context.
      have counted := regular.counted found
      rw [Host.boundTo?] at bound
      simp only [currentThread, Host.currentThread, bound, Host.register] at counted
      exact absurd counted (Nat.not_succ_le_self _)

theorem Edits.balances (edits : Edits system d d') (history : History d d') : Balances system d d' := by
  have remains := edits.remains
  refine ⟨⟨history, remains.host.attended, fun regular present id found => ?_, fun regular present => ?_⟩,
    remains.startCount, remains.started, remains.postMortem⟩
  · exact remains.found regular.numbered.wellTracked.1 (regular.alive_of_found present found) found
  · have well := regular.numbered.wellTracked.1
    have thread : (d'.currentThread system).1 = (d.currentThread system).1 := remains.host.attended.thread
    cases found : d.contextOf? (d.currentThread system).1 with
    | some id =>
        have found' := remains.found well (regular.alive_of_found present found) found
        rw [marked_of_found found, marked_of_found (thread ▸ found')]
        exact congrArg (·.2.2.1) (remains.identity id (well.known found).1)
    | none =>
        rw [marked_of_unknown found]
        cases found' : d'.contextOf? (d'.currentThread system).1 with
        | none => exact marked_of_unknown found'
        | some id =>
            rw [marked_of_found found']
            rcases remains.origin well found' with old | new
            · rw [thread, found] at old
              cases old
            · exact remains.fresh id new ((remains.tracked well).known found').1

theorem Edits.reinstates (edits : Edits system d d') (history : History d d') (ticket : d'.ticket = d.ticket) :
    Reinstates system d d' :=
  ⟨edits.balances history, fun held => held.of_attended edits.remains.host.attended ticket⟩

theorem Touches.reinstates (touches : Touches system id d d') (history : History d d') : Reinstates system d d' := by
  have thread : (d'.currentThread system).1 = (d.currentThread system).1 := touches.host.attended.thread
  have same (thread : Thread) : d'.contextOf? thread = d.contextOf? thread := contextOf?_congr touches.session thread
  refine ⟨⟨⟨history, touches.host.attended, fun _ _ _ is => (same _).trans is, fun regular _ => ?_⟩, ?_, ?_, ?_⟩,
    fun held => held.of_attended touches.host.attended touches.keeps.ticket⟩
  · cases found : d.contextOf? (d.currentThread system).1 with
    | some own =>
        have found' : d'.contextOf? (d'.currentThread system).1 = some own := by rw [thread, same, found]
        rw [marked_of_found found, marked_of_found found']
        exact congrArg (·.2.2.2.2.1) (touches.traits own (regular.numbered.wellTracked.1.known found).1)
    | none =>
        have found' : d'.contextOf? (d'.currentThread system).1 = none := by rw [thread, same, found]
        rw [marked_of_unknown found, marked_of_unknown found']
  · exact congrArg (·.startCount) touches.rest
  · rw [isStarted, touches.session, isStarted]
  · rw [touches.settings]

theorem Balances.skips (balances : Balances system d d') (regular : d.Regular) : d'.skips system = d.skips system := by
  have thread : (d'.currentThread system).1 = (d.currentThread system).1 := balances.host.thread
  have alive : (d'.currentThread system).2.host.isAlive (d'.currentThread system).1 =
      (d.currentThread system).2.host.isAlive (d.currentThread system).1 := balances.host.alive
  rw [skips_eq, skips_eq, balances.started, alive, thread]
  by_cases present : d.Present system
  · rw [balances.marked regular present]
  · have absent : (d.currentThread system).2.host.isAlive (d.currentThread system).1 = false :=
      eq_false_of_ne_true present
    simp only [absent, Bool.false_eq_true, if_false]

/-! ## Starts are counted -/

/-- The numbers of contexts and the table are in order, and the debugger is active as long as its starts prevail. -/
structure Settled (d : Debugger) : Prop where
  regular : d.Regular
  counted : d.isStarted ↔ 0 < d.startCount

theorem Balances.settled (balances : Balances system d d') (settled : d.Settled) : d'.Settled := by
  refine ⟨balances.history.regular settled.regular, ?_⟩
  rw [balances.started, balances.startCount]
  exact settled.counted

theorem counted_forceStop (d : Debugger) : d.forceStop.isStarted ↔ 0 < d.forceStop.startCount := by
  have none : d.forceStop.startCount = 0 := by
    simp only [forceStop]
    split <;> rfl
  rw [isStarted_forceStop, none]
  exact iff_of_false Bool.false_ne_true (Nat.lt_irrefl 0)

theorem Turns.counted (turns : Turns d d') (counted : d.isStarted ↔ 0 < d.startCount) :
    d'.isStarted ↔ 0 < d'.startCount := by
  cases turns with
  | refused | postMortem => exact counted
  | start =>
      have started : d.start.2.isStarted ∧ d.start.2.startCount = d.startCount + 1 := by
        cases active : d.session <;> simp only [Debugger.start, active, isStarted, Option.isSome_some, and_self]
      rw [started.2]
      exact iff_of_true started.1 (Nat.succ_pos _)
  | stop stopped =>
      obtain ⟨_, active, stopped⟩ := except_bind_eq_ok stopped
      simp only at stopped
      split at stopped
      · next left =>
          cases stopped
          exact iff_of_true (congrArg Option.isSome (activeSession_eq_ok active)) left
      · next none =>
          cases stopped
          exact iff_of_false Bool.false_ne_true none
  | forceStop => exact d.counted_forceStop

theorem Operates.settled (operates : Operates d d') (settled : d.Settled) : d'.Settled := by
  refine ⟨operates.regular settled.regular, ?_⟩
  have counted := settled.counted
  cases operates.shape with
  | edits system edits =>
      rw [edits.remains.started, edits.remains.startCount]
      exact counted
  | touches system id touches =>
      rw [isStarted, touches.session, show d'.startCount = d.startCount from congrArg (·.startCount) touches.rest]
      exact counted
  | exits system id last touches ended =>
      rw [ended]
      exact last.counted_forceStop
  | turns turns => exact turns.counted counted
  | skips id on same =>
      rw [same]
      exact counted
  | host host operates same =>
      rw [same]
      exact counted

theorem History.settled (history : History d d') (settled : d.Settled) : d'.Settled := by
  induction history with
  | refl => exact settled
  | tail _ operates ih => exact operates.settled ih

theorem settled_initial (settings : Settings) : (initial settings).Settled :=
  ⟨regular_initial settings, iff_of_false Bool.false_ne_true (Nat.lt_irrefl 0)⟩

end Debugger

end EventDebugger
