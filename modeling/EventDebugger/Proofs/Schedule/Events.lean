import EventDebugger.Proofs.Schedule.Recording
import EventDebugger.Proofs.Ticket.Operations

/-!
# Whole events

Events that are handled one at a time, on threads that are bound, always get the ticket. What is done
for the event of a thread leaves the contexts of all other threads and what all threads share alone.

* `Debugger.Quiet.handleEvent`: what one event does.
* `alike_handleEvent`: the same event in two runs.
-/

namespace EventDebugger

namespace Debugger

structure Numbered (d : Debugger) : Prop where
  count : d.contextCount = d.contexts.size
  contexts : ∀ id < d.contexts.size, (d.context id).number = id + 1 ∧ (d.context id).suspended = false

structure Quiet (d : Debugger) : Prop where
  ticket : d.ticket = some (none, [])
  well : d.WellTracked
  numbered : d.Numbered
  live : d.settings.postMortem = false
  unkept : d.postMortems = []

structure DoneFor (thread : Thread) (d d' : Debugger) : Prop where
  rules : d'.rules = d.rules
  host : d'.host = d.host
  kept : d.settings.postMortem = false → d'.postMortems = d.postMortems
  size : d.contexts.size ≤ d'.contexts.size
  others : ∀ id < d.contexts.size, (d.context id).thread ≠ thread → d'.context id = d.context id
  home : ∀ id < d.contexts.size, (d'.context id).thread = (d.context id).thread
  fresh : ∀ id, d.contexts.size ≤ id → id < d'.contexts.size → (d'.context id).thread = thread
  numbered : d.Numbered → d'.Numbered
  tracked : d.WellTracked → d'.WellTracked
  found : d.WellTracked → ∀ {other id}, d.host.isAlive other → d.contextOf? other = some id →
    d'.contextOf? other = some id
  origin : d.WellTracked → ∀ {other id}, d'.contextOf? other = some id →
    d.contextOf? other = some id ∨ d.contexts.size ≤ id

def contextFor? (d : Debugger) (thread : Thread) : Option Context := (d.contextOf? thread).map d.context

def owner? (d : Debugger) (number : Nat) : Option Thread :=
  (d.contexts.toList.find? fun context => context.number == number).map (·.thread)

theorem Numbered.owner?_eq {d : Debugger} (h : d.Numbered) {id : ContextId} (known : id < d.contexts.size) :
    d.owner? (id + 1) = some (d.context id).thread := by
  have read {i : Nat} (inside : i < d.contexts.toList.length) : d.contexts.toList[i] = d.context i := by
    simp only [Array.length_toList] at inside
    simp [context, Array.getD_eq_getD_getElem?, inside]
  have found : d.contexts.toList.find? (fun context => context.number == id + 1) = some (d.context id) := by
    refine List.find?_eq_some_iff_getElem.mpr ⟨by simp [(h.contexts id known).1], id, by simpa, read _, ?_⟩
    intro j before
    have earlier := (h.contexts j (Nat.lt_trans before known)).1
    rw [read]
    simp only [earlier, Bool.not_eq_eq_eq_not, Bool.not_true, beq_eq_false_iff_ne, ne_eq, Nat.add_right_cancel_iff]
    omega
  simp only [owner?, found, Option.map_some]

theorem Numbered.of_owner? {d : Debugger} (h : d.Numbered) {number : Nat} {thread : Thread}
    (owned : d.owner? number = some thread) :
    ∃ id < d.contexts.size, number = id + 1 ∧ (d.context id).thread = thread := by
  obtain ⟨context, found, rfl⟩ := Option.map_eq_some_iff.mp owned
  obtain ⟨member, id, inside, rfl, _⟩ := List.find?_eq_some_iff_getElem.mp found
  simp only [Array.length_toList] at inside
  have read : d.contexts.toList[id] = d.context id := by
    simp [Debugger.context, Array.getD_eq_getD_getElem?, inside]
  rw [read] at member ⊢
  exact ⟨id, inside, by rw [← (h.contexts id inside).1, eq_of_beq member], rfl⟩

theorem Numbered.of_touches {d d' : Debugger} (h : d.Numbered) {system : Nat} {id : ContextId}
    (touches : Touches system id d d') (live : d.settings.postMortem = false) : d'.Numbered := by
  have size := (touches.kept live).2
  refine ⟨?_, fun other known => ?_⟩
  · rw [size, ← h.count]
    exact congrArg (·.contextCount) touches.rest
  · rw [size] at known
    have traits := touches.traits other known
    have number : (d'.context other).number = (d.context other).number := congrArg (·.2.1) traits
    have suspended : (d'.context other).suspended = (d.context other).suspended :=
      congrArg (·.2.2.1) traits
    rw [number, suspended]
    exact h.contexts other known

namespace DoneFor

variable {thread : Thread} {d d' d'' : Debugger}

theorem settings_eq (h : DoneFor thread d d') : d'.settings = d.settings := congrArg (·.1) h.rules

theorem trans (first : DoneFor thread d d') (second : DoneFor thread d' d'') : DoneFor thread d d'' where
  rules := second.rules.trans first.rules
  host := second.host.trans first.host
  kept off := by rw [second.kept (first.settings_eq.symm ▸ off), first.kept off]
  size := Nat.le_trans first.size second.size
  others id known ne := by
    have ne' : (d'.context id).thread ≠ thread := (first.home id known).symm ▸ ne
    rw [second.others id (Nat.lt_of_lt_of_le known first.size) ne', first.others id known ne]
  home id known := by rw [second.home id (Nat.lt_of_lt_of_le known first.size), first.home id known]
  fresh id unknown known := by
    by_cases old : id < d'.contexts.size
    · rw [second.home id old, first.fresh id unknown old]
    · exact second.fresh id (Nat.le_of_not_lt old) known
  numbered h := second.numbered (first.numbered h)
  tracked h := second.tracked (first.tracked h)
  found well _ _ alive is :=
    second.found (first.tracked well) (first.host.symm ▸ alive) (first.found well alive is)
  origin well _ _ is := by
    rcases second.origin (first.tracked well) is with old | new
    · exact first.origin well old
    · exact .inr (Nat.le_trans first.size new)

theorem of_tracks (tracks : Tracks d d') (rules : d'.rules = d.rules) (host : d'.host = d.host)
    (kept : d'.postMortems = d.postMortems) (contexts : d'.contexts = d.contexts)
    (count : d'.contextCount = d.contextCount) : DoneFor thread d d' := by
  have same (id : ContextId) : d'.context id = d.context id := by rw [context, contexts, context]
  refine ⟨rules, host, fun _ => kept, Nat.le_of_eq (by rw [contexts]), fun id _ _ => same id,
    fun id _ => by rw [same], fun id unknown known => ?_, fun h => ⟨?_, fun id known => ?_⟩,
    tracks.tracked, tracks.found, tracks.origin⟩
  · rw [contexts] at known
    exact absurd known (Nat.not_lt.mpr unknown)
  · rw [count, contexts, h.count]
  · rw [contexts] at known
    rw [same]
    exact h.contexts id known

theorem of_touches {system : Nat} {id : ContextId} (touches : Touches system id d d')
    (live : d.settings.postMortem = false) (bound : d.host.boundTo? system = some thread)
    (own : (d.context id).thread = thread) : DoneFor thread d d' := by
  have host := touches.host.eq_of_bound bound
  have session (other : Thread) : d'.contextOf? other = d.contextOf? other := by
    rw [contextOf?, touches.session, contextOf?]
  have size := (touches.kept live).2
  refine ⟨?_, host, fun off => (touches.kept off).1, touches.size, fun other known ne => ?_,
    fun other known => congrArg (·.1) (touches.traits other known), fun other unknown known => ?_,
    fun h => h.of_touches touches live, fun well => ⟨fun active => ?_, fun active stored => ?_⟩,
    fun _ _ _ _ is => (session _).trans is, fun _ _ _ is => .inl ((session _).symm.trans is)⟩
  · unfold Debugger.rules
    rw [touches.rest, host]
  · refine touches.others other known fun same => ne ?_
    rw [same, own]
  · omega
  · rw [touches.session] at active
    exact well.coherent active
  · rw [touches.session] at active
    obtain ⟨known, home⟩ := well.home active stored
    exact ⟨Nat.lt_of_lt_of_le known touches.size, (congrArg (·.1) (touches.traits _ known)).trans home⟩

theorem contextFor?_eq (h : DoneFor thread d d') (well : d.WellTracked) {other : Thread}
    (alive : d.host.isAlive other) (ne : other ≠ thread) : d'.contextFor? other = d.contextFor? other := by
  unfold contextFor?
  cases before : d.contextOf? other with
  | some id =>
      obtain ⟨known, home⟩ := well.known before
      rw [h.found well alive before, Option.map_some, Option.map_some, h.others id known (home ▸ ne)]
  | none =>
      cases after : d'.contextOf? other with
      | none => rfl
      | some id =>
          obtain ⟨known, home⟩ := (h.tracked well).known after
          rcases h.origin well after with old | new
          · rw [before] at old
            cases old
          · exact absurd (home.symm.trans (h.fresh id new known)) ne

theorem owner?_eq (h : DoneFor thread d d') (numbered : d.Numbered) {number : Nat} {other : Thread}
    (owned : d.owner? number = some other) : d'.owner? number = some other := by
  obtain ⟨id, known, rfl, home⟩ := numbered.of_owner? owned
  rw [(h.numbered numbered).owner?_eq (Nat.lt_of_lt_of_le known h.size), h.home id known, home]

end DoneFor

/-! ## Arrival -/

theorem context_newContext (d : Debugger) (thread : Thread) :
    (d.newContext thread).2.context d.contexts.size =
      .initial thread (d.contextCount + 1) (d.host.isDebuggerThread thread) :=
  context_addContext_new { d with contextCount := d.contextCount + 1 } _

theorem numbered_newContext {d : Debugger} (h : d.Numbered) (thread : Thread) :
    (d.newContext thread).2.Numbered := by
  have size := d.size_newContext thread
  refine ⟨?_, fun id known => ?_⟩
  · rw [size, ← h.count]
    rfl
  · by_cases old : id < d.contexts.size
    · rw [(d.opens_newContext thread).old id old]
      exact h.contexts id old
    · obtain rfl : id = d.contexts.size := by omega
      rw [context_newContext, ← h.count]
      exact ⟨rfl, rfl⟩

theorem doneFor_track {d : Debugger} {session : Session} (active : d.session = some session)
    (thread : Thread) : DoneFor thread d (d.track session thread).2 := by
  have tracks := tracks_track active thread
  have rules : (d.track session thread).2.rules = d.rules := by
    simp only [track]
    split <;> (simp only [Debugger.rules, active, Option.map_some]; try rfl)
  revert tracks rules
  simp only [track]
  split
  · intro tracks rules
    exact .of_tracks tracks rules rfl rfl rfl rfl
  · intro tracks rules
    have opens := d.opens_newContext thread
    have size := d.size_newContext thread
    refine ⟨rules, rfl, fun _ => rfl, opens.size, fun id known _ => opens.old id known,
      fun id known => congrArg (·.thread) (opens.old id known), fun id unknown known => ?_,
      fun h => ?_, tracks.tracked, tracks.found, tracks.origin⟩
    · obtain rfl : id = d.contexts.size := by
        change id < (d.newContext thread).2.contexts.size at known
        omega
      exact d.thread_newContext thread
    · have numbered := numbered_newContext h thread
      exact ⟨numbered.count, numbered.contexts⟩

def counted (d : Debugger) : Debugger := { d with eventCount := d.eventCount + 1 }

theorem arrive_of_bound {d : Debugger} {session : Session} (active : d.session = some session)
    {system : Nat} {thread : Thread} (bound : d.host.boundTo? system = some thread) (event : Event) :
    d.arrive system event =
      if Host.isAllocator event.method then (none, d.counted)
      else
        let tracked := d.counted.track session thread
        if (tracked.2.context tracked.1).ignored then (none, tracked.2)
        else (some (thread, tracked.1), tracked.2) := by
  simp only [arrive, isStarted, active, Option.isSome_some, if_true, currentThread,
    Host.currentThread_of_bound bound, counted]

theorem Quiet.of_doneFor {d d' : Debugger} {thread : Thread} (h : d.Quiet) (done : DoneFor thread d d')
    (ticket : d'.ticket = some (none, [])) : d'.Quiet :=
  ⟨ticket, done.tracked h.well, done.numbered h.numbered, by rw [done.settings_eq, h.live],
    (done.kept h.live).trans h.unkept⟩

theorem Quiet.withHost {d : Debugger} (h : d.Quiet) (host : Host) : ({ d with host } : Debugger).Quiet :=
  ⟨h.ticket, ⟨h.well.coherent, h.well.home⟩, ⟨h.numbered.count, h.numbered.contexts⟩, h.live, h.unkept⟩

theorem Quiet.active {d : Debugger} (h : d.Quiet) :
    ∃ session, d.session = some session ∧ session.holder = none ∧ session.waiting = [] := by
  obtain ⟨session, active, same⟩ := Option.map_eq_some_iff.mp h.ticket
  exact ⟨session, active, congrArg (·.1) same, congrArg (·.2) same⟩

theorem Quiet.arrive {d : Debugger} (h : d.Quiet) {system : Nat} {thread : Thread}
    (bound : d.host.boundTo? system = some thread) (event : Event) :
    (d.arrive system event).2.Quiet ∧ DoneFor thread d (d.arrive system event).2 ∧
      ∀ {other id}, (d.arrive system event).1 = some (other, id) →
        other = thread ∧ (d.arrive system event).2.contextOf? thread = some id := by
  obtain ⟨session, active, _⟩ := h.active
  have active' : d.counted.session = some session := active
  have counted : DoneFor thread d d.counted :=
    .of_tracks (.of_same rfl (.refl _) rfl rfl fun _ => rfl) rfl rfl rfl rfl rfl
  have tracked := counted.trans (doneFor_track active' thread)
  have ticket := ticket_track active' thread
  have found := contextOf?_track d.counted session thread
  rw [arrive_of_bound active bound]
  split
  · exact ⟨h.of_doneFor counted h.ticket, counted, nofun⟩
  · simp only
    split
    · exact ⟨h.of_doneFor tracked (ticket.trans h.ticket), tracked, nofun⟩
    · refine ⟨h.of_doneFor tracked (ticket.trans h.ticket), tracked, fun is => ?_⟩
      cases is
      exact ⟨rfl, found⟩

/-! ## Handling -/

def hold (d : Debugger) (thread : Thread) : Debugger :=
  { d with session := d.session.map fun session => { session with holder := some thread } }

theorem Quiet.contend_eq {d : Debugger} (h : d.Quiet) {thread : Thread} {id : ContextId}
    (found : d.contextOf? thread = some id) : d.contend thread id false = (.ticket, d.hold thread) := by
  obtain ⟨session, active, free, _⟩ := h.active
  have awake := (h.numbered.contexts id (h.well.known found).1).2
  simp only [contend, active, free, letIn, awake, hold, Option.map_some, Bool.false_eq_true, if_false]

theorem doneFor_hold (d : Debugger) (thread : Thread) : DoneFor thread d (d.hold thread) := by
  have table : (d.hold thread).session.map (·.table) = d.session.map (·.table) := by
    simp only [hold, Option.map_map]
    rfl
  refine .of_tracks (.of_same table (.refl _) rfl rfl fun _ => rfl) ?_ rfl rfl rfl rfl
  simp only [Debugger.rules, hold, Option.map_map]
  rfl

theorem doneFor_release (d : Debugger) (thread : Thread) : DoneFor thread d d.release := by
  have tracks := d.tracks_release
  revert tracks
  simp only [release]
  cases active : d.session with
  | none =>
      intro tracks
      exact .of_tracks tracks rfl rfl rfl rfl rfl
  | some session =>
      simp only [pruneWhenDue]
      split
      · intro tracks
        refine .of_tracks tracks ?_ rfl rfl rfl rfl
        simp only [Debugger.rules, active]
        rfl
      · intro tracks
        refine .of_tracks tracks ?_ rfl rfl rfl rfl
        simp only [Debugger.rules, active]
        rfl

end Debugger

variable {d : Debugger} {system : Nat} {thread : Thread}

theorem Debugger.Quiet.handled_eq (h : d.Quiet) (bound : d.host.boundTo? system = some thread)
    (event : Event) (r : Recorder) :
    handleEvent Recorder.frontEnd system event (d, r) =
      match d.arrive system event with
      | (none, d) => (.finished (.ok ()), d, r)
      | (some (_, id), d) =>
          let handled := handleWithTicket Recorder.frontEnd system id event (d.hold thread, r)
          (.finished handled.1, handled.2) := by
  obtain ⟨quiet, _, arrived⟩ := h.arrive bound event
  rw [handleEvent_eq]
  generalize d.arrive system event = arrival at quiet arrived ⊢
  obtain ⟨who, d₁⟩ := arrival
  cases who with
  | none => rfl
  | some who =>
      obtain ⟨other, id⟩ := who
      obtain ⟨rfl, found⟩ := arrived rfl
      simp only [contendAndHandle_eq, quiet.contend_eq found]

structure Handled (thread : Thread) (before after : Debugger × Recorder) : Prop where
  quiet : after.1.Quiet
  doneFor : before.1.DoneFor thread after.1
  mode : after.2.mode = before.2.mode
  announced : after.2.announced = none
  records : ∃ new, after.2.records.toList = before.2.records.toList ++ new ∧
    ∀ record ∈ new, after.1.owner? record.number = some thread

theorem Handled.after {d₀ : Debugger} {r : Recorder} {after : Debugger × Recorder}
    (before : d₀.DoneFor thread d) (h : Handled thread (d, r) after) : Handled thread (d₀, r) after :=
  ⟨h.quiet, before.trans h.doneFor, h.mode, h.announced, h.records⟩

theorem Debugger.Quiet.handledWithTicket (h : d.Quiet) (bound : d.host.boundTo? system = some thread)
    {id : ContextId} (found : d.contextOf? thread = some id) {event : Event}
    (stays : event.isExit = false) {r : Recorder} (settled : r.announced = none) :
    Handled thread (d, r) (handleWithTicket Recorder.frontEnd system id event (d.hold thread, r)).2 := by
  have held := d.doneFor_hold thread
  have known : id < (d.hold thread).contexts.size := (h.well.known found).1
  have home : ((d.hold thread).context id).thread = thread := (h.well.known found).2
  have ticket : (d.hold thread).ticket = some (some thread, []) := by
    obtain ⟨session, active, _, waiting⟩ := h.active
    simp only [Debugger.ticket, Debugger.hold, active, Option.map_some, waiting]
  have dispatched := (d.hold thread).touches_dispatch system id event stays
  obtain ⟨driven, used⟩ := Recorder.records_drive _ r id system _ ((d.hold thread).about_dispatch system id event)
    (Nat.le_refl _) (Nat.lt_of_lt_of_le known dispatched.size) settled
  have records := (Recorder.Records.of_touches dispatched r r.announced).trans known driven
  have number : ((d.hold thread).context id).number = id + 1 := (h.numbered.contexts id known).1
  simp only [handleWithTicket_eq, Outcome.complete]
  generalize Outcome.drive Recorder.frontEnd system id _ _ _ = handled at used records ⊢
  obtain ⟨result, d', r'⟩ := handled
  obtain ⟨touches, new, adds⟩ := records
  simp only [number] at adds
  have done := held.trans (.of_touches touches h.live bound home)
  have released := done.trans (d'.doneFor_release thread)
  have quiet : d'.release.Quiet := by
    refine h.of_doneFor released ?_
    rw [Debugger.ticket_release, touches.keeps.ticket, ticket]
    rfl
  refine ⟨quiet, released, adds.mode, used, new, adds.records, fun record member => ?_⟩
  rw [adds.numbered record member, quiet.numbered.owner?_eq (Nat.lt_of_lt_of_le known released.size),
    released.home id known]
  exact congrArg some home

theorem Debugger.Quiet.handled (h : d.Quiet) (bound : d.host.boundTo? system = some thread)
    {event : Event} (stays : event.isExit = false) {r : Recorder} (settled : r.announced = none) :
    ∃ result after, handleEvent Recorder.frontEnd system event (d, r) = (.finished result, after) ∧
      Handled thread (d, r) after := by
  obtain ⟨quiet, arrives, arrived⟩ := h.arrive bound event
  rw [h.handled_eq bound]
  generalize d.arrive system event = arrival at quiet arrives arrived ⊢
  obtain ⟨who, d₁⟩ := arrival
  cases who with
  | none =>
      refine ⟨_, _, rfl, quiet, arrives, rfl, settled, [], (List.append_nil _).symm, fun _ member => ?_⟩
      cases member
  | some who =>
      obtain ⟨other, id⟩ := who
      obtain ⟨rfl, found⟩ := arrived rfl
      have bound' : d₁.host.boundTo? system = some other := arrives.host ▸ bound
      exact ⟨_, _, rfl, (quiet.handledWithTicket bound' found stays settled).after arrives⟩

/-! ## The same event in two runs -/

theorem Debugger.context_track {session : Session} (active : d.session = some session) (thread : Thread) :
    (d.track session thread).2.context (d.track session thread).1 =
      (d.contextFor? thread).getD
        (.initial thread (d.contextCount + 1) (d.host.isDebuggerThread thread)) := by
  have tracked : d.contextOf? thread = session.table.find? thread := by rw [contextOf?, active, Option.bind_some]
  simp only [contextFor?, tracked, track]
  split
  · next id found =>
      rw [found]
      rfl
  · next unknown =>
      rw [unknown]
      exact d.context_newContext thread

theorem Debugger.context_release (d : Debugger) (id : ContextId) : d.release.context id = d.context id := by
  simp only [release]
  split
  · rfl
  · simp only [pruneWhenDue]
    split <;> rfl

theorem Outcome.Alike.rank_eq {id id' : ContextId} {o o' : Outcome} (h : o.Alike id id' o') :
    o'.rank = o.rank := by
  cases h <;> rfl

theorem Event.Alike.isExit_eq {m : Matching} {event event' : Event} (h : event.Alike m event') :
    event'.isExit = event.isExit := by
  cases h with
  | intro kinds =>
      unfold isExit
      generalize event.kind = kind at kinds
      cases kinds <;> rfl

structure Debugger.Matches (m : Matching) (system : Nat) (thread : Thread) (a b : Debugger) : Prop where
  quiet : a.Quiet
  quiet' : b.Quiet
  bound : a.host.boundTo? system = some thread
  bound' : b.host.boundTo? system = some thread
  alive : a.host.isAlive thread
  alive' : b.host.isAlive thread
  rules : b.rules = a.rules
  hosts : a.host.Alike m thread b.host
  contexts : Option.Rel (Context.Alike m) (a.contextFor? thread) (b.contextFor? thread)

namespace Debugger.Matches

variable {m : Matching} {a b : Debugger} (h : a.Matches m system thread b)
include h

theorem after {a' b' : Debugger} (done : a.DoneFor thread a') (done' : b.DoneFor thread b')
    (quiet : a'.Quiet) (quiet' : b'.Quiet)
    (contexts : Option.Rel (Context.Alike m) (a'.contextFor? thread) (b'.contextFor? thread)) :
    a'.Matches m system thread b' := by
  refine ⟨quiet, quiet', ?_, ?_, ?_, ?_, ?_, ?_, contexts⟩
  · exact done.host ▸ h.bound
  · exact done'.host ▸ h.bound'
  · exact done.host ▸ h.alive
  · exact done'.host ▸ h.alive'
  · rw [done.rules, done'.rules, h.rules]
  · rw [done.host, done'.host]
    exact h.hosts

theorem arrive {event event' : Event} (events : event.Alike m event') :
    (a.arrive system event).2.Matches m system thread (b.arrive system event').2 ∧
      (b.arrive system event').1.isSome = (a.arrive system event).1.isSome := by
  obtain ⟨quiet, done, _⟩ := h.quiet.arrive h.bound event
  obtain ⟨quiet', done', _⟩ := h.quiet'.arrive h.bound' event'
  obtain ⟨session, active, _⟩ := h.quiet.active
  obtain ⟨session', active', _⟩ := h.quiet'.active
  have method : event'.method = event.method := by cases events; rfl
  have track := context_track (d := a.counted) active thread
  have track' := context_track (d := b.counted) active' thread
  have found := contextOf?_track a.counted session thread
  have found' := contextOf?_track b.counted session' thread
  -- The contexts of the thread, made now if there are none yet.
  have alike : ((a.counted.track session thread).2.context (a.counted.track session thread).1).Alike m
      ((b.counted.track session' thread).2.context (b.counted.track session' thread).1) := by
    have ofDebugger : b.counted.host.isDebuggerThread thread = a.counted.host.isDebuggerThread thread :=
      h.hosts.ofDebugger
    have contexts : Option.Rel (Context.Alike m) (a.counted.contextFor? thread)
      (b.counted.contextFor? thread) := h.contexts
    rw [track, track', ofDebugger]
    generalize a.counted.contextFor? thread = before at contexts
    generalize b.counted.contextFor? thread = before' at contexts
    cases contexts with
    | none => exact .intro (.initial thread _ _) _ .nil
    | some alike => exact alike
  revert quiet done quiet' done'
  rw [arrive_of_bound active h.bound, arrive_of_bound active' h.bound', method]
  split
  · intro quiet done quiet' done'
    exact ⟨h.after done done' quiet quiet' h.contexts, rfl⟩
  · simp only [alike.ignored_eq]
    generalize a.counted.track session thread = tracked at found alike ⊢
    generalize b.counted.track session' thread = tracked' at found' alike ⊢
    have contexts : Option.Rel (Context.Alike m) (tracked.2.contextFor? thread)
        (tracked'.2.contextFor? thread) := by
      unfold contextFor?
      rw [found, found']
      exact .some alike
    split
    all_goals
      intro quiet done quiet' done'
      exact ⟨h.after done done' quiet quiet' contexts, rfl⟩

variable {event event' : Event} (events : event.Alike m event') (stays : event.isExit = false)
  {ra rb : Recorder} (mode : rb.mode = ra.mode) (settled : ra.announced = none)
  (settled' : rb.announced = none)
include events stays mode settled settled'

theorem handleWithTicket {id id' : ContextId} (found : a.contextOf? thread = some id)
    (found' : b.contextOf? thread = some id') :
    let x := EventDebugger.handleWithTicket Recorder.frontEnd system id event (a.hold thread, ra)
    let y := EventDebugger.handleWithTicket Recorder.frontEnd system id' event' (b.hold thread, rb)
    y.1 = x.1 ∧ x.2.1.Matches m system thread y.2.1 ∧ Recorder.Same ra rb x.2.2 y.2.2 := by
  have stays' : event'.isExit = false := by rw [events.isExit_eq, stays]
  have done := h.quiet.handledWithTicket h.bound found stays settled
  have done' := h.quiet'.handledWithTicket h.bound' found' stays' settled'
  have kept := done.doneFor.found h.quiet.well h.alive found
  have kept' := done'.doneFor.found h.quiet'.well h.alive' found'
  have held : (a.hold thread).Alike m system thread id id' (b.hold thread) := by
    refine ⟨?_, h.quiet.live, h.hosts, h.bound, h.bound', (h.quiet.well.known found).1,
      (h.quiet'.well.known found').1, ?_⟩
    · rw [(a.doneFor_hold thread).rules, (b.doneFor_hold thread).rules, h.rules]
    · have contexts := h.contexts
      unfold contextFor? at contexts
      rw [found, found'] at contexts
      cases contexts with
      | some alike => exact alike
  have pieces := alike_dispatch held events stays
  have twins := alike_drive pieces.debugger mode pieces.outcome
    ((a.hold thread).dispatch system id event).1.rank (settled'.trans settled.symm)
  have after := h.after done.doneFor done'.doneFor done.quiet done'.quiet
  unfold contextFor? at after
  rw [kept, kept'] at after
  revert after
  simp only [handleWithTicket_eq, Outcome.complete, pieces.outcome.rank_eq]
  intro after
  refine ⟨twins.result, after (.some ?_), twins.recorders⟩
  rw [context_release, context_release]
  exact twins.debuggers.context

theorem handleEvent :
    let x := EventDebugger.handleEvent Recorder.frontEnd system event (a, ra)
    let y := EventDebugger.handleEvent Recorder.frontEnd system event' (b, rb)
    y.1 = x.1 ∧ x.2.1.Matches m system thread y.2.1 ∧ Recorder.Same ra rb x.2.2 y.2.2 := by
  obtain ⟨matched, same⟩ := h.arrive events
  obtain ⟨_, _, arrived⟩ := h.quiet.arrive h.bound event
  obtain ⟨_, _, arrived'⟩ := h.quiet'.arrive h.bound' event'
  simp only [h.quiet.handled_eq h.bound, h.quiet'.handled_eq h.bound']
  generalize a.arrive system event = arrival at matched same arrived ⊢
  generalize b.arrive system event' = arrival' at matched same arrived' ⊢
  obtain ⟨who, a'⟩ := arrival
  obtain ⟨who', b'⟩ := arrival'
  cases who with
  | none =>
      cases who' with
      | none => exact ⟨rfl, matched, .refl mode (settled'.trans settled.symm)⟩
      | some => cases same
  | some who =>
      cases who' with
      | none => cases same
      | some who' =>
          obtain ⟨rfl, found⟩ := arrived rfl
          obtain ⟨_, found'⟩ := arrived' rfl
          obtain ⟨result, after, records⟩ :=
            matched.handleWithTicket events stays mode settled settled' found found'
          exact ⟨congrArg Progress.finished result, after, records⟩

end Debugger.Matches

end EventDebugger
