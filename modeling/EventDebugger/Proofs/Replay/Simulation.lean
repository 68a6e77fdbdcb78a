import EventDebugger.Proofs.Replay.Advance

/-!
# Frames simulate activations

However the threads of a program are interleaved, whenever the front-end is called during an event of a
thread, the frames of its context are at its activations.

* `Play.Sound.step`: every step of a thread keeps what is known of all threads.
* `Play.frames_eq_activations`: what the front-end sees.
-/

namespace EventDebugger

variable {opens : Option TypeRef → Bool → Bool}

/-! ## Steps that only change the host -/

namespace Host

theorem sameThreads_perform (action : Action) (thread : Thread) (activations : Activations) (host : Host) :
    host.SameThreads (action.perform thread activations host).host := by
  cases action with
  | fallAsleep =>
      exact host.sameThreads_updateThread thread (fun record => { record with status := .sleeping })
        fun _ => ⟨rfl, rfl, rfl⟩
  | wakeUp =>
      exact host.sameThreads_updateThread thread (fun record => { record with status := .running })
        fun _ => ⟨rfl, rfl, rfl⟩
  | _ => exact ⟨rfl, rfl, rfl⟩

theorem sameThreads_entered {host : Host} {system : Nat} {thread : Thread}
    (bound : host.boundTo? system = some thread) (action : Action) (activations : Activations) :
    host.SameThreads ((action.perform thread activations host).entered system) := by
  have performed := host.sameThreads_perform action thread activations
  simp only [Performed.entered]
  split
  · exact performed.trans (sameThreads_enterScope ((performed.boundTo?_eq system).trans bound) _)
  · exact performed

end Host

namespace World

variable {w : World} {host : Host}

theorem spares_host {s : Nat} {thread : Thread}
    (bound : host.boundTo? s = w.debugger.host.boundTo? s)
    (unbound : (∀ s', w.debugger.host.boundTo? s' ≠ some thread) → ∀ s', host.boundTo? s' ≠ some thread)
    (count : w.debugger.host.threadCount = host.threadCount)
    (alive : w.debugger.host.isAlive thread → host.isAlive thread) :
    w.Spares (w.become { w.debugger with host }) s thread where
  tasks := rfl
  bound := bound
  unbound := unbound
  count := Nat.le_of_eq count
  alive := alive
  earlier started := started
  lasts _ started := started
  shows _ _ h := h.congr rfl fun _ _ => rfl
  attends _ _ h := h.congr rfl rfl

theorem spares_sameThreads (same : w.debugger.host.SameThreads host) (s : Nat) (thread : Thread) :
    w.Spares (w.become { w.debugger with host }) s thread := by
  refine spares_host (same.boundTo?_eq s) (fun unbound s' => ?_) same.count.symm fun alive => ?_
  · rw [same.boundTo?_eq]
    exact unbound s'
  · rw [same.isAlive_eq]
    exact alive

theorem current_host (h : w.Current) (host : Host) : (w.become { w.debugger with host }).Current := by
  refine h.become ?_
  simp only [World.become]
  cases w.debugger.session <;> rfl

theorem wellTracked_host {d : Debugger} (h : d.WellTracked) (host : Host) :
    { d with host : Debugger }.WellTracked := ⟨h.coherent, h.home⟩

end World

/-! ## The event of a thread arrives -/

namespace Debugger

theorem arrive_eq_none {d d' : Debugger} {system : Nat} {event : Event}
    (h : d.arrive system event = (none, d')) (started : d'.isStarted) :
    Host.isAllocator event.method ∨
      ∃ id, d'.contextOf? (d.host.currentThread system).1 = some id ∧ (d'.context id).ignored := by
  simp only [arrive] at h
  split at h
  · next active =>
      split at h
      · next allocates => exact .inl allocates
      · split at h
        · next inactive =>
            rw [isStarted, show d.session = none from inactive] at active
            cases active
        · split at h
          · next ignored =>
              cases h
              exact .inr ⟨_, contextOf?_track _ _ _, ignored⟩
          · cases h
  · next inactive =>
      cases h
      exact absurd started inactive

end Debugger

theorem World.Orderly.holder_ne {w : World} (h : w.Orderly) {s : Nat} {thread : Thread}
    (bound : w.debugger.host.boundTo? s = some thread) (idle : w.tasks s = []) :
    w.holder ≠ some thread := by
  intro holds
  obtain ⟨⟨holder, waiting⟩, ticket, rfl⟩ := Option.bind_eq_some_iff.mp holds
  have elsewhere : ∃ s', ∃ task ∈ w.tasks s', task.thread = thread := by
    rcases (h.custody ticket).held thread rfl with
      ⟨s', task, member, same, _⟩ | ⟨s', task, member, same, _⟩
    · exact ⟨s', task, member, same⟩
    · exact ⟨s', task, member, same⟩
  obtain ⟨s', task, member, same⟩ := elsewhere
  have here : s' = s := h.own.injective (same ▸ h.bound s' task member) bound
  rw [here, idle] at member
  cases member

theorem Busy.arrive {w : World} {s : Nat} {thread : Thread} {openers : List Opener}
    {activations : Activations} {lined : Bool} {event : Event} (orderly : w.Orderly)
    (well : w.debugger.WellTracked) (home : Actor.Home w s thread) (idle : w.tasks s = [])
    (follows : w.debugger.Follows thread (Announces opens openers activations lined · event)) :
    Busy opens openers activations lined (w.arrive s event).debugger thread ((w.arrive s event).tasks s) := by
  have tends := w.debugger.tends_arrive s event
  have current : w.debugger.host.currentThread s = (thread, w.debugger.host) :=
    Host.currentThread_of_bound home.bound
  have same : (w.debugger.arrive s event).2.isStarted = w.debugger.isStarted := by
    rw [Debugger.isStarted_eq, tends.ticket, Debugger.isStarted_eq]
  simp only [World.arrive]
  rcases arrived : w.debugger.arrive s event with ⟨_ | ⟨thread', id⟩, d⟩
  all_goals
    rw [arrived] at tends same
    have later (started : d.isStarted) :=
      (follows (same.symm.trans started)).tracks well home.alive tends.tracks
  · change Busy opens openers activations lined d thread (w.tasks s)
    rw [idle]
    refine .done fun started => ?_
    have shows := later started
    refine ⟨shows.heeded, .inl ?_⟩
    have unheeded := Debugger.arrive_eq_none arrived started
    rw [current] at unheeded
    refine shows.outline.elim id fun announces => ?_
    refine unheeded.resolve_left fun allocates => ?_
    exact absurd (announces.debugged.symm.trans allocates) Bool.false_ne_true
  · obtain ⟨_, bound, found, wanted⟩ := Debugger.arrive_eq_some arrived
    have own : thread' = thread := by
      have host : d.host = w.debugger.host := tends.host.eq_of_bound home.bound
      rw [host, home.bound] at bound
      exact (Option.some.inj bound).symm
    subst own
    simp only [World.set, Function.update_self]
    rw [idle]
    refine .task _ rfl (decide_eq_false (orderly.holder_ne home.bound idle)) ?_
    exact fun started => (later started).attends found wanted

/-! ## All threads -/

namespace Play

structure Sound (opens : Option TypeRef → Bool → Bool) (p : Play) : Prop where
  orderly : p.world.Orderly
  current : p.world.Current
  well : p.world.debugger.WellTracked
  same : p.world.debugger.opensNativeFrame = opens
  idle : ∀ {s}, p.actors s = none → p.world.tasks s = []
  distinct : ∀ {s s' actor actor'}, p.actors s = some actor → p.actors s' = some actor' →
    actor.thread = actor'.thread → s = s'
  actor : ∀ {s actor}, p.actors s = some actor → actor.Sound opens p.world s

namespace Sound

variable {p : Play} {s : Nat} {actor actor' : Actor} {w : World}

theorem move (h : p.Sound opens) (is : p.actors s = some actor) (same : actor'.thread = actor.thread)
    (orderly : w.Orderly) (current : w.Current) (well : w.debugger.WellTracked)
    (sameOpens : w.debugger.opensNativeFrame = opens)
    (tasks : ∀ {s'}, s' ≠ s → w.tasks s' = p.world.tasks s')
    (spares : ∀ {s' other}, s' ≠ s → other ≠ actor.thread → p.world.Spares w s' other)
    (own : actor'.Sound opens w s) : (p.move s actor' w).Sound opens := by
  have cases' {s' : Nat} {other : Actor} (isOther : (p.move s actor' w).actors s' = some other) :
      (s' = s ∧ other = actor') ∨ (s' ≠ s ∧ p.actors s' = some other) := by
    simp only [Play.move] at isOther
    by_cases here : s' = s
    · rw [here, Function.update_self] at isOther
      exact .inl ⟨here, (Option.some.inj isOther).symm⟩
    · rw [Function.update_of_ne here] at isOther
      exact .inr ⟨here, isOther⟩
  refine ⟨orderly, current, well, sameOpens, fun {s'} none => ?_, fun {s₁ s₂ a₁ a₂} is₁ is₂ sameThread => ?_,
    fun {s' other} isOther => ?_⟩
  · simp only [Play.move] at none
    by_cases here : s' = s
    · rw [here, Function.update_self] at none
      cases none
    · rw [Function.update_of_ne here] at none
      exact (tasks here).trans (h.idle none)
  · rcases cases' is₁ with ⟨rfl, rfl⟩ | ⟨_, old₁⟩ <;> rcases cases' is₂ with ⟨rfl, rfl⟩ | ⟨_, old₂⟩
    · rfl
    · exact h.distinct is old₂ (same.symm.trans sameThread)
    · exact h.distinct old₁ is (sameThread.trans same)
    · exact h.distinct old₁ old₂ sameThread
  · rcases cases' isOther with ⟨rfl, rfl⟩ | ⟨ne, old⟩
    · exact own
    · exact (h.actor old).spared (spares ne fun sameThread => ne (h.distinct old is sameThread))

theorem move_advances (h : p.Sound opens) {move : Move} (is : p.actors s = some actor)
    (same : actor'.thread = actor.thread) (step : p.world.Step s move w)
    (lasts : move.isActivation = false) (advances : p.world.Advances w s actor.thread)
    (own : actor'.Sound opens w s) : (p.move s actor' w).Sound opens :=
  h.move is same (h.orderly.step step (h.current.not_overrides s move)) (h.current.step step lasts)
    advances.serves.tracked (advances.serves.opens.trans h.same) advances.others
    (fun ne other => advances.spares ne other) own

theorem move_phase (h : p.Sound opens) (is : p.actors s = some actor)
    (same : actor'.thread = actor.thread) (own : actor'.Sound opens p.world s) :
    (p.move s actor' p.world).Sound opens :=
  h.move is same h.orderly h.current h.well h.same (fun _ => rfl)
    (fun _ _ => ⟨rfl, rfl, id, Nat.le_refl _, id, id, fun _ => id, fun _ _ => id, fun _ _ => id⟩) own

theorem start (h : p.Sound opens) (is : p.actors s = some actor) (phase : actor.phase = .starting) :
    (p.start s actor).Sound opens := by
  have sound := h.actor is
  simp only [Actor.Sound, phase] at sound
  obtain ⟨idle, free, unbound, registered, alive, plain, unlined, follows⟩ := sound
  have entered : p.world.debugger.host.SameThreads
      { p.world.debugger.host with scopes := p.world.debugger.host.scopes.enterMethod.2 } := ⟨rfl, rfl, rfl⟩
  have own := Host.ownThreads_bind (entered.grows.own h.orderly.own) free unbound registered
  refine h.move is rfl (h.orderly.rebind idle own fun s' ne => ?_) (World.current_host h.current _)
    (World.wellTracked_host h.well _) h.same (fun _ => rfl) (fun {s' other} ne otherNe => ?_) ?_
  · rw [Host.boundTo?_bind, if_neg ne, entered.boundTo?_eq]
  · refine World.spares_host ?_ (fun unbound s' bound => ?_) rfl fun alive => ?_
    · rw [Host.boundTo?_bind, if_neg ne, entered.boundTo?_eq]
    · rw [Host.boundTo?_bind] at bound
      split at bound
      · exact otherNe (Option.some.inj bound).symm
      · exact unbound s' bound
    · rw [Host.isAlive_bind]
      exact alive
  · have bound := Host.boundTo?_bind
      { p.world.debugger.host with scopes := p.world.debugger.host.scopes.enterMethod.2 } s s actor.thread
    rw [if_pos rfl] at bound
    have settled : Settled [] := trivial
    have nests := Step.nests_toActionsAll settled actor.steps plain
    refine ⟨⟨bound, ?_⟩, idle, [], [], nests, fun started => ?_⟩
    · refine Eq.trans ?_ alive
      exact Host.isAlive_bind _ _ _ _
    · refine Debugger.Shows.congr (Debugger.Shows.imp (follows started) fun {outline} empty => ?_) rfl
        fun _ _ => rfl
      rw [empty, unlined]
      exact ⟨rfl, .root⟩

theorem perform (h : p.Sound opens) {activations : Activations} {action : Action}
    {actions : List Action} (is : p.actors s = some actor)
    (phase : actor.phase = .running activations (action :: actions)) :
    (p.perform s actor activations action actions).Sound opens := by
  have sound := h.actor is
  simp only [Actor.Sound, phase] at sound
  obtain ⟨home, idle, openers, final, nests, follows⟩ := sound
  cases nests with
  | cons first rest =>
      have same := Host.sameThreads_entered home.bound action activations
      have spares := World.spares_sameThreads same s actor.thread
      have opensBlock (type : Option TypeRef) : opens type true := by
        rw [← h.same]
        rfl
      have performed {outline : Outline} (mirrors : Mirrors opens openers activations actor.lined outline) :=
        mirrors_perform opensBlock first mirrors actor.thread p.world.debugger.host
      refine h.move is rfl (h.orderly.become ⟨.inl rfl, same.grows⟩) (World.current_host h.current _)
        (World.wellTracked_host h.well _) h.same (fun _ => rfl)
        (fun {s' other} _ _ => World.spares_sameThreads same s' other) ?_
      have home' := spares.home home
      have later := spares.follows home.alive follows
      simp only [Actor.Sound]
      cases event : (action.perform actor.thread activations p.world.debugger.host).event with
      | none =>
          refine ⟨home', idle, _, final, rest, fun started => (later started).imp fun mirrors => ?_⟩
          have after := performed mirrors
          simp only [MirrorsAfter, event] at after
          exact after
      | some event' =>
          refine ⟨home', idle, _, final, rest, fun started => (later started).imp fun mirrors => ?_⟩
          have after := performed mirrors
          simp only [MirrorsAfter, event] at after
          exact after

theorem notify (h : p.Sound opens) {event : Event} {activations : Activations} {actions : List Action}
    (is : p.actors s = some actor) (phase : actor.phase = .notifying event activations actions) :
    (p.move s { actor with phase := .handling activations actions } (p.world.arrive s event)).Sound
      opens := by
  have sound := h.actor is
  simp only [Actor.Sound, phase] at sound
  obtain ⟨home, idle, openers, final, nests, follows⟩ := sound
  have free : p.world.IsFree s := by
    rw [World.IsFree, idle]
    intro task head
    cases head
  have advances := World.advances_arrive home h.well event
  refine h.move_advances is rfl (.arrive event free) rfl advances ?_
  exact ⟨advances.home home, openers, final, nests, .arrive h.orderly h.well home idle follows⟩

theorem handle (h : p.Sound opens) {activations : Activations} {actions : List Action} {move : Move}
    (is : p.actors s = some actor) (phase : actor.phase = .handling activations actions)
    (handles : move.handles) (step : p.world.Step s move w) : (p.move s actor w).Sound opens := by
  have sound := h.actor is
  simp only [Actor.Sound, phase] at sound
  obtain ⟨home, openers, final, nests, busy⟩ := sound
  obtain ⟨advances, later⟩ := busy.advance h.orderly h.current h.well h.same home step handles
  refine h.move_advances is rfl step ?_ advances ?_
  · cases move with
    | request asked => simpa [Move.handles, Move.isActivation] using handles
    | _ => rfl
  · simp only [Actor.Sound, phase]
    exact ⟨advances.home home, openers, final, nests, later⟩

theorem inspect (h : p.Sound opens) {move : Move} (is : p.actors s = some actor)
    (phase : actor.phase = .ending) (inspects : move.inspects) (step : p.world.Step s move w) :
    (p.move s actor w).Sound opens := by
  have sound := h.actor is
  simp only [Actor.Sound, phase] at sound
  obtain ⟨home, tasks⟩ := sound
  have lasts : move.isActivation = false := by
    cases move with
    | request asked => simpa [Move.inspects, Move.isActivation] using inspects
    | _ => rfl
  have advances : p.world.Advances w s actor.thread ∧
      ∀ task ∈ w.tasks s, ∃ before, task.stage = .inspecting before := by
    cases step with
    | enterPostMortem free =>
        have tends := p.world.debugger.tends_enterPostMortem s
        rw [← World.debugger_inspect] at tends
        refine ⟨World.advances_of_tends home (World.tasks_inspect_ne _) h.well tends, ?_⟩
        simp only [World.inspect]
        split
        · exact tasks
        · simp only [World.set, Function.update_self]
          exact List.forall_mem_cons.mpr ⟨⟨_, rfl⟩, tasks⟩
    | leavePostMortem own stage =>
        rename_i rest before
        have tends := p.world.debugger.tends_leavePostMortem s before
        refine ⟨World.advances_of_tends home (fun ne => World.tasks_set_ne _ ne _) h.well tends, ?_⟩
        rw [own] at tasks
        simp only [World.set, Function.update_self]
        exact (List.forall_mem_cons.mp tasks).2
    | request request free =>
        have other : request.isActivation = false := by simpa [Move.inspects] using inspects
        have tends := request.tends_request s p.world.debugger other
        exact ⟨World.advances_of_tends home (fun _ => rfl) h.well tends, tasks⟩
    | _ => cases inspects
  refine h.move_advances is rfl step lasts advances.1 ?_
  simp only [Actor.Sound, phase]
  exact ⟨advances.1.home home, advances.2⟩

theorem exit (h : p.Sound opens) (is : p.actors s = some actor) (phase : actor.phase = .ending)
    (idle : p.world.tasks s = []) :
    (p.move s { actor with phase := .ended } (p.world.become
      { p.world.debugger with host := p.world.debugger.host.exitThread actor.thread })).Sound opens := by
  have sound := h.actor is
  simp only [Actor.Sound, phase] at sound
  obtain ⟨home, _⟩ := sound
  have own := h.orderly.own
  refine h.move is rfl (h.orderly.rebind idle (Host.ownThreads_exitThread own home.bound) fun s' ne => ?_)
    (World.current_host h.current _) (World.wellTracked_host h.well _) h.same (fun _ => rfl)
    (fun {s' other} ne otherNe => ?_) idle
  · exact Host.boundTo?_exitThread own home.bound ne
  · refine World.spares_host (Host.boundTo?_exitThread own home.bound ne) (fun unbound s' bound => ?_) ?_
      fun alive => ?_
    · exact unbound s' (Host.boundTo?_exitThread_le bound)
    · rw [Host.threadCount_exitThread]
    · rw [Host.isAlive_exitThread_ne _ otherNe]
      exact alive

theorem step {p' : Play} (h : p.Sound opens) (step : p.Step s p') : p'.Sound opens := by
  cases step with
  | start is phase => exact h.start is phase
  | perform is phase => exact h.perform is phase
  | notify is phase => exact h.notify is phase
  | handle is phase handles step => exact h.handle is phase handles step
  | resume is phase handled =>
      rename_i actor activations actions
      have sound := h.actor is
      simp only [Actor.Sound, phase, handled] at sound
      obtain ⟨home, openers, final, nests, busy⟩ := sound
      cases busy with
      | done follows => exact h.move_phase is rfl ⟨home, handled, openers, final, nests, follows⟩
  | fail is phase handled =>
      have sound := h.actor is
      simp only [Actor.Sound, phase] at sound
      refine h.move_phase is rfl ⟨sound.1, fun task member => ?_⟩
      rw [handled] at member
      cases member
  | finish is phase =>
      have sound := h.actor is
      simp only [Actor.Sound, phase] at sound
      refine h.move_phase is rfl ⟨sound.1, fun task member => ?_⟩
      rw [sound.2.1] at member
      cases member
  | inspect is phase inspects step => exact h.inspect is phase inspects step
  | exit is phase idle => exact h.exit is phase idle

end Sound

/-- The debugger is active, and no thread has started yet. -/
structure Opening (p : Play) : Prop where
  idle : p.world.Idle
  well : p.world.debugger.WellTracked
  distinct : ∀ {s s' actor actor'}, p.actors s = some actor → p.actors s' = some actor' →
    actor.thread = actor'.thread → s = s'
  unstarted : ∀ {s actor}, p.actors s = some actor → actor.phase = .starting ∧ actor.Unstarted p.world s

theorem Opening.sound {p : Play} (h : p.Opening) : p.Sound p.world.debugger.opensNativeFrame := by
  refine ⟨h.idle.orderly, h.idle.current, h.well, rfl, fun _ => h.idle.tasks _, h.distinct, fun is => ?_⟩
  obtain ⟨phase, unstarted⟩ := h.unstarted is
  simp only [Actor.Sound, phase]
  exact unstarted

theorem Reaches.sound {p p' : Play} (run : Reaches p p') (h : p.Sound opens) : p'.Sound opens := by
  induction run with
  | refl => exact h
  | step run next ih => exact ih.step next

/-- The context that the front-end is called about is that of the thread on a system thread, and its
frames are at the activations of the thread. -/
def SeesActivations (p : Play) (s : Nat) (callback : Callback) : Prop :=
  ∃ actor activations actions, p.actors s = some actor ∧
    actor.phase = .handling activations actions ∧
    (p.world.debugger.context callback.context).thread = actor.thread ∧
    (p.world.debugger.context callback.context).stack.map (·.position) =
      activations.positions actor.lined ∧
    (p.world.debugger.context callback.context).depth =
      activations.inner.length + if actor.lined then 1 else 0

/-- Whenever the front-end is called during an event of a thread, the frames that it sees are at the
activations of the thread. -/
theorem frames_eq_activations {p₀ p : Play} (opening : p₀.Opening) (run : Reaches p₀ p) {s : Nat}
    {task : Task} {rest : List Task} {callback : Callback} {next : Continuation}
    (tasks : p.world.tasks s = task :: rest) (called : task.stage = .called callback next) :
    p.SeesActivations s callback := by
  have sound := run.sound opening.sound
  cases is : p.actors s with
  | none =>
      have idle := sound.idle is
      rw [tasks] at idle
      cases idle
  | some actor =>
      have known := sound.actor is
      cases phase : actor.phase with
      | handling activations actions =>
          simp only [Actor.Sound, phase, tasks] at known
          obtain ⟨home, openers, final, nests, busy⟩ := known
          cases busy with
          | task task own alone follows =>
              simp only [Task.Follows, called, own] at follows
              obtain ⟨⟨_, about, settled⟩, attends⟩ := follows
              have positions := attends.outline.positions_eq settled
              rw [Context.outline, List.map_map] at positions
              have home := (sound.well.known attends.found).2
              rw [SeesActivations, about]
              refine ⟨actor, activations, actions, is, phase, home, positions, ?_⟩
              have lengths := congrArg List.length positions
              rw [List.length_map] at lengths
              refine lengths.trans ?_
              simp only [Activations.positions, List.length_append, List.length_map]
              cases actor.lined <;> rfl
      | starting =>
          simp only [Actor.Sound, phase] at known
          have idle := known.idle
          rw [tasks] at idle
          cases idle
      | running | notifying =>
          simp only [Actor.Sound, phase, tasks] at known
          cases known.2.1
      | ending =>
          simp only [Actor.Sound, phase, tasks] at known
          obtain ⟨before, inspecting⟩ := known.2 task List.mem_cons_self
          cases called.symm.trans inspecting
      | ended =>
          simp only [Actor.Sound, phase, tasks] at known
          cases known

/-! ## A thread that calls a method -/

def calling : Play where
  world :=
    { debugger := { (Debugger.initial { Settings.standard with tracing := true }).start.2 with
        host := (Host.initial.register "a").2 }
      tasks := fun _ => []
      activation := 1 }
  actors := fun s =>
    if s = 0 then some ⟨⟨1, "a"⟩, [.call "m" none none none [.line "a.rb" 2]], false, .starting⟩ else none

theorem opening_calling : calling.Opening := by
  refine ⟨⟨fun _ => rfl, rfl, ?_⟩, ⟨?_, ?_⟩, ?_, ?_⟩
  · exact (Host.grows_register _ "a").own Host.ownThreads_initial
  · intro session active
    cases active
    intro thread id recent
    cases recent
  · intro session thread id active stored
    cases active
    cases stored
  · intro s s' actor actor' is is' _
    simp only [calling] at is is'
    split at is <;> split at is'
    · omega
    · cases is'
    · cases is
    · cases is
  · intro s actor is
    simp only [calling] at is
    split at is
    · next here =>
        cases is
        subst here
        refine ⟨rfl, rfl, rfl, fun s' bound => ?_, Nat.le_refl 1, rfl, rfl, rfl, fun _ => ?_⟩
        · cases bound
        · exact ⟨(fun found => by cases found), .inr rfl⟩
    · cases is

theorem frames_calling : ∃ p s task callback next, Reaches calling p ∧ p.world.tasks s = [task] ∧
    task.stage = .called callback next ∧
    (p.world.debugger.context callback.context).stack.map (·.position) = [⟨"a.rb", 2⟩] ∧
    p.SeesActivations s callback := by
  have run := Reaches.refl calling
  have run := run.step (.start (s := 0) rfl rfl)
  have run := run.step (.perform (s := 0) rfl rfl)
  have run := run.step (.notify (s := 0) rfl rfl)
  have run := run.step (.handle (s := 0) rfl rfl (by rfl) (.ask rfl rfl))
  have run := run.step (.handle (s := 0) rfl rfl (by rfl) (.dispatch rfl rfl))
  have run := run.step (.handle (s := 0) rfl rfl (by rfl) (.release rfl rfl))
  have run := run.step (.resume (s := 0) rfl rfl rfl)
  have run := run.step (.perform (s := 0) rfl rfl)
  have run := run.step (.notify (s := 0) rfl rfl)
  have run := run.step (.handle (s := 0) rfl rfl (by rfl) (.ask rfl rfl))
  have run := run.step (.handle (s := 0) rfl rfl (by rfl) (.dispatch rfl rfl))
  exact ⟨_, 0, _, _, _, run, rfl, rfl, rfl, frames_eq_activations opening_calling run rfl rfl⟩

end Play

end EventDebugger
