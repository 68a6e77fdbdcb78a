import EventDebugger.Proofs.Replay.Sound

/-!
# The steps of an event

What the steps of an event make of the debugger and of the tasks. Each of them leaves the other threads
alone and keeps the frames of its own thread at the activations.

* `World.Advances.spares`: what a thread does leaves the others alone.
* `Busy.advance`: a step of an event keeps what is known of its thread.
-/

namespace EventDebugger

namespace World

structure Advances (w w' : World) (s : Nat) (thread : Thread) : Prop where
  others : ∀ {s'}, s' ≠ s → w'.tasks s' = w.tasks s'
  serves : Debugger.Serves thread w.debugger w'.debugger
  lasts : ∀ {s'}, s' ≠ s → (∃ task ∈ w.tasks s', task.stage.holds) → w.debugger.isStarted →
    w'.debugger.isStarted

theorem Advances.spares {w w' : World} {s s' : Nat} {thread other : Thread}
    (h : w.Advances w' s thread) (elsewhere : s' ≠ s) (ne : other ≠ thread) : w.Spares w' s' other := by
  have host := h.serves.host
  exact {
    tasks := h.others elsewhere
    bound := by rw [host]
    unbound := fun unbound s' => by
      rw [host]
      exact unbound s'
    count := Nat.le_of_eq (by rw [host])
    alive := fun alive => by
      rw [host]
      exact alive
    earlier := h.serves.earlier
    lasts := h.lasts elsewhere
    shows := fun alive => h.serves.shows ne alive
    attends := fun alive => h.serves.attends ne alive }

theorem Advances.home {w w' : World} {s : Nat} {thread : Thread} (h : w.Advances w' s thread)
    (home : Actor.Home w s thread) : Actor.Home w' s thread := by
  have host := h.serves.host
  refine ⟨?_, ?_⟩ <;> rw [host]
  · exact home.bound
  · exact home.alive

theorem advances_of_tracks {w w' : World} {s : Nat} (thread : Thread)
    (others : ∀ {s'}, s' ≠ s → w'.tasks s' = w.tasks s') (host : w'.debugger.host = w.debugger.host)
    (well : w.debugger.WellTracked) (same : w'.debugger.isStarted = w.debugger.isStarted)
    (tracks : Debugger.Tracks w.debugger w'.debugger) : w.Advances w' s thread := by
  refine ⟨others, Debugger.serves_of_tracks thread host well (fun started => ?_) tracks,
    fun _ _ started => ?_⟩
  · rw [← same]
    exact started
  · rw [same]
    exact started

theorem spares_of_tends {w w' : World} {s : Nat} {thread : Thread} (home : Actor.Home w s thread)
    (tasks : w'.tasks s = w.tasks s) (well : w.debugger.WellTracked)
    (tends : Debugger.Tends s w.debugger w'.debugger) : w.Spares w' s thread := by
  have host := tends.host.eq_of_bound home.bound
  have same : w'.debugger.isStarted = w.debugger.isStarted := by
    rw [Debugger.isStarted_eq, tends.ticket, Debugger.isStarted_eq]
  exact {
    tasks
    bound := by rw [host]
    unbound := fun unbound s' => by
      rw [host]
      exact unbound s'
    count := Nat.le_of_eq (by rw [host])
    alive := fun alive => by
      rw [host]
      exact alive
    earlier := fun started => same ▸ started
    lasts := fun _ started => same ▸ started
    shows := fun alive _ h => h.tracks well alive tends.tracks
    attends := fun alive _ h => h.tracks well alive tends.tracks }

theorem advances_of_tends {w w' : World} {s : Nat} {thread : Thread} (home : Actor.Home w s thread)
    (others : ∀ {s'}, s' ≠ s → w'.tasks s' = w.tasks s') (well : w.debugger.WellTracked)
    (tends : Debugger.Tends s w.debugger w'.debugger) : w.Advances w' s thread := by
  refine advances_of_tracks thread others (tends.host.eq_of_bound home.bound) well ?_ tends.tracks
  rw [Debugger.isStarted_eq, tends.ticket, Debugger.isStarted_eq]

theorem advances_arrive {w : World} {s : Nat} {thread : Thread} (home : Actor.Home w s thread)
    (well : w.debugger.WellTracked) (event : Event) : w.Advances (w.arrive s event) s thread := by
  refine advances_of_tends home (fun ne => tasks_arrive_ne w ne event) well ?_
  rw [debugger_arrive]
  exact w.debugger.tends_arrive s event

theorem advances_contend {w : World} {s : Nat} (thread : Thread) (well : w.debugger.WellTracked)
    (task : Task) (rest : List Task) (event : Event) (granted : Bool) :
    w.Advances (w.contend s task rest event granted) s thread := by
  have same := w.debugger_contend s task rest event granted
  refine advances_of_tracks thread (fun ne => tasks_contend_ne w ne task rest event granted) ?_ well ?_ ?_
  · rw [same, Debugger.host_contend]
  · rw [same, Debugger.isStarted_contend]
  · rw [same]
    exact w.debugger.tracks_contend task.thread task.context granted

theorem advances_dispatch {w : World} {s : Nat} {thread : Thread} (orderly : w.Orderly)
    (current : w.Current) (home : Actor.Home w s thread) (well : w.debugger.WellTracked) {task : Task}
    {rest : List Task} (tasks : w.tasks s = task :: rest) (holds : task.stage.holds)
    (known : w.debugger.contextOf? thread = some task.context) (event : Event) :
    w.Advances (w.proceed s task rest (w.debugger.dispatch s task.context event)) s thread := by
  have others {s' : Nat} (ne : s' ≠ s) := tasks_set_ne
    (w.become (w.debugger.dispatch s task.context event).2) ne
      ({ task with stage := (w.debugger.dispatch s task.context event).1.stage } :: rest)
  rcases w.debugger.dispatch_cases s task.context event with touched | ⟨_, ended, settings, met⟩
  · have host := touched.host.eq_of_bound home.bound
    obtain ⟨size, own⟩ := well.known known
    refine ⟨others, Debugger.serves_of_touches host well size own touched, fun _ _ started => ?_⟩
    change (w.debugger.dispatch s task.context event).2.isStarted
    rw [Debugger.isStarted, touched.session]
    exact started
  · refine ⟨others, Debugger.serves_of_end thread (met.eq_of_bound home.bound) settings ended, ?_⟩
    rintro s' ne ⟨other, member, otherHolds⟩ started
    rw [Debugger.isStarted_eq] at started
    obtain ⟨⟨holder, waiting⟩, ticket⟩ := Option.isSome_iff_exists.mp started
    have own := mem_innermost tasks
    have custody := orderly.custody ticket
    have mine := custody.single _ ⟨s, task, own, rfl, holds, current s task own⟩
    have theirs := custody.single _ ⟨s', other, member, rfl, otherHolds, current s' other member⟩
    exact absurd (orderly.same_system own member (Option.some.inj (theirs.symm.trans mine))) ne

theorem advances_run {w : World} {s : Nat} {thread : Thread} (home : Actor.Home w s thread)
    (well : w.debugger.WellTracked) {task : Task} (rest : List Task)
    (known : w.debugger.contextOf? thread = some task.context) (next : Continuation) :
    w.Advances (w.proceed s task rest (next.run w.debugger s task.context)) s thread := by
  have touched := w.debugger.touches_run s task.context next
  obtain ⟨size, own⟩ := well.known known
  refine ⟨fun ne => tasks_set_ne _ ne _, Debugger.serves_of_touches (touched.host.eq_of_bound home.bound)
    well size own touched, fun _ _ started => ?_⟩
  change (next.run w.debugger s task.context).2.isStarted
  rw [Debugger.isStarted, touched.session]
  exact started

theorem advances_release {w : World} {s : Nat} (thread : Thread) (well : w.debugger.WellTracked)
    (rest : List Task) : w.Advances ((w.become w.debugger.release).set s rest) s thread :=
  advances_of_tracks thread (fun ne => tasks_set_ne _ ne _) w.debugger.host_release well
    w.debugger.isStarted_release w.debugger.tracks_release

end World

/-! ## The event of a thread -/

variable {opens : Option TypeRef → Bool → Bool} {openers : List Opener} {activations : Activations}
  {lined : Bool}

namespace Debugger

variable {d : Debugger} {thread : Thread} {id : ContextId}

theorem Attends.touches {d' : Debugger} {system : Nat} {p q : Outline → Prop}
    (h : d.Attends thread id p) (well : d.WellTracked) (touches : Touches system id d d')
    (outline : q (d'.context id).outline) : d'.Attends thread id q := by
  have same := touches.traits id (well.known h.found).1
  simp only [Context.traits, Prod.mk.injEq] at same
  obtain ⟨_, _, _, _, skipped, ignored, _⟩ := same
  refine ⟨(contextOf?_congr touches.session thread).trans h.found, ?_, ?_, outline⟩
  · rw [skipped]
    exact h.heeded
  · rw [ignored]
    exact h.wanted

theorem Attends.dispatch (system : Nat) {event : Event} (well : d.WellTracked)
    (same : d.opensNativeFrame = opens)
    (h : d.Attends thread id (Announces opens openers activations lined · event)) :
    ((d.dispatch system id event).2.isStarted →
        (d.dispatch system id event).2.Attends thread id (Mirrors opens openers activations lined)) ∧
      ∀ {callback next}, (d.dispatch system id event).1 = .call callback next →
        (d.dispatch system id event).2.session = d.session ∧ callback.context = id ∧ Settled openers := by
  obtain ⟨_, ⟨position, placed, mirrors⟩, settled⟩ := h.outline
  obtain ⟨⟨outline, about⟩, mayCall⟩ :=
    leaves_dispatch (well.known h.found).1 system h.heeded placed
  rw [same] at outline
  rcases d.dispatch_cases system id event with touched | ⟨done, ended, _⟩
  · refine ⟨fun _ => h.touches well touched (outline ▸ mirrors), fun calls => ?_⟩
    refine ⟨touched.session, about calls, settled (mayCall ?_)⟩
    rw [calls]
    nofun
  · refine ⟨fun started => ?_, fun calls => ?_⟩
    · rw [isStarted, ended] at started
      cases started
    · rw [done] at calls
      cases calls

theorem Attends.run (system : Nat) {p : Outline → Prop} (h : d.Attends thread id p)
    (well : d.WellTracked) (next : Continuation) :
    (next.run d system id).2.Attends thread id p ∧
      ∀ {callback later}, (next.run d system id).1 = .call callback later → callback.context = id := by
  have leaves := leaves_run (well.known h.found).1 system next
  exact ⟨h.touches well (d.touches_run system id next) (leaves.outline ▸ h.outline), leaves.about⟩

end Debugger

namespace Busy

variable {w : World} {s : Nat} {thread : Thread} {task : Task}

theorem contend (orderly : w.Orderly) (well : w.debugger.WellTracked)
    (alive : w.debugger.host.isAlive thread) {event : Event} {granted : Bool}
    (tasks : w.tasks s = [task]) (own : task.thread = thread) (alone : task.reentrant = false)
    (outside : task.stage.isOutside) (fresh : granted = false → ¬ task.stage.isQueued)
    (attends : w.debugger.isStarted →
      w.debugger.Attends thread task.context (Announces opens openers activations lined · event)) :
    Busy opens openers activations lined (w.contend s task [] event granted).debugger thread
      ((w.contend s task [] event granted).tasks s) := by
  have contended := w.debugger.contended task.thread task.context granted
  have same := w.debugger.isStarted_contend task.thread task.context granted
  have tracks := w.debugger.tracks_contend task.thread task.context granted
  have reentrant (active : w.debugger.ticket.isSome)
      (gone : (w.contend s task [] event granted).tasks s = []) : task.reentrant :=
    World.reentrant_of_contend orderly active tasks outside fresh gone
  simp only [World.contend] at reentrant ⊢
  rcases eq : w.debugger.contend task.thread task.context granted with ⟨turn, d⟩
  rw [eq] at contended same tracks reentrant
  have later (started : d.isStarted) :
      d.Attends thread task.context (Announces opens openers activations lined · event) :=
    (attends (same.symm.trans started)).tracks well alive tracks
  cases turn with
  | ticket =>
      have started : d.isStarted := by
        rw [Debugger.isStarted_eq]
        simp only at contended
        generalize w.debugger.ticket = ticket at contended
        generalize d.ticket = ticket' at contended ⊢
        cases contended <;> rfl
      simp only [World.set, World.become, Function.update_self]
      subst own
      exact .task _ rfl alone ⟨started, later started⟩
  | dropped =>
      simp only [World.set, World.become, Function.update_self]
      refine .done fun started => ?_
      have active : w.debugger.ticket.isSome := by
        rw [← Debugger.isStarted_eq, ← same]
        exact started
      have isReentrant := reentrant active (Function.update_self ..)
      exact absurd (alone.symm.trans isReentrant) Bool.false_ne_true
  | wait reason =>
      simp only [World.set, World.become, Function.update_self]
      subst own
      exact .task _ rfl alone later

theorem proceed {outcome : Outcome × Debugger} (own : task.thread = thread) (alone : task.reentrant = false)
    (later : outcome.2.isStarted →
      outcome.2.Attends thread task.context (Mirrors opens openers activations lined))
    (called : ∀ {callback next}, outcome.1 = .call callback next →
      outcome.2.isStarted ∧ callback.context = task.context ∧ Settled openers) :
    Busy opens openers activations lined (w.proceed s task [] outcome).debugger thread
      ((w.proceed s task [] outcome).tasks s) := by
  subst own
  simp only [World.proceed, World.set, World.become, Function.update_self]
  refine .task _ rfl alone ?_
  simp only [Task.Follows]
  cases ends : outcome.1 with
  | done => exact later
  | call callback next => exact ⟨called ends, later (called ends).1⟩

theorem advance {w' : World} {move : Move} (orderly : w.Orderly) (current : w.Current)
    (well : w.debugger.WellTracked) (same : w.debugger.opensNativeFrame = opens)
    (home : Actor.Home w s thread)
    (busy : Busy opens openers activations lined w.debugger thread (w.tasks s))
    (step : w.Step s move w') (handles : move.handles) :
    w.Advances w' s thread ∧ Busy opens openers activations lined w'.debugger thread (w'.tasks s) := by
  -- a thread that takes such a step has a single task, unless it makes a request
  have single {task : Task} {rest : List Task} (tasks : w.tasks s = task :: rest) :
      rest = [] ∧ task.thread = thread ∧ task.reentrant = false ∧
        task.Follows opens openers activations lined w.debugger := by
    rw [tasks] at busy
    cases busy with
    | task task own alone follows => exact ⟨rfl, own, alone, follows⟩
  cases step with
  | ask tasks stage =>
      rename_i task _ event
      obtain ⟨rfl, own, alone, follows⟩ := single tasks
      refine ⟨World.advances_contend thread well task [] event false, ?_⟩
      simp only [Task.Follows, stage, own] at follows
      refine .contend orderly well home.alive tasks own alone ?_ (fun _ => ?_) follows <;> rw [stage]
      · rfl
      · exact Bool.false_ne_true
  | awake tasks stage awake =>
      rename_i task _ event reason _
      obtain ⟨rfl, own, alone, follows⟩ := single tasks
      refine ⟨World.advances_contend thread well task [] event (reason == .queued), ?_⟩
      simp only [Task.Follows, stage, own] at follows
      refine .contend orderly well home.alive tasks own alone ?_ (fun parked => ?_) follows <;> rw [stage]
      · rfl
      · cases reason with
        | queued => cases parked
        | parked => exact Bool.false_ne_true
  | dispatch tasks stage =>
      rename_i task _ event
      obtain ⟨rfl, own, alone, follows⟩ := single tasks
      simp only [Task.Follows, stage, own] at follows
      obtain ⟨started, attends⟩ := follows
      have advances := World.advances_dispatch orderly current home well tasks (by rw [stage]; rfl)
        attends.found event
      obtain ⟨later, called⟩ := attends.dispatch s well same
      refine ⟨advances, .proceed own alone later fun calls => ?_⟩
      obtain ⟨session, about, settled⟩ := called calls
      refine ⟨?_, about, settled⟩
      rw [Debugger.isStarted, session]
      exact started
  | answer tasks stage =>
      rename_i task _ callback next
      obtain ⟨rfl, own, alone, follows⟩ := single tasks
      simp only [Task.Follows, stage, own] at follows
      obtain ⟨⟨started, _, settled⟩, attends⟩ := follows
      obtain ⟨later, about⟩ := attends.run s well next
      refine ⟨World.advances_run home well [] attends.found next,
        .proceed own alone (fun _ => later) fun calls => ⟨?_, about calls, settled⟩⟩
      rw [Debugger.isStarted, (w.debugger.touches_run s task.context next).session]
      exact started
  | fail tasks stage =>
      rename_i task _ callback next
      obtain ⟨rfl, own, alone, follows⟩ := single tasks
      simp only [Task.Follows, stage, own] at follows
      exact ⟨World.advances_of_tracks thread (fun ne => World.tasks_set_ne _ ne _) rfl well rfl (.refl _),
        .proceed own alone (fun _ => follows.2) fun called => by cases called⟩
  | release tasks stage =>
      rename_i task _
      obtain ⟨rfl, own, alone, follows⟩ := single tasks
      simp only [Task.Follows, stage, own] at follows
      refine ⟨World.advances_release thread well [], ?_⟩
      simp only [World.set, World.become, Function.update_self]
      refine .done fun started => ?_
      rw [Debugger.isStarted_release] at started
      exact (follows started).shows.tracks well home.alive w.debugger.tracks_release
  | request request free =>
      have other : request.isActivation = false := by simpa [Move.handles] using handles
      have tends := request.tends_request s w.debugger other
      refine ⟨World.advances_of_tends home (fun _ => rfl) well tends, ?_⟩
      have spares : w.Spares (w.become (request.serve s w.debugger)) s thread :=
        World.spares_of_tends home rfl well tends
      exact spares.busy home.alive busy
  | _ => cases handles

end Busy

end EventDebugger
