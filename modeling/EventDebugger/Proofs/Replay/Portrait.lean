import EventDebugger.Proofs.Dispatch.Capture
import EventDebugger.Proofs.Replay.Exhibits
import EventDebugger.Proofs.Replay.Simulation
import EventDebugger.Proofs.Replay.Trails
import EventDebugger.Proofs.Ticket.Callbacks

/-!
# Frames show methods and variables

However the threads of a program are interleaved, whenever the front-end is called during an event of a thread,
the frames of its context show what they were told of its activations.

* `World.portrays_advance`: a step of an event keeps what is known of the frames of its thread.
* `Play.Portrayed.step`: every step of a thread keeps what is known of the frames of all threads.
* `Play.frames_show_activations`: what the front-end reads of the frames.
-/

namespace EventDebugger

variable {opens : Option TypeRef → Bool → Bool}

/-! ## The frames of a thread -/

def Stage.mayCall (stage : Stage) : Bool := stage.callback?.isSome || stage.event?.any (·.kind.mayCall)

/-- What is known of frames, which an event may yet have to reach: they are those of the activations, and where
the front-end may be called, the innermost one was told its method and its scope last. -/
structure Portrait (opens : Option TypeRef → Bool → Bool) (lined : Bool) (openers : List Opener)
    (activations : Activations) (trails : Trails) (pending : Option Event) (calls : Bool) (stack : CallStack) :
    Prop where
  shades : Shades opens activations.root lined openers activations.inner trails.own
    (pending.elim stack (·.reshape opens stack))
  running : ∀ method type blockGiven, openers.head? = some (.native method type blockGiven) →
    trails.native = some method
  told : calls → Settled openers ∧ trails.Told

namespace Portrait

variable {lined : Bool} {openers openers' : List Opener} {activations : Activations} {trails : Trails}
  {pending : Option Event} {calls : Bool} {stack stack' : CallStack}

theorem quiet (h : Portrait opens lined openers activations trails pending calls stack) {calls' : Bool}
    (fewer : calls' → calls) : Portrait opens lined openers activations trails pending calls' stack :=
  ⟨h.shades, h.running, fun is => h.told (fewer is)⟩

theorem rebound (h : Portrait opens lined openers activations trails pending calls stack)
    (same : stack'.unbound = (pending.elim stack (·.reshape opens stack)).unbound) :
    Portrait opens lined openers activations trails none calls stack' :=
  ⟨h.shades.rebound same, h.running, h.told⟩

theorem perform (opensBlock : ∀ type, opens type true) {action : Action} (nests : action.Nests openers openers')
    (h : Portrait opens lined openers activations trails none calls stack) (thread : Thread) (host : Host) :
    let performed := action.perform thread activations host
    Portrait opens (lined || action.isTopLine activations) openers' performed.activations
      (trails.follow opens action) performed.event (performed.event.any (·.kind.mayCall)) stack := by
  have shades := shades_perform opensBlock nests h.shades h.running thread host
  refine ⟨shades, fun method type blockGiven head => ?_, fun calls => ?_⟩
  · -- Only a native call leaves code of the program, and an action goes back to it by a return.
    have unsettled (settled : Settled openers') : trails.native = some method := by
      obtain ⟨below, rfl⟩ := List.head?_eq_some_iff.mp head
      exact settled.elim
    cases nests with
    | line _ _ _ settled | raise _ settled => exact unsettled settled
    | nativeCall type' blockGiven' settled =>
        cases head
        simp only [Trails.follow]
        split <;> rfl
    | call | openClass | enterBlock | leaveBlock => cases head
    | callReturn | closeClass | nativeReturn | blockReturn => exact unsettled h.shades.settled_tail
    | assign | fallAsleep | wakeUp | rescue => exact h.running method type blockGiven head
  · obtain ⟨event, notifies, calls⟩ := (Option.any_eq_true _ _).mp calls
    exact told_perform opens nests h.shades.trails_ne notifies calls

end Portrait

namespace World

variable {w w' : World} {s : Nat} {thread : Thread} {lined lined' : Bool} {openers openers' : List Opener}
  {activations activations' : Activations} {trails : Trails}

def Portrays (opens : Option TypeRef → Bool → Bool) (w : World) (s : Nat) (thread : Thread) (lined : Bool)
    (openers : List Opener) (activations : Activations) (trails : Trails) : Prop :=
  w.debugger.Exhibits thread (Portrait opens lined openers activations trails
    ((w.tasks s).head?.bind (·.stage.event?)) ((w.tasks s).head?.any (·.stage.mayCall)))

theorem portrays_iff {tasks : List Task} (is : w.tasks s = tasks) :
    w.Portrays opens s thread lined openers activations trails ↔
      w.debugger.Exhibits thread (Portrait opens lined openers activations trails
        (tasks.head?.bind (·.stage.event?)) (tasks.head?.any (·.stage.mayCall))) := by rw [Portrays, is]

theorem portrays_arrive {event : Event} (well : w.debugger.WellTracked) (home : Actor.Home w s thread)
    (follows : w.debugger.Follows thread (Announces opens openers' activations' lined' · event))
    (h : w.debugger.Exhibits thread
      (Portrait opens lined openers activations trails (some event) event.kind.mayCall)) :
    (w.arrive s event).Portrays opens s thread lined openers activations trails := by
  have tends := w.debugger.tends_arrive s event
  have current : w.debugger.host.currentThread s = (thread, w.debugger.host) :=
    Host.currentThread_of_bound home.bound
  have same : (w.debugger.arrive s event).2.isStarted = w.debugger.isStarted := tends.isStarted_eq
  have later := h.tends well home.alive tends
  rcases arrived : w.debugger.arrive s event with ⟨_ | ⟨thread', id⟩, d⟩
  all_goals simp only [World.arrive, arrived] at same tends later ⊢
  · -- An event that is not handled although the debugger is active is one of a thread that is ignored.
    intro started wanted
    have shows := (follows (same.symm.trans started)).tracks well home.alive tends.tracks
    have unheeded := Debugger.arrive_eq_none arrived started
    rw [current] at unheeded
    rcases unheeded with allocates | ⟨id, found, ignored⟩
    · rcases shows.outline with ⟨id, found, ignored⟩ | announces
      · cases (wanted id found).symm.trans ignored
      · cases announces.debugged.symm.trans allocates
    · cases (wanted id found).symm.trans ignored
  · rw [portrays_iff (tasks_set_self ..)]
    exact later

theorem portrays_contend {task : Task} {event : Event} {granted : Bool} (orderly : w.Orderly)
    (well : w.debugger.WellTracked) (alive : w.debugger.host.isAlive thread) (tasks : w.tasks s = [task])
    (alone : task.reentrant = false) (outside : task.stage.isOutside) (asks : task.stage.event? = some event)
    (fresh : granted = false → ¬ task.stage.isQueued)
    (h : w.Portrays opens s thread lined openers activations trails) :
    (w.contend s task [] event granted).Portrays opens s thread lined openers activations trails := by
  have same := w.debugger.isStarted_contend task.thread task.context granted
  have tracks := w.debugger.tracks_contend task.thread task.context granted
  have uncalled : task.stage.callback? = none := by
    cases stage : task.stage with
    | called => simp [stage, Stage.event?] at asks
    | _ => rfl
  have reentrant (active : w.debugger.ticket.isSome)
      (gone : (w.contend s task [] event granted).tasks s = []) : task.reentrant :=
    reentrant_of_contend orderly active tasks outside fresh gone
  have later := ((portrays_iff tasks).mp h).tracks well alive (fun started => same ▸ started) tracks
  simp only [List.head?_cons, Option.bind_some, Option.any_some, Stage.mayCall, asks, uncalled, Option.isSome_none,
    Bool.false_or] at later
  simp only [World.contend] at reentrant ⊢
  rcases eq : w.debugger.contend task.thread task.context granted with ⟨turn, d⟩
  rw [eq] at same later reentrant
  cases turn with
  | ticket | wait =>
      rw [portrays_iff (tasks_set_self ..)]
      exact later
  | dropped =>
      -- What is dropped is only the event of a thread that held the ticket already.
      intro started
      have active : w.debugger.ticket.isSome := by
        rw [← Debugger.isStarted_eq, ← same]
        exact started
      cases alone.symm.trans (reentrant active (tasks_set_self ..))

theorem portrays_proceed {task : Task} {rest : List Task} {piece : Outcome × Debugger}
    (well : w.debugger.WellTracked) (tasks : w.tasks s = task :: rest)
    (found : w.debugger.contextOf? thread = some task.context)
    (touches : Debugger.Touches s task.context w.debugger piece.2)
    (same : (piece.2.context task.context).stack.unbound =
      (task.stage.event?.elim (w.debugger.context task.context).stack
        (·.reshape opens (w.debugger.context task.context).stack)).unbound)
    (calls : piece.1.stage.mayCall → task.stage.mayCall)
    (h : w.Portrays opens s thread lined openers activations trails) :
    (w.proceed s task rest piece).Portrays opens s thread lined openers activations trails := by
  have silent : piece.1.stage.event? = none := by cases piece.1 <;> rfl
  refine (portrays_iff (tasks_set_self ..)).mpr ?_
  refine ((portrays_iff tasks).mp h).reframe touches.session (fun id is => ?_) (fun id is h => ?_) fun unknown => ?_
  · have traits := touches.traits id (well.known is).1
    simp only [Context.traits, Prod.mk.injEq] at traits
    exact traits.2.2.2.2.2.1
  · cases found.symm.trans is
    simp only [List.head?_cons, Option.bind_some, Option.any_some, silent] at h ⊢
    exact (h.rebound same).quiet calls
  · cases found.symm.trans unknown

theorem portrays_advance {move : Move} (orderly : w.Orderly) (well : w.debugger.WellTracked)
    (same : w.debugger.opensNativeFrame = opens) (home : Actor.Home w s thread)
    (busy : Busy opens openers' activations' lined' w.debugger thread (w.tasks s)) (step : w.Step s move w')
    (handles : move.handles) (h : w.Portrays opens s thread lined openers activations trails) :
    w'.Portrays opens s thread lined openers activations trails := by
  have single {task : Task} {rest : List Task} (tasks : w.tasks s = task :: rest) :
      rest = [] ∧ task.thread = thread ∧ task.reentrant = false ∧
        task.Follows opens openers' activations' lined' w.debugger := by
    rw [tasks] at busy
    cases busy with
    | task task own alone follows => exact ⟨rfl, own, alone, follows⟩
  cases step with
  | ask tasks stage =>
      obtain ⟨rfl, -, alone, -⟩ := single tasks
      refine portrays_contend orderly well home.alive tasks alone ?_ ?_ (fun _ => ?_) h <;> rw [stage]
      · rfl
      · rfl
      · exact Bool.false_ne_true
  | awake tasks stage awake =>
      rename_i reason _
      obtain ⟨rfl, -, alone, -⟩ := single tasks
      refine portrays_contend orderly well home.alive tasks alone ?_ ?_ (fun parked => ?_) h <;> rw [stage]
      · rfl
      · rfl
      · cases reason with
        | queued => cases parked
        | parked => exact Bool.false_ne_true
  | dispatch tasks stage =>
      rename_i task rest event
      obtain ⟨rfl, rfl, -, follows⟩ := single tasks
      simp only [Task.Follows, stage] at follows
      obtain ⟨-, attends⟩ := follows
      obtain ⟨_, ⟨position, placed, -⟩, -⟩ := attends.outline
      have known := (well.known attends.found).1
      rcases w.debugger.dispatch_cases s task.context event with touches | ⟨-, ended, -⟩
      · refine portrays_proceed well tasks attends.found touches ?_ (fun calls => ?_) h <;> rw [stage]
        · exact same ▸ Debugger.unbound_dispatch s known attends.heeded event
        · refine (Debugger.leaves_dispatch known s attends.heeded placed).2 fun done => ?_
          rw [done] at calls
          cases calls
      · exact Debugger.exhibits_of_ended ended
  | answer tasks stage =>
      rename_i task rest callback next
      obtain ⟨rfl, rfl, -, follows⟩ := single tasks
      simp only [Task.Follows, stage] at follows
      have touches := w.debugger.touches_run s task.context next
      refine portrays_proceed well tasks follows.2.found touches ?_ (fun _ => ?_) h <;> rw [stage]
      · exact w.debugger.unbound_run s next
      · rfl
  | fail tasks stage =>
      rename_i task rest callback next
      obtain ⟨rfl, rfl, -, follows⟩ := single tasks
      simp only [Task.Follows, stage] at follows
      refine portrays_proceed well tasks follows.2.found (.refl _ _ _) ?_ (fun calls => ?_) h
      · rw [stage]
        rfl
      · cases calls
  | release tasks stage =>
      obtain ⟨rfl, -⟩ := single tasks
      have h := (portrays_iff tasks).mp h
      simp only [List.head?_cons, Option.bind_some, stage] at h
      refine (portrays_iff (tasks_set_self ..)).mpr ?_
      have released := h.tracks well home.alive (fun started => ?_) w.debugger.tracks_release
      · exact released.imp fun portrait => portrait.quiet fun calls => by cases calls
      · rw [← Debugger.isStarted_release]
        exact started
  | request request free =>
      have other : request.isActivation = false := by simpa [Move.handles] using handles
      have tends := request.tends_request s w.debugger other
      exact Debugger.Exhibits.tends h well home.alive tends
  | _ => cases handles

end World

def Actor.Portrayed (opens : Option TypeRef → Bool → Bool) (w : World) (s : Nat) (actor : Actor) : Prop :=
  match actor.phase with
  | .running activations actions | .handling activations actions =>
      ∃ done openers final, (Step.toActionsAll actor.steps).actions = done ++ actions ∧
        NestsAll actions openers final ∧
        w.Portrays opens s actor.thread actor.lined openers activations (Trails.after opens done)
  | .notifying event activations actions =>
      ∃ done openers final, (Step.toActionsAll actor.steps).actions = done ++ actions ∧
        NestsAll actions openers final ∧
        w.debugger.Exhibits actor.thread (Portrait opens actor.lined openers activations (Trails.after opens done)
          (some event) event.kind.mayCall)
  | .starting | .ending | .ended => True

theorem Actor.Portrayed.spared {w w' : World} {s : Nat} {actor : Actor} (h : actor.Portrayed opens w s)
    (sound : actor.Sound opens w s) (tasks : w'.tasks s = w.tasks s)
    (keeps : ∀ {p}, w.debugger.host.isAlive actor.thread → w.debugger.Exhibits actor.thread p →
      w'.debugger.Exhibits actor.thread p) : actor.Portrayed opens w' s := by
  revert h sound
  simp only [Portrayed, Sound, World.Portrays, tasks]
  cases actor.phase with
  | starting | ending | ended => exact fun h _ => h
  | running | notifying | handling =>
      rintro ⟨done, openers, final, split, nests, exhibits⟩ ⟨home, -⟩
      exact ⟨done, openers, final, split, nests, keeps home.alive exhibits⟩

/-! ## All threads -/

namespace Play

variable {p p' : Play} {s : Nat} {actor actor' : Actor} {w : World}

structure Portrayed (opens : Option TypeRef → Bool → Bool) (p : Play) : Prop where
  actor : ∀ {s actor}, p.actors s = some actor → actor.Portrayed opens p.world s

theorem Sound.handling (h : p.Sound opens) (is : p.actors s = some actor) {task : Task} {rest : List Task}
    (tasks : p.world.tasks s = task :: rest) (holds : task.stage.holds) :
    ∃ activations actions openers, actor.phase = .handling activations actions ∧
      Busy opens openers activations actor.lined p.world.debugger actor.thread (task :: rest) := by
  have known := h.actor is
  cases phase : actor.phase with
  | handling activations actions =>
      simp only [Actor.Sound, phase, tasks] at known
      obtain ⟨-, openers, final, -, busy⟩ := known
      exact ⟨activations, actions, openers, rfl, busy⟩
  | ending =>
      simp only [Actor.Sound, phase, tasks] at known
      obtain ⟨before, inspecting⟩ := known.2 task List.mem_cons_self
      rw [inspecting] at holds
      cases holds
  | starting =>
      simp only [Actor.Sound, phase] at known
      cases tasks.symm.trans known.idle
  | running | notifying =>
      simp only [Actor.Sound, phase] at known
      cases tasks.symm.trans known.2.1
  | ended =>
      simp only [Actor.Sound, phase] at known
      cases tasks.symm.trans known

namespace Portrayed

theorem move (h : p.Portrayed opens) (sound : p.Sound opens) (is : p.actors s = some actor)
    (tasks : ∀ {s'}, s' ≠ s → w.tasks s' = p.world.tasks s')
    (keeps : ∀ {other q}, other ≠ actor.thread → p.world.debugger.host.isAlive other →
      p.world.debugger.Exhibits other q → w.debugger.Exhibits other q)
    (own : actor'.Portrayed opens w s) : (p.move s actor' w).Portrayed opens := by
  refine ⟨fun {s' other} isOther => ?_⟩
  simp only [Play.move] at isOther
  by_cases here : s' = s
  · subst here
    rw [Function.update_self] at isOther
    cases isOther
    exact own
  · rw [Function.update_of_ne here] at isOther
    exact (h.actor isOther).spared (sound.actor isOther) (tasks here)
      (keeps fun same => here (sound.distinct isOther is same))

theorem move_host (h : p.Portrayed opens) (sound : p.Sound opens) (is : p.actors s = some actor) {host : Host}
    (own : actor'.Portrayed opens (p.world.become { p.world.debugger with host }) s) :
    (p.move s actor' (p.world.become { p.world.debugger with host })).Portrayed opens :=
  h.move sound is (fun _ => rfl) (fun _ _ exhibits => exhibits) own

theorem move_step (h : p.Portrayed opens) (sound : p.Sound opens) (is : p.actors s = some actor) {move : Move}
    (step : p.world.Step s move w) (lasts : move.isActivation = false)
    (replayed : move.handles ∨ move.inspects ∨ ∃ event, move = .arrive event)
    (own : actor'.Portrayed opens w s) : (p.move s actor' w).Portrayed opens := by
  refine h.move sound is step.tasks_ne (fun ne alive exhibits => ?_) own
  have affects := step.affects lasts replayed
  refine affects.exhibits sound.well alive ne (fun {task rest} first holds unhandled => ?_) exhibits
  obtain ⟨_, _, _, -, busy⟩ := sound.handling is first holds
  exact busy.found holds unhandled

theorem start (h : p.Portrayed opens) (sound : p.Sound opens) (is : p.actors s = some actor)
    (phase : actor.phase = .starting) : (p.start s actor).Portrayed opens := by
  have known := sound.actor is
  simp only [Actor.Sound, phase] at known
  refine h.move_host sound is ?_
  have settled : Settled [] := trivial
  refine ⟨[], [], [], rfl, Step.nests_toActionsAll settled actor.steps known.plain, ?_⟩
  apply (World.portrays_iff known.idle).mpr
  intro started wanted
  have bare : p.world.debugger.stackOf actor.thread = [] := by
    rcases (known.follows started).outline with ⟨id, found, ignored⟩ | bare
    · cases (wanted id found).symm.trans ignored
    · exact Debugger.stackOf_eq_nil.mpr bare
  have shades {root : Activation} (type : root.type = some ⟨"Object"⟩) :
      Shades opens root actor.lined [] [] Trails.start.own (p.world.debugger.stackOf actor.thread) := by
    rw [bare, known.unlined]
    exact .root type.symm rfl fun frame member => absurd member List.not_mem_nil
  refine ⟨shades rfl, fun _ _ _ head => ?_, fun calls => ?_⟩
  · cases head
  · cases calls

theorem perform (h : p.Portrayed opens) (sound : p.Sound opens) {activations : Activations} {action : Action}
    {actions : List Action} (is : p.actors s = some actor)
    (phase : actor.phase = .running activations (action :: actions)) :
    (p.perform s actor activations action actions).Portrayed opens := by
  have idle : p.world.tasks s = [] := by
    have known := sound.actor is
    simp only [Actor.Sound, phase] at known
    exact known.2.1
  have known := h.actor is
  simp only [Actor.Portrayed, phase] at known
  obtain ⟨done, openers, final, split, nests, portrays⟩ := known
  have opensBlock (type : Option TypeRef) : opens type true := by
    rw [← sound.same]
    rfl
  have longer : (Step.toActionsAll actor.steps).actions = (done ++ [action]) ++ actions := by
    rw [split, List.append_assoc]
    rfl
  refine h.move_host sound is ?_
  cases nests with
  | cons first rest =>
      have before := (World.portrays_iff idle).mp portrays
      have performed := before.imp fun portrait =>
        portrait.perform opensBlock first actor.thread p.world.debugger.host
      simp only [← Trails.after_concat] at performed
      simp only [Actor.Portrayed]
      cases event : (action.perform actor.thread activations p.world.debugger.host).event with
      | none =>
          rw [event] at performed
          exact ⟨_, _, final, longer, rest, (World.portrays_iff idle).mpr performed⟩
      | some event' =>
          rw [event] at performed
          exact ⟨_, _, final, longer, rest, performed⟩

theorem step (h : p.Portrayed opens) (sound : p.Sound opens) (step : p.Step s p') : p'.Portrayed opens := by
  cases step with
  | start is phase => exact h.start sound is phase
  | perform is phase => exact h.perform sound is phase
  | notify is phase =>
      rename_i actor event activations actions
      have known := sound.actor is
      simp only [Actor.Sound, phase] at known
      obtain ⟨home, idle, _, _, -, follows⟩ := known
      have drawn := h.actor is
      simp only [Actor.Portrayed, phase] at drawn
      obtain ⟨done, openers, final, split, nests, exhibits⟩ := drawn
      have free : p.world.IsFree s := by
        rw [World.IsFree, idle]
        intro task head
        cases head
      refine h.move_step sound is (.arrive event free) rfl (.inr (.inr ⟨event, rfl⟩)) ?_
      exact ⟨done, openers, final, split, nests, World.portrays_arrive sound.well home follows exhibits⟩
  | handle is phase handles step =>
      have known := sound.actor is
      simp only [Actor.Sound, phase] at known
      obtain ⟨home, _, _, -, busy⟩ := known
      have drawn := h.actor is
      simp only [Actor.Portrayed, phase] at drawn
      obtain ⟨done, openers, final, split, nests, portrays⟩ := drawn
      refine h.move_step sound is step ?_ (.inl handles) ?_
      · exact Move.lasts_of_handles handles
      · simp only [Actor.Portrayed, phase]
        have later := World.portrays_advance sound.orderly sound.well sound.same home busy step handles portrays
        exact ⟨done, openers, final, split, nests, later⟩
  | resume is phase handled =>
      have drawn := h.actor is
      simp only [Actor.Portrayed, phase] at drawn
      exact h.move sound is (fun _ => rfl) (fun _ _ exhibits => exhibits) drawn
  | fail is phase handled => exact h.move sound is (fun _ => rfl) (fun _ _ exhibits => exhibits) trivial
  | finish is phase => exact h.move sound is (fun _ => rfl) (fun _ _ exhibits => exhibits) trivial
  | inspect is phase inspects step =>
      refine h.move_step sound is step (Move.lasts_of_inspects inspects) (.inr (.inl inspects)) ?_
      simp only [Actor.Portrayed, phase]
  | exit is phase idle => exact h.move_host sound is trivial

end Portrayed

theorem Opening.portrayed (h : p.Opening) : p.Portrayed opens := by
  refine ⟨fun is => ?_⟩
  simp only [Actor.Portrayed, (h.unstarted is).1]

theorem Reaches.portrayed (run : Reaches p p') (sound : p.Sound opens) (h : p.Portrayed opens) :
    p'.Portrayed opens := by
  induction run with
  | refl => exact h
  | step run next ih => exact ih.step (run.sound sound) next

/-! ## What the front-end reads -/

/-- A reading of a frame shows what the frame was told of an activation. -/
structure Reads (scopes : Scopes) (reading : Frame.Reading) (trail : Trail) (activation around : Activation) :
    Prop where
  locals : reading.locals = scopes.copyVisible (if trail.runner.isSome then around.scope else activation.scope)
  method : trail.last = .itself → reading.method = trail.runner.or activation.method
  unnamed : trail.last = .body → reading.method = none

theorem reads_of_shows {scopes : Scopes} {frame : Frame} {trail : Trail} {activation around : Activation}
    (shows : frame.Shows trail activation around) : Reads scopes (frame.reading scopes) trail activation around where
  locals := by simp only [Frame.reading, Frame.visibleLocals, shows.locals]
  method := shows.method
  unnamed := shows.unnamed

/-- The context that the front-end is called about is that of a thread, and its frames are read as they were told
of its activations, the innermost one as its activation is. -/
structure Depicts (p : Play) (callback : Callback) (actor : Actor) (activations : Activations) (trails : Trails) :
    Prop where
  thread : (p.world.debugger.context callback.context).thread = actor.thread
  depth : (p.world.debugger.context callback.context).depth = activations.inner.length + if actor.lined then 1 else 0
  innermost : trails.Told
  frames : ∀ i < (p.world.debugger.context callback.context).depth, ∃ reading activation trail,
    (p.world.debugger.frameView callback.context i).map (·.reading) = .ok reading ∧
      (activations.inner ++ [activations.root])[i]? = some activation ∧ trails.own[i]? = some trail ∧
      Reads p.world.debugger.host.scopes reading trail activation
        ((activations.inner ++ [activations.root])[i + 1]?.getD activations.root)

/-- Whenever the front-end is called during an event of a thread, the frames that it sees show what they were told
of the activations of the thread. -/
theorem frames_show_activations {p₀ p : Play} (opening : p₀.Opening) (run : Reaches p₀ p) {s : Nat} {task : Task}
    {rest : List Task} {callback : Callback} {next : Continuation} (tasks : p.world.tasks s = task :: rest)
    (called : task.stage = .called callback next) :
    ∃ actor activations done actions, p.actors s = some actor ∧ actor.phase = .handling activations actions ∧
      (Step.toActionsAll actor.steps).actions = done ++ actions ∧
      p.Depicts callback actor activations (Trails.after p.world.debugger.opensNativeFrame done) := by
  have sound := run.sound opening.sound
  have portrayed := run.portrayed opening.sound opening.portrayed
  cases is : p.actors s with
  | none => cases tasks.symm.trans (sound.idle is)
  | some actor =>
      have holds : task.stage.holds := by rw [called]; rfl
      obtain ⟨activations, actions, openers', phase, busy⟩ := sound.handling is tasks holds
      have drawn := portrayed.actor is
      simp only [Actor.Portrayed, phase] at drawn
      obtain ⟨done, openers, final, split, -, portrays⟩ := drawn
      have found := busy.found holds (by simp [called])
      cases busy with
      | task _ own alone follows =>
          simp only [Task.Follows, called] at follows
          obtain ⟨⟨started, about, -⟩, attends⟩ := follows
          have portrait := (World.portrays_iff tasks).mp portrays started fun id other => by
            cases found.symm.trans other
            exact attends.wanted
          rw [Debugger.stackOf_eq found, ← about] at portrait
          obtain ⟨settled, told⟩ := portrait.told (by simp [called, Stage.mayCall, Stage.callback?])
          have shades := portrait.shades
          simp only [List.head?_cons, Option.bind_some, called, Stage.event?, Option.elim_none] at shades
          refine ⟨actor, activations, done, actions, rfl, phase, split, ?_⟩
          rw [sound.same]
          refine ⟨about ▸ (sound.well.known found).2, shades.size settled, told, fun i below => ?_⟩
          have at' := List.getElem?_eq_getElem below
          obtain ⟨activation, trail, of, trailed, shows⟩ := shades.frame settled at'
          exact ⟨_, activation, trail, Debugger.reading_of_frame started at', of, trailed, reads_of_shows shows⟩

/-! ## A thread on its own -/

def next (p : Play) (s : Nat) : Play :=
  match p.actors s with
  | none => p
  | some actor =>
      match actor.phase with
      | .starting => p.start s actor
      | .running activations (action :: actions) => p.perform s actor activations action actions
      | .notifying event activations actions =>
          p.move s { actor with phase := .handling activations actions } (p.world.arrive s event)
      | .handling activations actions =>
          match p.world.tasks s with
          | [] => p.move s { actor with phase := .running activations actions } p.world
          | task :: rest =>
              match task.stage with
              | .asking event => p.move s actor (p.world.contend s task rest event false)
              | .admitted event =>
                  p.move s actor (p.world.proceed s task rest (p.world.debugger.dispatch s task.context event))
              | .called _ next =>
                  p.move s actor (p.world.proceed s task rest (next.run p.world.debugger s task.context))
              | .handled => p.move s actor ((p.world.become p.world.debugger.release).set s rest)
              | .waiting .. | .inspecting _ => p
      | .running _ [] | .ending | .ended => p

theorem Reaches.trans {p p' p'' : Play} (first : Reaches p p') (second : Reaches p' p'') : Reaches p p'' := by
  induction second with
  | refl => exact first
  | step _ next ih => exact ih.step next

theorem reaches_next (p : Play) (s : Nat) : Reaches p (p.next s) := by
  have step {p' : Play} (step : Step p s p') : Reaches p p' := (Reaches.refl p).step step
  simp only [next]
  split
  · exact .refl p
  · next actor is =>
      split
      · next phase => exact step (.start is phase)
      · next phase => exact step (.perform is phase)
      · next phase => exact step (.notify is phase)
      · next phase =>
          split
          · next handled => exact step (.resume is phase handled)
          · next tasks =>
              split
              · next stage => exact step (.handle is phase rfl (.ask tasks stage))
              · next stage => exact step (.handle is phase rfl (.dispatch tasks stage))
              · next stage => exact step (.handle is phase rfl (.answer tasks stage))
              · next stage => exact step (.handle is phase rfl (.release tasks stage))
              all_goals exact .refl p
      all_goals exact .refl p

def advance (p : Play) (s : Nat) : Nat → Play
  | 0 => p
  | n + 1 => (p.advance s n).next s

theorem reaches_advance (p : Play) (s n : Nat) : Reaches p (p.advance s n) := by
  induction n with
  | zero => exact .refl p
  | succ n ih => exact ih.trans (reaches_next _ s)

def guarded (steps : List EventDebugger.Step) : Play where
  world :=
    { debugger := (Request.debugger (.addBreakpoint "a.rb" (.line 3) none)).serve 0
        { (Debugger.initial .standard).start.2 with host := (Host.initial.register "a").2 }
      tasks := fun _ => []
      activation := 1 }
  actors := fun s => if s = 0 then some ⟨⟨1, "a"⟩, steps, false, .starting⟩ else none

theorem opening_guarded {steps : List EventDebugger.Step} (plain : Step.allPlain steps) :
    (guarded steps).Opening := by
  have only {s : Nat} {actor : Actor} (is : (guarded steps).actors s = some actor) :
      s = 0 ∧ actor = ⟨⟨1, "a"⟩, steps, false, .starting⟩ := by
    simp only [guarded] at is
    split at is
    · next here => exact ⟨here, (Option.some.inj is).symm⟩
    · cases is
  have alone {s s' : Nat} {actor actor' : Actor} (is : (guarded steps).actors s = some actor)
      (is' : (guarded steps).actors s' = some actor') : s = s' := (only is).1.trans (only is').1.symm
  refine ⟨⟨fun _ => rfl, rfl, ?_⟩, ⟨?_, ?_⟩, fun is is' _ => alone is is', fun {s actor} is => ?_⟩
  · exact (Host.grows_register _ "a").own Host.ownThreads_initial
  · intro session active
    cases active
    intro thread id recent
    cases recent
  · intro session thread id active stored
    cases active
    cases stored
  · obtain ⟨rfl, rfl⟩ := only is
    refine ⟨rfl, rfl, rfl, fun s' bound => ?_, Nat.le_refl 1, rfl, plain, rfl, fun _ => ⟨fun found => ?_, .inr rfl⟩⟩
    · cases bound
    · cases found

def callingInBlock : List EventDebugger.Step :=
  [.call "m" none none none [.nativeCall "each" (some "Array") [.call "n" none none none [.line "a.rb" 3]]]]

def inBlock : Play := (guarded callingInBlock).advance 0 25

theorem frames_in_block : ∃ actor activations done actions,
    inBlock.actors 0 = some actor ∧ actor.phase = .handling activations actions ∧
      (Step.toActionsAll actor.steps).actions = done ++ actions ∧
      inBlock.Depicts (.line 0 ⟨"a.rb", 3⟩) actor activations
        (Trails.after inBlock.world.debugger.opensNativeFrame done) ∧
      (inBlock.world.debugger.frameView 0 0).map (·.reading.method) = .ok (some "n") ∧
      (inBlock.world.debugger.frameView 0 1).map (·.reading.method) = .ok (some "each") := by
  have opening : (guarded callingInBlock).Opening := opening_guarded rfl
  have run : Reaches (guarded callingInBlock) inBlock := reaches_advance _ 0 25
  obtain ⟨event, tasks⟩ : ∃ event, inBlock.world.tasks 0 =
      [⟨⟨1, "a"⟩, 0, .called (.line 0 ⟨"a.rb", 3⟩) .resumed, false, 1, event⟩] := ⟨_, rfl⟩
  obtain ⟨actor, activations, done, actions, is, phase, split, depicts⟩ :=
    frames_show_activations opening run tasks rfl
  exact ⟨actor, activations, done, actions, is, phase, split, depicts, rfl, rfl⟩

def bodyInMethod : List EventDebugger.Step := [.call "m" none none none [.classBody "K" none [.line "a.rb" 3]]]

def inBody : Play := (guarded bodyInMethod).advance 0 18

/-- The frame of a method that is in a class body has no method. -/
theorem frame_unnamed_in_body :
    (guarded bodyInMethod).Opening ∧ Reaches (guarded bodyInMethod) inBody ∧
      (∃ task, inBody.world.tasks 0 = [task] ∧ task.stage = .called (.line 0 ⟨"a.rb", 3⟩) .resumed) ∧
      (∃ actor activations actions, inBody.actors 0 = some actor ∧ actor.phase = .handling activations actions ∧
        (activations.inner ++ [activations.root])[1]?.map (·.method) = some (some "m")) ∧
      (inBody.world.debugger.frameView 0 1).map (·.reading.method) = .ok none :=
  ⟨opening_guarded rfl, reaches_advance _ 0 18, ⟨_, rfl, rfl⟩, ⟨_, _, _, rfl, rfl, rfl⟩, rfl⟩

end Play

end EventDebugger
