import EventDebugger.Debugger.Sections
import EventDebugger.Proofs.Replay.Following
import EventDebugger.Proofs.Ticket.Halts

/-!
# Runs with sections

Apart from notifying events, threads load code, and run sections that are not debugged or whose raised
exceptions keep their place. In every run, whatever is done in it, a thread with an event on its way keeps
its system thread, and the event its context, which is that of the thread.

* `World.Acts.lodges`: what a step makes of the contexts of the threads.
* `World.Course.lodged`: events in different system threads have different contexts.
-/

namespace EventDebugger

/-- What a thread does in a step, sections included. Their starts and stops are requests. -/
inductive Act where
  | move (move : Move)
  /-- Code is about to be loaded. -/
  | load (stop : Bool)
  /-- The context of a section is looked up. -/
  | meet
  /-- A section that is not debugged begins or ends. -/
  | skip (context : ContextId) (on : Bool)
  /-- A section that keeps the place of exceptions begins or ends. -/
  | keep (on : Bool)
deriving DecidableEq, Repr

/-- Steps, sections included. -/
inductive World.Acts : World → Nat → Act → World → Prop where
  | move {w w' : World} {s : Nat} {move : Move} (step : w.Step s move w') : Acts w s (.move move) w'
  | load {w : World} {s : Nat} (stop : Bool) (free : w.IsFree s) :
      Acts w s (.load stop) (w.become (w.debugger.prepareLoad s stop).2)
  | meet {w : World} {s : Nat} (free : w.IsFree s) :
      Acts w s .meet (w.become (w.debugger.currentContext s).2)
  | skip {w : World} {s : Nat} (id : ContextId) (on : Bool) (free : w.IsFree s) :
      Acts w s (.skip id on)
        (w.become (w.debugger.updateContext id fun context => { context with skipped := on }))
  | keep {w : World} {s : Nat} (on : Bool) (free : w.IsFree s) :
      Acts w s (.keep on)
        (w.become { w.debugger with settings := { w.debugger.settings with postMortem := on } })

/-- Runs with sections, whose steps are of an allowed kind. -/
inductive World.Course (allowed : World → Nat → Act → Prop) : World → World → Prop where
  | refl (w : World) : Course allowed w w
  | step {w w' w'' : World} {s : Nat} {act : Act} (course : Course allowed w w')
      (next : w'.Acts s act w'') (ok : allowed w' s act) : Course allowed w w''

def Context.owner (context : Context) : Thread × Bool := (context.thread, context.ignored)

namespace Debugger

structure Lodges (d d' : Debugger) : Prop where
  size : d.contexts.size ≤ d'.contexts.size
  owner : ∀ id < d.contexts.size, (d'.context id).owner = (d.context id).owner
  tracked : d.WellTracked → d'.WellTracked
  origin : d.WellTracked → ∀ {thread id}, d'.contextOf? thread = some id →
    d.contextOf? thread = some id ∨ d.contexts.size ≤ id

variable {d d' d'' : Debugger} {system : Nat} {id : ContextId}

theorem Lodges.thread (h : Lodges d d') (id : ContextId) (known : id < d.contexts.size) :
    (d'.context id).thread = (d.context id).thread := congrArg (·.1) (h.owner id known)

theorem Lodges.trans (first : Lodges d d') (second : Lodges d' d'') : Lodges d d'' where
  size := Nat.le_trans first.size second.size
  owner id known := by
    rw [second.owner id (Nat.lt_of_lt_of_le known first.size), first.owner id known]
  tracked well := second.tracked (first.tracked well)
  origin well _ _ is := by
    rcases second.origin (first.tracked well) is with old | new
    · exact first.origin well old
    · exact .inr (Nat.le_trans first.size new)

theorem Tracks.lodges (h : Tracks d d') : Lodges d d' where
  size := h.size
  owner id known := congrArg (fun core => (core.1, core.2.2.1)) (h.core id known)
  tracked := h.tracked
  origin := h.origin

theorem lodges_of_session (session : d'.session = d.session) (size : d.contexts.size ≤ d'.contexts.size)
    (owner : ∀ id < d.contexts.size, (d'.context id).owner = (d.context id).owner) : Lodges d d' where
  size := size
  owner := owner
  tracked well := by
    refine ⟨fun active => well.coherent (session.symm.trans active), fun {_ thread' id} active stored => ?_⟩
    obtain ⟨known, home⟩ := well.home (session.symm.trans active) stored
    exact ⟨Nat.lt_of_lt_of_le known size, (congrArg (·.1) (owner id known)).trans home⟩
  origin _ {thread id} is := by
    rw [contextOf?, session] at is
    exact .inl is

theorem Touches.lodges (h : Touches system id d d') : Lodges d d' :=
  lodges_of_session h.session h.size fun other known =>
    congrArg (fun traits => (traits.1, traits.2.2.2.2.2.1)) (h.traits other known)

theorem lodges_of_empty (contexts : d'.contexts = d.contexts)
    (empty : d'.session = none ∨ d'.session = some newSession) : Lodges d d' := by
  have unknown (thread : Thread) : d'.contextOf? thread = none := by
    rcases empty with none | new
    · rw [contextOf?, none, Option.bind_none]
    · rw [contextOf?, new, Option.bind_some]
      rfl
  refine ⟨Nat.le_of_eq (congrArg _ contexts.symm), fun id _ => by rw [context, contexts, context], fun _ => ?_,
    fun _ thread id is => by cases (unknown thread).symm.trans is⟩
  rcases empty with none | new
  · exact .of_ended none
  · refine ⟨fun active => ?_, fun active stored => ?_⟩
    · cases new.symm.trans active
      intro thread id recent
      cases recent
    · cases new.symm.trans active
      cases stored

theorem lodges_start (d : Debugger) : Lodges d d.start.2 := by
  simp only [start]
  split
  · exact lodges_of_session rfl (Nat.le_refl _) fun _ _ => rfl
  · exact lodges_of_empty rfl (.inr rfl)

theorem lodges_stop {ended : Bool} (h : d.stop = .ok (ended, d')) : Lodges d d' := by
  obtain ⟨_, _, stopped⟩ := except_bind_eq_ok h
  simp only at stopped
  split at stopped
  · cases stopped
    exact lodges_of_session rfl (Nat.le_refl _) fun _ _ => rfl
  · cases stopped
    exact lodges_of_empty rfl (.inl rfl)

theorem lodges_forceStop (d : Debugger) : Lodges d d.forceStop := by
  simp only [forceStop]
  split
  · exact lodges_of_empty rfl (.inl rfl)
  · exact lodges_of_session rfl (Nat.le_refl _) fun _ _ => rfl

theorem lodges_request (d : Debugger) (request : Request) (system : Nat) :
    Lodges d (request.serve system d) := by
  cases activation : request.isActivation with
  | false => exact (request.tends_request system d activation).tracks.lodges
  | true =>
      cases request with
      | context => cases activation
      | debugger command =>
          simp only [Request.isActivation, decide_eq_true_eq] at activation
          rcases activation with rfl | rfl | rfl
          · exact d.lodges_start
          · rw [Request.serve]
            change Lodges d ((do return .flag (← Script.Attempt.change stop) : Script.Attempt Script.Reply)
              (d, .initial [])).2.1
            rw [Script.Attempt.debugger_map, Script.Attempt.debugger_change]
            split
            · next stopped => exact lodges_stop stopped
            · exact (Tracks.refl d).lodges
          · exact d.lodges_forceStop

theorem lodges_dispatch (d : Debugger) (system : Nat) (id : ContextId) (event : Event) :
    Lodges d (d.dispatch system id event).2 := by
  cases exits : event.isExit with
  | false => exact (d.touches_dispatch system id event exits).lodges
  | true =>
      obtain ⟨d', touched, same | ended⟩ := d.dispatch_exit system id event exits
      · rw [same]
        exact touched.lodges
      · rw [ended]
        exact touched.lodges.trans d'.lodges_forceStop

theorem lodges_updateContext (d : Debugger) (id : ContextId) (f : Context → Context)
    (hf : ∀ context, (f context).owner = context.owner) : Lodges d (d.updateContext id f) := by
  refine lodges_of_session rfl (Nat.le_of_eq (d.size_updateContext id f).symm) fun other known => ?_
  by_cases same : other = id
  · subst same
    rw [d.context_updateContext_self f known, hf]
  · rw [d.context_updateContext_ne f same]

theorem lodges_prepareLoad (d : Debugger) (system : Nat) (stop : Bool) :
    Lodges d (d.prepareLoad system stop).2 := by
  have current := (d.tends_currentContext system).tracks.lodges
  simp only [prepareLoad]
  split
  · next found => simpa only [found] using current
  · next id d₁ found =>
      rw [found] at current
      have emptied := current.trans (d₁.lodges_updateContext id ({ · with stack := [] }) fun _ => rfl)
      split
      · split
        · exact emptied
        · next commanded =>
            have tends : Tends system _ _ := tends_command core_interrupt commanded
            exact emptied.trans tends.tracks.lodges
      · exact emptied

theorem currentContext_eq_ok {d d' : Debugger} {system : Nat} {id : ContextId}
    (h : d.currentContext system = (.ok id, d')) :
    d'.host.boundTo? system = some (d.currentThread system).1 ∧
      d'.contextOf? (d.currentThread system).1 = some id := by
  have bound : (d.currentThread system).2.host.boundTo? system = some (d.currentThread system).1 :=
    Host.boundTo?_currentThread _ _
  simp only [currentContext] at h
  split at h
  · next found =>
      cases h
      obtain ⟨session, active, tracked⟩ := except_bind_eq_ok found
      split at tracked
      · have same := Except.ok.inj tracked
        have host := (d.currentThread system).2.host_track session (d.currentThread system).1
        have placed := contextOf?_track (d.currentThread system).2 session (d.currentThread system).1
        rw [same] at host placed
        exact ⟨(congrArg (Host.boundTo? · system) host).trans bound, placed⟩
      · cases tracked
  · cases h

theorem neutral_stack (stack : CallStack) : Neutral fun context => context.stack = stack :=
  ⟨fun h _ _ _ _ _ => h, fun _ _ _ h => h⟩

theorem unstepped_stack (stack : CallStack) : Unstepped fun context => context.stack = stack :=
  fun h _ _ _ _ _ _ => h

theorem preserves_prepareLoad {P : Context → Prop} (tolerant : Tolerant P) (d : Debugger) (system : Nat)
    (stop : Bool) (other : (d.currentContext system).1 ≠ .ok id) :
    Preserves P id d (d.prepareLoad system stop).2 := by
  have current : Preserves P id d (d.currentContext system).2 := preserves_currentContext tolerant d system
  simp only [prepareLoad]
  split
  · next found => simpa only [found] using current
  · next own d₁ found =>
      rw [found] at current other
      have ne : id ≠ own := fun same => other (same ▸ rfl)
      have emptied : Preserves P id d (d₁.updateContext own fun context => { context with stack := [] }) := by
        intro holds
        rw [d₁.context_updateContext_ne _ ne]
        exact current holds
      split
      · split
        · exact emptied
        · next commanded => exact emptied.trans (preserves_command_ne ne commanded)
      · exact emptied

theorem grows_prepareLoad (d : Debugger) (system : Nat) (stop : Bool) :
    d.host.Grows (d.prepareLoad system stop).2.host := by
  have current := (d.tends_currentContext system).keeps.host
  simp only [prepareLoad]
  split
  · next found => simpa only [found] using current
  · next id d₁ found =>
      rw [found] at current
      split
      · split
        · exact current
        · next commanded =>
            have tends : Tends system _ _ := tends_command core_interrupt commanded
            exact current.trans tends.keeps.host
      · exact current

end Debugger

namespace World

variable {w w' : World} {s : Nat} {move : Move} {act : Act}

theorem Step.lodges (step : w.Step s move w') : w.debugger.Lodges w'.debugger := by
  have host (host : Host) : w.debugger.Lodges { w.debugger with host } :=
    Debugger.lodges_of_session rfl (Nat.le_refl _) fun _ _ => rfl
  cases step with
  | arrive event free =>
      rw [debugger_arrive]
      exact (w.debugger.tends_arrive s event).tracks.lodges
  | ask tasks stage =>
      rw [debugger_contend]
      exact (w.debugger.tracks_contend _ _ _).lodges
  | awake tasks stage awake =>
      rw [debugger_contend]
      exact (w.debugger.tracks_contend _ _ _).lodges
  | dispatch tasks stage => exact w.debugger.lodges_dispatch s _ _
  | answer tasks stage => exact (w.debugger.touches_run s _ _).lodges
  | fail tasks stage => exact (Debugger.Tracks.refl _).lodges
  | release tasks stage => exact w.debugger.tracks_release.lodges
  | request request free => exact w.debugger.lodges_request request s
  | enterPostMortem free =>
      rw [debugger_inspect]
      exact (w.debugger.tends_enterPostMortem s).tracks.lodges
  | leavePostMortem tasks stage => exact (w.debugger.tends_leavePostMortem s _).tracks.lodges
  | execute | register | begin | exit => exact host _

theorem Acts.lodges (acts : w.Acts s act w') : w.debugger.Lodges w'.debugger := by
  cases acts with
  | move step => exact step.lodges
  | load stop free => exact w.debugger.lodges_prepareLoad s stop
  | meet free => exact (w.debugger.tends_currentContext s).tracks.lodges
  | skip id on free => exact w.debugger.lodges_updateContext id ({ · with skipped := on }) fun _ => rfl
  | keep on free => exact Debugger.lodges_of_session rfl (Nat.le_refl _) fun _ _ => rfl

/-! ## The frames of contexts -/

theorem Step.stack (step : w.Step s move w') (other : move.isDispatch = false) (id : ContextId) :
    (w'.debugger.context id).stack = (w.debugger.context id).stack :=
  step.preserves (Debugger.neutral_stack _) other (.inl (Debugger.unstepped_stack _)) rfl

theorem Piece.others {task : Task} {rest : List Task} {piece : Outcome × Debugger}
    (is : w.Piece s move task rest piece) {id : ContextId} (known : id < w.debugger.contexts.size)
    (ne : id ≠ task.context) : piece.2.context id = w.debugger.context id := by
  cases is with
  | dispatch tasks stage => exact w.debugger.context_dispatch_ne s _ _ known ne
  | answer tasks stage => exact (w.debugger.touches_run s task.context _).others id known ne

/-! ## The tasks of events -/

inductive Renewed (w : World) (s : Nat) (move : Move) (w' : World) (task' : Task) : Prop where
  /-- The event of a task goes on; the front-end is called for it in a dispatch only. -/
  | moved {task : Task} (before : task ∈ w.tasks s) (event : task.stage.isInspecting = false)
      (thread : task'.thread = task.thread) (context : task'.context = task.context)
      (silent : move.isDispatch = false → task'.stage.callback? = none)
  | arrived (bound : w'.debugger.host.boundTo? s = some task'.thread)
      (found : w'.debugger.contextOf? task'.thread = some task'.context)
      (silent : task'.stage.callback? = none) (heard : (w'.debugger.context task'.context).ignored = false)
  | inspects (shown : task'.stage.isInspecting)

theorem Step.renewed (step : w.Step s move w') {s' : Nat} {task' : Task} (member : task' ∈ w'.tasks s') :
    task' ∈ w.tasks s' ∨ (s' = s ∧ Renewed w s move w' task') := by
  have split {d : Debugger} {own : List Task} (member : task' ∈ ((w.become d).set s own).tasks s') :
      task' ∈ w.tasks s' ∨ (s' = s ∧ task' ∈ own) := by
    by_cases here : s' = s
    · subst here
      rw [tasks_set_self] at member
      exact .inr ⟨rfl, member⟩
    · rw [tasks_set_ne _ here] at member
      exact .inl member
  have popped {d : Debugger} {task : Task} {rest : List Task} (tasks : w.tasks s = task :: rest)
      (member : task' ∈ ((w.become d).set s rest).tasks s') : task' ∈ w.tasks s' := by
    rcases split member with before | ⟨rfl, inRest⟩
    · exact before
    · exact mem_outer tasks inRest
  have swapped {d : Debugger} {task : Task} {rest : List Task} {stage : Stage} {reentrant : Bool}
      {activation : Nat} {handled : Option Event} (tasks : w.tasks s = task :: rest)
      (event : task.stage.isInspecting = false)
      (silent : move.isDispatch = false → stage.callback? = none)
      (member : task' ∈ ((w.become d).set s
        (⟨task.thread, task.context, stage, reentrant, activation, handled⟩ :: rest)).tasks s') :
      task' ∈ w.tasks s' ∨ (s' = s ∧ Renewed w s move w' task') := by
    rcases split member with before | ⟨rfl, own⟩
    · exact .inl before
    · rcases List.mem_cons.mp own with rfl | inRest
      · exact .inr ⟨rfl, .moved (mem_innermost tasks) event rfl rfl silent⟩
      · exact .inl (mem_outer tasks inRest)
  have contended {task : Task} {rest : List Task} (tasks : w.tasks s = task :: rest)
      (event : task.stage.isInspecting = false) {event' : Event} {granted : Bool}
      (member : task' ∈ (w.contend s task rest event' granted).tasks s') :
      task' ∈ w.tasks s' ∨ (s' = s ∧ Renewed w s move w' task') := by
    simp only [World.contend] at member
    split at member
    · exact swapped tasks event (fun _ => rfl) member
    · exact .inl (popped tasks member)
    · exact swapped tasks event (fun _ => rfl) member
  cases step with
  | arrive event free =>
      simp only [World.arrive] at member ⊢
      rcases arrived : w.debugger.arrive s event with ⟨_ | ⟨thread, id⟩, d⟩
      all_goals simp only [arrived] at member ⊢
      · exact .inl member
      · rcases split member with before | ⟨rfl, own⟩
        · exact .inl before
        · rcases List.mem_cons.mp own with rfl | before
          · obtain ⟨_, bound, found, heard⟩ := Debugger.arrive_eq_some arrived
            exact .inr ⟨rfl, .arrived bound found rfl heard⟩
          · exact .inl before
  | ask tasks stage => exact contended tasks (by rw [stage]; rfl) member
  | awake tasks stage awake => exact contended tasks (by rw [stage]; rfl) member
  | dispatch tasks stage | answer tasks stage =>
      exact swapped tasks (by rw [stage]; rfl) (fun other => by cases other) member
  | fail tasks stage => exact swapped tasks (by rw [stage]; rfl) (fun _ => rfl) member
  | release tasks stage => exact .inl (popped tasks member)
  | leavePostMortem tasks stage => exact .inl (popped tasks member)
  | enterPostMortem free =>
      simp only [World.inspect] at member
      split at member
      · exact .inl member
      · rcases split member with before | ⟨rfl, own⟩
        · exact .inl before
        · rcases List.mem_cons.mp own with rfl | before
          · exact .inr ⟨rfl, .inspects rfl⟩
          · exact .inl before
  | request | execute | register | begin | exit => exact .inl member

theorem Step.hosts (step : w.Step s move w') (own : w.debugger.host.OwnThreads) :
    w.debugger.host.Grows w'.debugger.host ∨
      ((w.tasks s = [] ∧ (move = .exit ∨ w.debugger.host.boundTo? s = none)) ∧ w'.debugger.host.OwnThreads ∧
        ∀ s', s' ≠ s → w'.debugger.host.boundTo? s' = w.debugger.host.boundTo? s') := by
  cases step with
  | arrive event free =>
      rw [debugger_arrive]
      exact .inl (w.debugger.tends_arrive s event).keeps.host
  | ask | awake =>
      rw [debugger_contend, Debugger.host_contend]
      exact .inl (.refl _)
  | dispatch tasks stage => exact .inl (w.debugger.grows_dispatch s _ _)
  | answer tasks stage => exact .inl (w.debugger.touches_run s _ _).grows
  | fail tasks stage => exact .inl (.refl _)
  | release tasks stage =>
      left
      change w.debugger.host.Grows w.debugger.release.host
      rw [Debugger.host_release]
      exact .refl _
  | request request free => exact .inl (w.debugger.shifts_request request s).host
  | enterPostMortem free =>
      rw [debugger_inspect]
      exact .inl (w.debugger.tends_enterPostMortem s).keeps.host
  | leavePostMortem tasks stage => exact .inl (w.debugger.tends_leavePostMortem s _).keeps.host
  | execute free same => exact .inl same.grows
  | register name free => exact .inl (Host.grows_register _ name)
  | begin idle free unbound registered =>
      refine .inr ⟨⟨idle, .inr free⟩, Host.ownThreads_bind own free unbound registered, fun s' ne => ?_⟩
      change (w.debugger.host.bind s _).boundTo? s' = _
      rw [Host.boundTo?_bind, if_neg ne]
  | exit idle bound =>
      exact .inr ⟨⟨idle, .inl rfl⟩, Host.ownThreads_exitThread own bound,
        fun s' ne => Host.boundTo?_exitThread own bound ne⟩

structure Lodged (w : World) : Prop where
  own : w.debugger.host.OwnThreads
  tracked : w.debugger.WellTracked
  bound : ∀ s, ∀ task ∈ w.tasks s, task.stage.isInspecting = false →
    w.debugger.host.boundTo? s = some task.thread
  home : ∀ s, ∀ task ∈ w.tasks s, task.stage.isInspecting = false →
    task.context < w.debugger.contexts.size ∧ (w.debugger.context task.context).thread = task.thread

theorem Acts.bound (acts : w.Acts s act w') (own : w.debugger.host.OwnThreads) {s' : Nat} {thread : Thread}
    (bound : w.debugger.host.boundTo? s' = some thread) (stays : s' ≠ s ∨ act ≠ .move .exit) :
    w'.debugger.host.boundTo? s' = some thread := by
  cases acts with
  | move step =>
      rcases step.hosts own with grows | ⟨⟨-, leaves⟩, -, others⟩
      · exact grows.bound bound
      · by_cases here : s' = s
        · subst here
          rcases leaves with rfl | unbound
          · exact absurd rfl (stays.resolve_left fun ne => ne rfl)
          · cases bound.symm.trans unbound
        · exact (others s' here).trans bound
  | load stop free => exact (w.debugger.grows_prepareLoad s stop).bound bound
  | meet free => exact (w.debugger.tends_currentContext s).keeps.host.bound bound
  | skip | keep => exact bound

namespace Lodged

theorem of_idle (idle : ∀ s, w.tasks s = []) (own : w.debugger.host.OwnThreads)
    (tracked : w.debugger.WellTracked) : w.Lodged := by
  refine ⟨own, tracked, fun s task member => ?_, fun s task member => ?_⟩
  all_goals
    rw [idle s] at member
    cases member

theorem apart (h : w.Lodged) {s s' : Nat} (ne : s' ≠ s) {task other : Task} (member : task ∈ w.tasks s)
    (event : task.stage.isInspecting = false) (member' : other ∈ w.tasks s')
    (event' : other.stage.isInspecting = false) : other.context ≠ task.context := by
  intro same
  apply ne
  have thread : other.thread = task.thread := by
    rw [← (h.home s' other member' event').2, same, (h.home s task member event).2]
  exact h.own.injective (h.bound s' other member' event') (thread ▸ h.bound s task member event)

theorem step (h : w.Lodged) (step : w.Step s move w') : w'.Lodged := by
  have lodges := step.lodges
  have tracked := lodges.tracked h.tracked
  have own : w'.debugger.host.OwnThreads ∧ ∀ s', ∀ task ∈ w.tasks s', task.stage.isInspecting = false →
      w'.debugger.host.boundTo? s' = some task.thread := by
    rcases step.hosts h.own with grows | ⟨⟨idle, -⟩, own, others⟩
    · exact ⟨grows.own h.own, fun s' task member event => grows.bound (h.bound s' task member event)⟩
    · refine ⟨own, fun s' task member event => (others s' ?_).trans (h.bound s' task member event)⟩
      rintro rfl
      rw [idle] at member
      cases member
  have home (s' : Nat) (task : Task) (member : task ∈ w.tasks s') (event : task.stage.isInspecting = false) :
      task.context < w'.debugger.contexts.size ∧ (w'.debugger.context task.context).thread = task.thread := by
    obtain ⟨known, home⟩ := h.home s' task member event
    exact ⟨Nat.lt_of_lt_of_le known lodges.size, (lodges.thread _ known).trans home⟩
  refine ⟨own.1, tracked, fun s' task' member event => ?_, fun s' task' member event => ?_⟩
  · rcases step.renewed member with before | ⟨rfl, ⟨before, was, thread, _⟩ | ⟨bound, _⟩ | shown⟩
    · exact own.2 s' task' before event
    · rw [thread]
      exact own.2 s' _ before was
    · exact bound
    · cases event.symm.trans shown
  · rcases step.renewed member with before | ⟨rfl, ⟨before, was, thread, context⟩ | ⟨_, found⟩ | shown⟩
    · exact home s' task' before event
    · rw [thread, context]
      exact home s' _ before was
    · exact tracked.known found
    · cases event.symm.trans shown

theorem become (h : w.Lodged) {d : Debugger} (lodges : w.debugger.Lodges d)
    (grows : w.debugger.host.Grows d.host) : (w.become d).Lodged := by
  refine ⟨grows.own h.own, lodges.tracked h.tracked,
    fun s task member event => grows.bound (h.bound s task member event), fun s task member event => ?_⟩
  obtain ⟨known, home⟩ := h.home s task member event
  exact ⟨Nat.lt_of_lt_of_le known lodges.size, (lodges.thread _ known).trans home⟩

theorem acts (h : w.Lodged) (acts : w.Acts s act w') : w'.Lodged := by
  have lodges := acts.lodges
  cases acts with
  | move step => exact h.step step
  | load stop free => exact h.become lodges (w.debugger.grows_prepareLoad s stop)
  | meet free => exact h.become lodges (w.debugger.tends_currentContext s).keeps.host
  | skip | keep => exact h.become lodges (.refl _)

end Lodged

/-! ## Runs -/

/-- All steps are allowed. -/
def Anything (_ : World) (_ : Nat) (_ : Act) : Prop := True

instance (w : World) (s : Nat) (act : Act) : Decidable (Anything w s act) := inferInstanceAs (Decidable True)

theorem Course.lodged {allowed : World → Nat → Act → Prop} (course : Course allowed w w') (h : w.Lodged) :
    w'.Lodged := by
  induction course with
  | refl => exact h
  | step course next ok ih => exact ih.acts next

theorem Course.trans {allowed : World → Nat → Act → Prop} {w'' : World} (first : Course allowed w w')
    (second : Course allowed w' w'') : Course allowed w w'' := by
  induction second with
  | refl => exact first
  | step _ next ok ih => exact ih.step next ok

theorem Course.mono {allowed allowed' : World → Nat → Act → Prop} (course : Course allowed w w')
    (weaker : ∀ {w s act}, allowed w s act → allowed' w s act) : Course allowed' w w' := by
  induction course with
  | refl => exact .refl w
  | step course next ok ih => exact ih.step next (weaker ok)

/-! ## Steps that are carried out -/

def unstarted : World := ⟨.initial .standard, fun _ => [], 0⟩

instance (w : World) (s : Nat) : Decidable (w.IsFree s) :=
  inferInstanceAs (Decidable (∀ task ∈ (w.tasks s).head?, task.stage.inFront))

instance (before after : Host) : Decidable (before.SameThreads after) :=
  decidable_of_iff (after.bound = before.bound ∧ after.threadCount = before.threadCount ∧
      after.identities = before.identities)
    ⟨fun ⟨bound, count, identities⟩ => ⟨bound, count, identities⟩,
      fun ⟨bound, count, identities⟩ => ⟨bound, count, identities⟩⟩

instance (host : Host) (thread : Thread) : Decidable (∀ s, host.boundTo? s ≠ some thread) :=
  decidable_of_iff (∀ entry ∈ host.bound, host.boundTo? entry.1 ≠ some thread) (by
    refine ⟨fun unbound s bound => ?_, fun unbound entry _ => unbound entry.1⟩
    obtain ⟨before, after, split, -⟩ := List.lookup_eq_some_iff.mp bound
    exact unbound (s, thread) (split ▸ List.mem_append_right _ List.mem_cons_self) bound)

def perform? (w : World) (s : Nat) (act : Act) : Option World :=
  match act, w.tasks s with
  | .move (.arrive event), _ => if w.IsFree s then some (w.arrive s event) else none
  | .move .ask, task :: rest =>
      match task.stage with
      | .asking event => some (w.contend s task rest event false)
      | _ => none
  | .move .awake, task :: rest =>
      match task.stage with
      | .waiting event reason since =>
          if w.debugger.isAwake ⟨s, task.thread, task.context, event, reason, since⟩ then
            some (w.contend s task rest event (reason == .queued))
          else none
      | _ => none
  | .move .dispatch, task :: rest =>
      match task.stage with
      | .admitted event => some (w.proceed s task rest (w.debugger.dispatch s task.context event))
      | _ => none
  | .move .answer, task :: rest =>
      match task.stage with
      | .called _ next => some (w.proceed s task rest (next.run w.debugger s task.context))
      | _ => none
  | .move .fail, task :: rest =>
      match task.stage with
      | .called _ _ => some (w.proceed s task rest (.done, w.debugger))
      | _ => none
  | .move .release, task :: rest =>
      match task.stage with
      | .handled => some ((w.become w.debugger.release).set s rest)
      | _ => none
  | .move .leavePostMortem, task :: rest =>
      match task.stage with
      | .inspecting before => some ((w.become (w.debugger.leavePostMortem s before).2).set s rest)
      | _ => none
  | .move (.request request), _ => if w.IsFree s then some (w.become (request.serve s w.debugger)) else none
  | .move .enterPostMortem, _ => if w.IsFree s then some (w.inspect s) else none
  | .move (.execute host), _ =>
      if w.IsFree s ∧ w.debugger.host.SameThreads host then some (w.become { w.debugger with host }) else none
  | .move (.register name), _ =>
      if w.IsFree s then some (w.become { w.debugger with host := (w.debugger.host.register name).2 })
      else none
  | .move (.begin thread), [] =>
      if w.debugger.host.boundTo? s = none ∧ (∀ s', w.debugger.host.boundTo? s' ≠ some thread) ∧
          thread.id ≤ w.debugger.host.threadCount then
        some (w.become { w.debugger with host := w.debugger.host.bind s thread })
      else none
  | .move .exit, [] =>
      match w.debugger.host.boundTo? s with
      | some thread => some (w.become { w.debugger with host := w.debugger.host.exitThread thread })
      | none => none
  | .load stop, _ => if w.IsFree s then some (w.become (w.debugger.prepareLoad s stop).2) else none
  | .meet, _ => if w.IsFree s then some (w.become (w.debugger.currentContext s).2) else none
  | .skip id on, _ =>
      if w.IsFree s then
        some (w.become (w.debugger.updateContext id fun context => { context with skipped := on }))
      else none
  | .keep on, _ =>
      if w.IsFree s then
        some (w.become { w.debugger with settings := { w.debugger.settings with postMortem := on } })
      else none
  | _, _ => none

theorem acts_of_perform? (performed : w.perform? s act = some w') : w.Acts s act w' := by
  have guarded {p : Prop} [Decidable p] {later : World} (h : (if p then some later else none) = some w') :
      p ∧ later = w' := by
    obtain ⟨holds, same⟩ := Option.ite_none_right_eq_some.mp h
    exact ⟨holds, Option.some.inj same⟩
  simp only [perform?] at performed
  split at performed
  · obtain ⟨guard, rfl⟩ := guarded performed
    exact .move (.arrive _ guard)
  · split at performed
    · next tasks _ _ stage =>
        cases performed
        exact .move (.ask tasks stage)
    · cases performed
  · split at performed
    · next tasks _ _ _ _ stage =>
        obtain ⟨awake, rfl⟩ := guarded performed
        exact .move (.awake tasks stage awake)
    · cases performed
  · split at performed
    · next tasks _ _ stage =>
        cases performed
        exact .move (.dispatch tasks stage)
    · cases performed
  · split at performed
    · next tasks _ _ _ stage =>
        cases performed
        exact .move (.answer tasks stage)
    · cases performed
  · split at performed
    · next tasks _ _ _ stage =>
        cases performed
        exact .move (.fail tasks stage)
    · cases performed
  · split at performed
    · next tasks _ stage =>
        cases performed
        exact .move (.release tasks stage)
    · cases performed
  · split at performed
    · next tasks _ _ stage =>
        cases performed
        exact .move (.leavePostMortem tasks stage)
    · cases performed
  · obtain ⟨guard, rfl⟩ := guarded performed
    exact .move (.request _ guard)
  · obtain ⟨guard, rfl⟩ := guarded performed
    exact .move (.enterPostMortem guard)
  · obtain ⟨guard, rfl⟩ := guarded performed
    exact .move (.execute guard.1 guard.2)
  · obtain ⟨guard, rfl⟩ := guarded performed
    exact .move (.register _ guard)
  · next idle =>
      obtain ⟨⟨free, unbound, registered⟩, rfl⟩ := guarded performed
      exact .move (.begin idle free unbound registered)
  · split at performed
    · next idle _ _ bound =>
        cases performed
        exact .move (.exit idle bound)
    · cases performed
  · obtain ⟨guard, rfl⟩ := guarded performed
    exact .load _ guard
  · obtain ⟨guard, rfl⟩ := guarded performed
    exact .meet guard
  · obtain ⟨guard, rfl⟩ := guarded performed
    exact .skip _ _ guard
  · obtain ⟨guard, rfl⟩ := guarded performed
    exact .keep _ guard
  · cases performed

theorem perform?_of_acts (acts : w.Acts s act w') : w.perform? s act = some w' := by
  cases acts with
  | move step =>
      cases step with
      | ask tasks stage | dispatch tasks stage | answer tasks stage | fail tasks stage | release tasks stage
      | leavePostMortem tasks stage =>
          simp only [perform?, tasks, stage]
      | awake tasks stage awake => simp only [perform?, tasks, stage, if_pos awake]
      | arrive event free | request request free | enterPostMortem free | register name free =>
          simp only [perform?, if_pos free]
      | execute free same => simp only [perform?, if_pos (And.intro free same)]
      | begin idle free unbound registered =>
          simp only [perform?, idle, if_pos (And.intro free (And.intro unbound registered))]
      | exit idle bound => simp only [perform?, idle, bound]
  | load stop free => simp only [perform?, if_pos free]
  | meet free => simp only [perform?, if_pos free]
  | skip id on free => simp only [perform?, if_pos free]
  | keep on free => simp only [perform?, if_pos free]

variable (allowed : World → Nat → Act → Prop) [∀ w s act, Decidable (allowed w s act)]

def follow? (w : World) : List (Nat × Act) → Option World
  | [] => some w
  | (s, act) :: steps => if allowed w s act then (w.perform? s act).bind (follow? · steps) else none

variable {allowed}

theorem course_of_follow? (steps : List (Nat × Act)) (followed : w.follow? allowed steps = some w') :
    Course allowed w w' := by
  induction steps generalizing w with
  | nil =>
      cases followed
      exact .refl _
  | cons step steps ih =>
      obtain ⟨s, act⟩ := step
      simp only [follow?, Option.ite_none_right_eq_some, Option.bind_eq_some_iff] at followed
      obtain ⟨ok, next, performed, rest⟩ := followed
      exact ((Course.refl w).step (acts_of_perform? performed) ok).trans (ih rest)

def afterwards (w : World) (steps : List (Nat × Act)) : World := (w.follow? Anything steps).getD w

theorem course_afterwards (w : World) (steps : List (Nat × Act)) : Course Anything w (w.afterwards steps) := by
  simp only [afterwards]
  cases followed : w.follow? Anything steps with
  | none => exact .refl w
  | some later => exact course_of_follow? steps followed

end World

end EventDebugger
