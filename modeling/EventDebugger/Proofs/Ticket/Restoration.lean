import EventDebugger.Proofs.Dispatch.Breakpoints
import EventDebugger.Proofs.Observation.Events
import EventDebugger.Proofs.Ticket.Alarm
import EventDebugger.Proofs.Ticket.Callbacks
import EventDebugger.Proofs.Ticket.Snapshots
import EventDebugger.Proofs.Ticket.Turns

/-!
# What a post-mortem restores

While the front-end is called on a post-mortem, the other threads are suspended and tracing is turned off.
Afterwards tracing is what it was, for the debugger and for the current thread. The other threads are
resumed, all of them: those that had been suspended before do not stay so.

* `Debugger.leavePostMortem_spec`: what is left after a post-mortem.
* `World.restored_of_postMortem`: a post-mortem before which none of the other threads was suspended.
-/

namespace EventDebugger

def Context.switches (context : Context) : Bool × Bool := (context.suspended, context.tracing)

namespace Debugger

variable {d d' d'' : Debugger} {system : Nat} {thread : Thread} {id : ContextId}

structure Spares (d d' : Debugger) : Prop where
  settings : d'.settings = d.settings
  switches : ∀ id, (d'.context id).switches = (d.context id).switches

theorem Spares.trans (first : Spares d d') (second : Spares d' d'') : Spares d d'' :=
  ⟨second.settings.trans first.settings, fun id => (second.switches id).trans (first.switches id)⟩

theorem spares_newContext (d : Debugger) (thread : Thread) : Spares d (d.newContext thread).2 := by
  refine ⟨rfl, fun id => ?_⟩
  let counted : Debugger := { d with contextCount := d.contextCount + 1 }
  -- A new context is like the one that is read where there is none.
  let made := Context.initial thread (d.contextCount + 1) (d.host.isDebuggerThread thread)
  have kept : Preserves (fun context => context.switches = (d.context id).switches) id counted
      (counted.addContext made).2 := counted.preserves_addContext fun unknown => unknown
  exact kept rfl

theorem spares_track (d : Debugger) (session : Session) (thread : Thread) :
    Spares d (d.track session thread).2 := by
  simp only [track]
  split
  · exact ⟨rfl, fun _ => rfl⟩
  · exact (d.spares_newContext thread).trans ⟨rfl, fun _ => rfl⟩

theorem spares_currentContext (d : Debugger) (system : Nat) : Spares d (d.currentContext system).2 := by
  have current : Spares d (d.currentThread system).2 := ⟨rfl, fun _ => rfl⟩
  simp only [currentContext]
  split
  · next found =>
      obtain ⟨session, -, tracked⟩ := except_bind_eq_ok found
      split at tracked
      · have tracks := (d.currentThread system).2.spares_track session (d.currentThread system).1
        rw [Except.ok.inj tracked] at tracks
        exact current.trans tracks
      · cases tracked
  · exact current

theorem spares_entriesFor (d : Debugger) (table : ThreadTable) (threads : List Thread) :
    Spares d (d.entriesFor table threads).2 := by
  induction threads generalizing d with
  | nil => exact ⟨rfl, fun _ => rfl⟩
  | cons thread threads ih =>
      simp only [entriesFor]
      split
      · exact ih d
      · exact (d.spares_newContext thread).trans (ih _)

theorem spares_otherContexts {ids : List ContextId} (h : d.otherContexts system = .ok (ids, d')) : Spares d d' := by
  obtain ⟨session, -, others⟩ := except_bind_eq_ok h
  cases others
  let met := (d.currentThread system).2
  have first : Spares d met := ⟨rfl, fun _ => rfl⟩
  have entries := met.spares_entriesFor session.table met.host.liveThreads
  exact (first.trans entries).trans ⟨rfl, fun _ => rfl⟩

theorem otherContexts_eq {session : Session} (active : d.session = some session) :
    d.otherContexts system =
      let (ids, met) := (d.currentThread system).2.rebuild session
      .ok (ids.filter fun id => (met.context id).thread != (d.currentThread system).1, met) := by
  simp only [otherContexts, activeSession, active]
  rfl

theorem otherContexts_spec (well : d.WellTracked) (bound : d.host.boundTo? system = some thread)
    (active : d.isStarted) : ∃ ids d', d.otherContexts system = .ok (ids, d') ∧
      (∀ id < d.contexts.size, (d.context id).thread = thread → id ∉ ids) ∧
      ∀ {other id}, other ≠ thread → d.host.isAlive other → d.contextOf? other = some id → id ∈ ids := by
  obtain ⟨session, active⟩ := Option.isSome_iff_exists.mp active
  have current : d.currentThread system = (thread, d) := by
    rw [currentThread, Host.currentThread_of_bound bound]
  obtain ⟨opens, -, kept⟩ := d.entriesFor_spec session.table d.host.liveThreads
  refine ⟨_, _, otherContexts_eq active, ?_, ?_⟩
  all_goals simp only [current]
  · intro id known home member
    obtain ⟨-, differs⟩ := List.mem_filter.mp member
    have same : ((d.rebuild session).2.context id).thread = thread :=
      (congrArg Context.thread (opens.old id known)).trans home
    exact (bne_iff_ne.mp differs) same
  · intro other id ne alive found
    obtain ⟨known, home⟩ := well.known found
    rw [well.contextOf?_eq active] at found
    obtain ⟨before, after, split, -⟩ := List.lookup_eq_some_iff.mp (kept (mem_liveThreads alive) found)
    have entry : (other, id) ∈ (d.entriesFor session.table d.host.liveThreads).1 :=
      split ▸ List.mem_append_right _ List.mem_cons_self
    refine List.mem_filter.mpr ⟨List.mem_map_of_mem entry, ?_⟩
    have same : ((d.rebuild session).2.context id).thread = other :=
      (congrArg Context.thread (opens.old id known)).trans home
    exact bne_iff_ne.mpr fun current => ne (same.symm.trans current)

/-! ## The ends of a post-mortem -/

theorem resumeAll_spec (well : d.WellTracked) (bound : d.host.boundTo? system = some thread) (active : d.isStarted) :
    ∃ d', d.resumeAll system = .ok d' ∧ d'.settings = d.settings ∧
      (∀ id < d.contexts.size, (d.context id).thread = thread → (d'.context id).switches = (d.context id).switches) ∧
      ∀ {other id}, other ≠ thread → d.host.isAlive other → d.contextOf? other = some id →
        (d'.context id).suspended = false := by
  obtain ⟨ids, met, others, own, rest⟩ := otherContexts_spec well bound active
  have spares := spares_otherContexts others
  have tends : Tends system d met := tends_otherContexts others
  let resumed := ids.foldl (fun d id => d.updateContext id Context.resume) met
  have read (id : ContextId) (known : id < d.contexts.size) : resumed.context id =
      if id ∈ ids then (met.context id).resume else met.context id :=
    met.context_resumeContexts ids (Nat.lt_of_lt_of_le known tends.tracks.size)
  have settings : resumed.settings = met.settings := by
    obtain ⟨contexts, -, eq⟩ := met.resumeContexts_eq ids
    rw [show resumed = _ from eq]
  refine ⟨if ids.any fun id => (met.context id).suspended && (met.context id).wasRunning then resumed.wakeUp
    else resumed, ?_, ?_, ?_, ?_⟩
  · simp only [resumeAll, others]
    rfl
  · split <;> exact settings.trans spares.settings
  · intro id known home
    have same := congrArg Context.switches ((read id known).trans (if_neg (own id known home)))
    split <;> exact same.trans (spares.switches id)
  · intro other id ne alive found
    have cleared := congrArg Context.suspended
      ((read id (well.known found).1).trans (if_pos (rest ne alive found)))
    split <;> exact cleared

theorem enterPostMortem_spec (well : d.WellTracked) (current : (d.currentContext system).1 = .ok id) :
    ∃ d', d.enterPostMortem system = (.ok (id, d.settings.tracing, (d.context id).tracing), d') ∧
      id < d'.contexts.size ∧ (d'.context id).thread = (d.currentThread system).1 := by
  have spares := d.spares_currentContext system
  have tracks := (d.tends_currentContext system).tracks
  rcases found : d.currentContext system with ⟨_ | own, met⟩
  all_goals rw [found] at current spares tracks
  · cases current
  · cases current
    obtain ⟨-, tracked⟩ := currentContext_eq_ok found
    obtain ⟨session, active, -⟩ := Option.bind_eq_some_iff.mp tracked
    obtain ⟨known, home⟩ := (tracks.tracked well).known tracked
    have suspends : ∃ d', met.suspendAll system = .ok d' := by
      simp only [suspendAll, otherContexts_eq active]
      exact ⟨_, rfl⟩
    obtain ⟨quiet, suspended⟩ := suspends
    have silenced : Tracks met ({ quiet with settings := { quiet.settings with tracing := false } }.updateContext id
        fun context => { context with tracing := false }) := by
      have tends : Tends system met quiet := tends_suspendAll suspended
      have off : Tracks quiet { quiet with settings := { quiet.settings with tracing := false } } :=
        .of_same rfl (.refl _) rfl rfl fun _ => rfl
      exact (tends.tracks.trans off).trans
        (tracks_updateContext _ id (fun context => { context with tracing := false }) fun _ => rfl)
    have settings : met.settings = d.settings := spares.settings
    have tracing : (met.context id).tracing = (d.context id).tracing := congrArg Prod.snd (spares.switches id)
    refine ⟨_, ?_, Nat.lt_of_lt_of_le known silenced.size,
      (congrArg (·.1) (silenced.core id known)).trans home⟩
    simp only [enterPostMortem, found, suspended, settings, tracing]

theorem leavePostMortem_spec (well : d.WellTracked) (bound : d.host.boundTo? system = some thread)
    (active : d.isStarted) (known : id < d.contexts.size) (home : (d.context id).thread = thread)
    (traced traces : Bool) : ∃ d', d.leavePostMortem system (id, traced, traces) = (.ok (), d') ∧
      d'.settings.tracing = traced ∧ (d'.context id).switches = ((d.context id).suspended, traces) ∧
      ∀ {other otherId}, other ≠ thread → d.host.isAlive other → d.contextOf? other = some otherId →
        (d'.context otherId).suspended = false := by
  let set : Debugger := { d with settings := { d.settings with tracing := traced } }
  let told : Debugger := set.updateContext id fun _ => { d.context id with tracing := traces }
  have context : told.context id = { d.context id with tracing := traces } :=
    set.context_updateContext_self (fun _ => { d.context id with tracing := traces }) known
  have commanded : ({ d with settings := { d.settings with tracing := traced } } : Debugger).command id
      (fun context => .ok { context with tracing := traces }) = .ok told := by
    have active : set.isStarted := active
    simp only [command, inspect]
    rw [if_pos active]
    rfl
  have tracks : Tracks d told := by
    have first : Tracks d set := .of_same rfl (.refl _) rfl rfl fun _ => rfl
    refine first.trans ?_
    have second : Tends system set told :=
      tends_command (core_ok (fun context => { context with tracing := traces }) fun _ => rfl) commanded
    exact second.tracks
  have size : told.contexts.size = d.contexts.size := set.size_updateContext id _
  obtain ⟨d', resumed, settings, own, rest⟩ := resumeAll_spec (tracks.tracked well) (d := told) bound active
  refine ⟨d', ?_, ?_, ?_, fun ne alive found => rest ne alive found⟩
  · simp only [leavePostMortem, commanded, resumed]
  · rw [settings]
    rfl
  · rw [own id (size ▸ known) (by rw [context]; exact home), context]
    rfl

/-- A thread that is alive has a context. -/
def IsContextOf (d : Debugger) (thread : Thread) (id : ContextId) : Prop :=
  d.host.isAlive thread ∧ d.contextOf? thread = some id

/-- The contexts of the other threads that are alive are not suspended. -/
def OthersRun (d : Debugger) (system : Nat) : Prop :=
  ∀ thread id, thread ≠ (d.currentThread system).1 → d.IsContextOf thread id → (d.context id).suspended = false

end Debugger

/-! ## The call of the front-end -/

namespace World

variable {w w' : World} {s s' : Nat} {move : Move} {act : Act} {shown : Task} {rest own : List Task}

/-- Whatever is done while the front-end is called for the task at a depth: on its system thread, only
post-mortems that began later are left. -/
def Meanwhile (s depth : Nat) (w : World) (s' : Nat) (act : Act) : Prop :=
  s' = s → act = .move .leavePostMortem → depth < (w.tasks s).length

instance (s depth : Nat) (w : World) (s' : Nat) (act : Act) : Decidable (Meanwhile s depth w s' act) :=
  inferInstanceAs (Decidable (_ → _ → _))

theorem Turns.inspecting (turns : w.Turns s move own) (inspecting : shown.stage.isInspecting)
    (stays : (shown :: rest) <:+ w.tasks s)
    (later : move = .leavePostMortem → rest.length + 1 < (w.tasks s).length) : (shown :: rest) <:+ own := by
  have deeper {task : Task} {inner : List Task} (tasks : w.tasks s = task :: inner)
      (other : task.stage.isInspecting → rest.length + 1 < (w.tasks s).length) : (shown :: rest) <:+ inner := by
    rw [tasks] at stays other
    rcases List.suffix_cons_iff.mp stays with same | deeper
    · cases same
      exact absurd (other inspecting) (Nat.lt_irrefl _)
    · exact deeper
  have outside {task : Task} (asks : task.stage.isOutside) : ¬ task.stage.isInspecting := by
    revert asks
    cases task.stage <;> simp [Stage.isOutside, Stage.isInspecting]
  have event {task : Task} (holds : task.stage.holds) : ¬ task.stage.isInspecting := by
    rw [Stage.not_isInspecting_of_holds holds]
    exact Bool.false_ne_true
  cases turns with
  | stays other => exact stays
  | begins other free => exact stays.trans (List.suffix_cons _ _)
  | admitted other tasks asks same resumed =>
      exact (deeper tasks fun is => absurd is (outside asks)).trans (List.suffix_cons _ _)
  | waits other tasks asks same => exact (deeper tasks fun is => absurd is (outside asks)).trans (List.suffix_cons _ _)
  | dropped other tasks asks fresh refused => exact deeper tasks fun is => absurd is (outside asks)
  | dispatched tasks stage =>
      have holds := event (by rw [stage]; rfl)
      exact (deeper tasks fun is => absurd is holds).trans (List.suffix_cons _ _)
  | goesOn other tasks called =>
      have holds := event (Stage.holds_of_callback? called)
      exact (deeper tasks fun is => absurd is holds).trans (List.suffix_cons _ _)
  | ends other tasks last =>
      rcases last with handled | ⟨left, -⟩
      · have holds := event (by rw [handled]; rfl)
        exact deeper tasks fun is => absurd is holds
      · exact deeper tasks fun _ => later left

theorem Acts.bound_of_busy (acts : w.Acts s' act w') (threads : w.debugger.host.OwnThreads) {thread : Thread}
    (busy : w.tasks s ≠ []) (bound : w.debugger.host.boundTo? s = some thread) :
    w'.debugger.host.boundTo? s = some thread := by
  refine acts.bound threads bound (or_iff_not_imp_left.mpr fun same => ?_)
  obtain rfl := not_not.mp same
  rintro rfl
  cases acts with
  | move step =>
      cases step with
      | exit idle => exact busy idle

structure Shown (s : Nat) (shown : Task) (rest : List Task) (thread : Thread) (id : ContextId) (size : Nat)
    (w : World) : Prop where
  stays : (shown :: rest) <:+ w.tasks s
  bound : w.debugger.host.boundTo? s = some thread
  size : size ≤ w.debugger.contexts.size
  home : id < w.debugger.contexts.size ∧ (w.debugger.context id).thread = thread

theorem Shown.acts {thread : Thread} {id : ContextId} {size : Nat} (h : w.Shown s shown rest thread id size)
    (threads : w.debugger.host.OwnThreads) (inspecting : shown.stage.isInspecting) (acts : w.Acts s' act w')
    (meanwhile : w.Meanwhile s (rest.length + 1) s' act) : w'.Shown s shown rest thread id size := by
  have lodges := acts.lodges
  have busy : w.tasks s ≠ [] := fun idle => by
    have empty := h.stays
    rw [idle] at empty
    cases List.eq_nil_of_suffix_nil empty
  refine ⟨?_, acts.bound_of_busy threads busy h.bound, Nat.le_trans h.size lodges.size,
    Nat.lt_of_lt_of_le h.home.1 lodges.size, (lodges.thread _ h.home.1).trans h.home.2⟩
  cases acts with
  | move step =>
      by_cases here : s = s'
      · subst here
        exact step.turns.inspecting inspecting h.stays fun left => meanwhile rfl (left ▸ rfl)
      · rw [step.tasks_ne here]
        exact h.stays
  | load | meet | skip | keep => exact h.stays

theorem Course.showing {thread : Thread} {id : ContextId} {size : Nat}
    (course : Course (Meanwhile s (rest.length + 1)) w w') (h : w.Shown s shown rest thread id size)
    (lodged : w.Lodged) (inspecting : shown.stage.isInspecting) : w'.Shown s shown rest thread id size := by
  induction course with
  | refl => exact h
  | step course next ok ih => exact ih.acts (course.lodged lodged).own inspecting next ok

theorem showing_inspect (h : w.Lodged) {id : ContextId} (current : (w.debugger.currentContext s).1 = .ok id) :
    ∃ shown, shown.stage.isInspecting ∧ w.debugger.enterPostMortem s =
        (.ok (id, w.debugger.settings.tracing, (w.debugger.context id).tracing), (w.inspect s).debugger) ∧
      (w.inspect s).Shown s shown (w.tasks s) (w.debugger.currentThread s).1 id w.debugger.contexts.size := by
  obtain ⟨d, entered, known, home⟩ := Debugger.enterPostMortem_spec h.tracked current
  have bound := w.debugger.boundTo?_enterPostMortem s
  have size := (w.debugger.tends_enterPostMortem s).tracks.size
  rw [entered] at bound size
  let before := (id, w.debugger.settings.tracing, (w.debugger.context id).tracing)
  let shown : Task := ⟨(w.debugger.currentThread s).1, id, .inspecting before, false, w.activation, none⟩
  have inspects : w.inspect s = (w.become d).set s (shown :: w.tasks s) := by simp only [inspect, entered]; rfl
  rw [inspects]
  exact ⟨shown, rfl, entered, tasks_set_self .. ▸ List.suffix_rfl, bound, size, known, home⟩

/-- A post-mortem leaves tracing as it was, and yields what the front-end yields, whatever is done in the
meantime. It leaves every context as it was if none of another thread was suspended: they are all resumed. -/
theorem restored_of_postMortem {σ ε : Type} {w₀ : World}
    (idle : ∀ s, w₀.tasks s = []) (own : w₀.debugger.host.OwnThreads) (tracked : w₀.debugger.WellTracked)
    (course : Course Anything w₀ w) (free : w.IsFree s) {kept : PostMortem} {id : ContextId}
    (framed : (w.debugger.context kept.context).stack ≠ [])
    (current : (w.debugger.currentContext s).1 = .ok id)
    (unsuspended : w.debugger.OthersRun s)
    (meanwhile : Course (Meanwhile s ((w.tasks s).length + 1)) (w.inspect s) w')
    {front : FrontEnd σ ε} {state state' : σ} {result : Except ε Unit}
    (returns : front s (.line kept.context kept.position) ((w.inspect s).debugger, state) =
      (result, w'.debugger, state'))
    (active : w'.debugger.isStarted)
    (same : (w'.debugger.context id).suspended = (w.debugger.context id).suspended) :
    ∃ d, handlePostMortem front s kept (w.debugger, state) = (result.mapError .frontEnd, d, state') ∧
      d.settings.tracing = w.debugger.settings.tracing ∧
      (d.context id).tracing = (w.debugger.context id).tracing ∧
      ∀ thread other, w.debugger.IsContextOf thread other → d.IsContextOf thread other →
        (d.context other).suspended = (w.debugger.context other).suspended := by
  have lodged : w.Lodged := course.lodged (.of_idle idle own tracked)
  obtain ⟨shown, inspecting, entered, before⟩ := showing_inspect lodged current
  have lodged' : (w.inspect s).Lodged := lodged.step (.enterPostMortem free)
  have after := meanwhile.showing before lodged' inspecting
  have tracked' := (meanwhile.lodged lodged').tracked
  let prior := (id, w.debugger.settings.tracing, (w.debugger.context id).tracing)
  obtain ⟨d, left, tracing, switches, rest⟩ := Debugger.leavePostMortem_spec tracked' after.bound active
    after.home.1 after.home.2 prior.2.1 prior.2.2
  have tends := w'.debugger.tends_leavePostMortem s prior
  rw [show w'.debugger.leavePostMortem s prior = _ from left] at tends
  refine ⟨d, ?_, tracing, congrArg Prod.snd switches, fun thread other was is => ?_⟩
  · rw [handlePostMortem_eq, if_neg (by simpa using framed), entered]
    dsimp only
    rw [returns]
    dsimp only
    rw [left]
  · have host : d.host = w'.debugger.host := tends.host.eq_of_bound after.bound
    obtain ⟨known, home⟩ := lodged.tracked.known was.2
    by_cases ne : thread = (w.debugger.currentThread s).1
    · -- The thread has one context, which is the current one.
      subst ne
      have met := Debugger.currentContext_eq_ok (Prod.ext current rfl)
      have found := (w.debugger.tends_currentContext s).tracks.found lodged.tracked was.1 was.2
      cases found.symm.trans met.2
      exact (congrArg Prod.fst switches).trans same
    · have alive : w'.debugger.host.isAlive thread := host ▸ is.1
      have found : w'.debugger.contextOf? thread = some other := by
        rcases tends.tracks.origin tracked' is.2 with before' | new
        · exact before'
        · exact absurd known (Nat.not_lt_of_le (Nat.le_trans after.size new))
      rw [rest ne alive found, unsuspended thread other ne was]

/-! ## A post-mortem beside another thread -/

def traced : World := startedWithTwo.afterwards
  ((1, .keep true) :: (Move.ofEvent otherLine ++ Move.ofEvent raised).map (fun move => (1, .move move)) ++
    [(1, .move (.request (.debugger .contexts))), (1, .move (.request (.debugger (.setTracing true))))])

def ofRaised : PostMortem := ⟨⟨"b.rb", 2⟩, none, 1⟩

def watchAndFail : FrontEnd Unit Error := fun system _ (d, state) =>
  (.error .notSuspended, (Request.debugger (.addBreakpoint "b.rb" (.line 3) none)).serve system d, state)

def failed : World :=
  let shown := traced.inspect 1
  shown.become ((Request.debugger (.addBreakpoint "b.rb" (.line 3) none)).serve 1 shown.debugger)

theorem course_traced : Course Anything startedWithTwo traced := course_afterwards _ _

theorem othersRun_traced : traced.debugger.OthersRun 1 := by
  intro thread id ne is
  have lodged := course_traced.lodged (.of_idle (fun _ => rfl) ownThreads_twoThreads wellTracked_startedWithTwo)
  have known := (lodged.tracked.known is.2).1
  have size : traced.debugger.contexts.size = 3 := by decide
  rw [size] at known
  have running : ∀ id < 3, (traced.debugger.context id).suspended = false := by decide
  exact running id known

theorem traced_after_failure :
    Course Anything startedWithTwo traced ∧ traced.debugger.OthersRun 1 ∧
      Course (Meanwhile 1 1) (traced.inspect 1) failed ∧
      let after := handlePostMortem watchAndFail 1 ofRaised (traced.debugger, ())
      after.1 = .error (.frontEnd .notSuspended) ∧ after.2.1.settings.tracing = true ∧
        (after.2.1.context 2).suspended = false := by
  have meanwhile : Course (Meanwhile 1 1) (traced.inspect 1) failed :=
    (Course.refl _).step (.move (.request (.debugger (.addBreakpoint "b.rb" (.line 3) none)) (by rintro _ ⟨⟩; rfl)))
      (by rintro - ⟨⟩)
  have current : (traced.debugger.currentContext 1).1 = .ok 0 := rfl
  have returns : watchAndFail 1 (.line ofRaised.context ofRaised.position) ((traced.inspect 1).debugger, ()) =
      (.error .notSuspended, failed.debugger, ()) := rfl
  have same : (failed.debugger.context 0).suspended = (traced.debugger.context 0).suspended := by decide
  obtain ⟨d, handled, tracing, -, rest⟩ := restored_of_postMortem (fun _ => rfl) ownThreads_twoThreads
    wellTracked_startedWithTwo course_traced (by rintro _ ⟨⟩) (by decide) current othersRun_traced meanwhile returns
    rfl same
  refine ⟨course_traced, othersRun_traced, meanwhile, ?_⟩
  have after : d = (handlePostMortem watchAndFail 1 ofRaised (traced.debugger, ())).2.1 := by rw [handled]
  rw [handled]
  have running : (d.context 2).suspended = (traced.debugger.context 2).suspended := by
    apply rest ⟨1, "a"⟩ 2 ⟨by decide, by decide⟩
    rw [after]
    exact ⟨by decide, by decide⟩
  exact ⟨rfl, tracing.trans (by decide), running.trans (by decide)⟩

def held : World := traced.afterwards [(1, .move (.request (.context 2 .suspend)))]

/-- A context that was suspended before a post-mortem is resumed after it. -/
theorem resumed_after_postMortem : Course Anything startedWithTwo held ∧
    held.debugger.IsContextOf ⟨1, "a"⟩ 2 ∧ (held.debugger.context 2).suspended ∧
    let after := handlePostMortem silent 1 ofRaised (held.debugger, ())
    after.1 = .ok () ∧ after.2.1.IsContextOf ⟨1, "a"⟩ 2 ∧ (after.2.1.context 2).suspended = false :=
  ⟨course_traced.trans (course_afterwards _ _), ⟨rfl, rfl⟩, rfl, rfl, ⟨rfl, rfl⟩, rfl⟩

end World

end EventDebugger
