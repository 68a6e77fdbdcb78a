import EventDebugger.Proofs.Attribution.Runs
import EventDebugger.Proofs.PostMortem.Keeping
import EventDebugger.Proofs.PostMortem.Raising

/-!
# The exceptions of a run

Between two actions of a single thread, the exception that is on its way is that of the last raise, and as long as
the debugger is active it keeps a picture of the state in which it was raised.

* `Replaying.Raising`: the state in which an exception is raised.
* `Replaying.Midway.moved`, `Replaying.Midway.ended`: an action, and the end of the thread.
* `Replaying.midway_run`: any number of actions.
-/

namespace EventDebugger

/-! ## What actions leave to the host -/

namespace Host

theorem isDebuggerThread_updateThread (host : Host) (thread other : Thread) {f : ThreadRecord → ThreadRecord}
    (hf : ∀ record, (f record).thread = record.thread ∧ (f record).ofDebugger = record.ofDebugger) :
    (host.updateThread thread f).isDebuggerThread other = host.isDebuggerThread other := by
  simp only [isDebuggerThread, host.record?_updateThread thread other f fun record => (hf record).1]
  cases host.record? other with
  | none => rfl
  | some record =>
      simp only [Option.map_some]
      split
      · exact (hf record).2
      · rfl

theorem isDebuggerThread_enterScope {host : Host} {system : Nat} {thread : Thread}
    (bound : host.boundTo? system = some thread) (scope : Scope) (other : Thread) :
    (host.enterScope system scope).isDebuggerThread other = host.isDebuggerThread other := by
  rw [enterScope_eq bound]
  exact host.isDebuggerThread_updateThread thread other fun _ => ⟨rfl, rfl⟩

end Host

namespace Action

theorem isDebuggerThread_perform (action : Action) (thread : Thread) (activations : Activations) (host : Host)
    (other : Thread) :
    (action.perform thread activations host).host.isDebuggerThread other = host.isDebuggerThread other := by
  cases action with
  | fallAsleep | wakeUp => exact host.isDebuggerThread_updateThread thread other fun _ => ⟨rfl, rfl⟩
  | _ => rfl

theorem raises_or_passes (action : Action) :
    (∃ className, action = .raise className) ∨ action = .rescue ∨ action.passes := by
  cases action with
  | raise className => exact .inl ⟨className, rfl⟩
  | rescue => exact .inr (.inl rfl)
  | _ => exact .inr (.inr rfl)

end Action

namespace Debugger

variable {d d' : Debugger} {thread : Thread}

theorem Watches.withHost (h : d.Watches thread) {host : Host}
    (user : host.isDebuggerThread thread = d.host.isDebuggerThread thread) :
    ({ d with host } : Debugger).Watches thread := ⟨h.keeps, user.trans h.user, h.context⟩

theorem Watches.step (h : d.Watches thread) (well : d.WellTracked) {id : ContextId} {n : Int}
    (stepped : d.command id (fun context => context.step n false) = .ok d') :
    d'.Watches thread ∧ d'.isStarted = d.isStarted := by
  have tends : Tends 0 d d' := tends_command (core_step n false) stepped
  obtain ⟨context, -, changed⟩ := except_bind_eq_ok stepped
  cases changed
  refine ⟨⟨h.keeps, h.user, fun {own} found => ?_⟩, rfl⟩
  have same := tends.tracks.core own (well.known found).1
  simp only [Context.core, Prod.mk.injEq] at same
  obtain ⟨-, skipped, ignored, -⟩ := same
  rw [skipped, ignored]
  exact h.context found

end Debugger

/-! ## A single thread before it moves -/

namespace Recording

variable {config : Config} {program : Program} {decl : ThreadDecl} {p : Replaying}

theorem keeps_settings (config : Config) : Keeps (·.1.settings = config.settings) (configure config) := by
  refine .bind (.forM (fun bp => ?_) _) fun _ => .perform fun {d r d'} h set => ?_
  · unfold addBreakpoint
    split
    · exact fun s h => h
    · refine .bind (.attempt fun {d r a d'} h added => ?_) fun _ s h => h
      obtain ⟨_, _, added⟩ := except_bind_eq_ok added
      cases added
      exact h
  · obtain ⟨_, _, set⟩ := except_bind_eq_ok set
    cases set
    exact h

theorem watches_prepareThread (index : Nat) {thread : Thread} {d : Debugger} {r : Recorder} (well : d.WellTracked)
    (watches : d.Watches thread) (started : d.isStarted) :
    let prepared := prepareThread config program index thread (d, r)
    prepared.2.1.Watches thread ∧ prepared.2.1.isStarted := by
  unfold prepareThread
  cases config.step with
  | none => exact ⟨watches, started⟩
  | some steps =>
      dsimp only
      split
      · rw [Run.perform_eq]
        split
        · exact ⟨watches, started⟩
        · next d' commanded =>
            obtain ⟨⟨id, tracked⟩, found, stepped⟩ := except_bind_eq_ok commanded
            obtain ⟨session, active, found⟩ := except_bind_eq_ok found
            have active := Debugger.activeSession_eq_ok active
            split at found
            · have watches' := watches.track active
              have well' := (Debugger.doneFor_track active thread).tracked well
              have placed := d.contextOf?_track session thread
              rw [Except.ok.inj found] at watches' well' placed
              obtain ⟨later, same⟩ := watches'.step well' stepped
              obtain ⟨session', active', -⟩ := Option.bind_eq_some_iff.mp placed
              have started' : tracked.isStarted := by rw [Debugger.isStarted, active']; rfl
              exact ⟨later, same.trans started'⟩
            · cases found
      · exact ⟨watches, started⟩

theorem watches_prepared (on : config.postMortem = true) (single : program.threads = [decl])
    (user : decl.isDebugger = false) (prepared : Replaying.prepared config program = .ok p) :
    ∃ thread, p.threads = [⟨thread, 1, decl.steps, .starting⟩] ∧ p.debugger.Watches thread ∧
      p.debugger.isStarted := by
  have settings := keeps_settings config ((Debugger.initial config.settings).start.2, .initial config.continueWith) rfl
  unfold Replaying.prepared at prepared
  split at prepared
  · cases prepared
  · next s configured =>
      obtain ⟨d, r⟩ := s
      obtain ⟨listing, catchpoint⟩ := listing_configure configured
      rw [configured] at settings
      have settings : d.settings = config.settings := settings
      have host : d.host = .initial := listing.host
      have unseen : d.contexts = #[] := listing.unseen
      obtain ⟨-, ofUser⟩ := spawned_user program user
      have declared := (calm_declare listing catchpoint : Calm config program _).equipped.tracked
      rw [← host] at ofUser
      rw [spawn_single config single] at prepared
      dsimp only at prepared declared
      generalize (d.host.declare program).spawn decl = registered at ofUser prepared
      have watches : ({ d with host := registered.2 } : Debugger).Watches registered.1 := by
        refine ⟨(congrArg (·.postMortem) settings).trans on, ofUser, fun {id} _ => ?_⟩
        have unknown : ({ d with host := registered.2 } : Debugger).contexts.size ≤ id := by
          change d.contexts.size ≤ id
          rw [unseen]
          exact Nat.zero_le id
        rw [Debugger.context_unknown unknown]
        exact ⟨rfl, rfl⟩
      have started : ({ d with host := registered.2 } : Debugger).isStarted := by
        obtain ⟨registry, active, -⟩ := listing.session
        exact Option.isSome_iff_exists.mpr ⟨_, active⟩
      have well : ({ d with host := registered.2 } : Debugger).WellTracked := ⟨declared.coherent, declared.home⟩
      obtain ⟨watches', started'⟩ :=
        (watches_prepareThread 0 well watches started : let prepared := prepareThread config program 0 registered.1 _
          prepared.2.1.Watches registered.1 ∧ prepared.2.1.isStarted)
      generalize prepareThread config program 0 registered.1 _ = result at prepared watches' started'
      obtain ⟨_ | _, d', r'⟩ := result
      · cases prepared
      · cases prepared
        exact ⟨registered.1, rfl, watches', started'⟩

end Recording

/-! ## The moves of a single thread -/

namespace Replaying

variable {p q : Replaying} {thread : Thread} {steps : List Step} {done rest : List Action} {action : Action}
  {activations : Activations} {site site' : CrashSite}

/-- The only thread is about to raise an exception. -/
inductive Raising (q : Replaying) : CrashSite → Prop where
  | intro {t : ReplayThread Error} {activations : Activations} {className : String} {actions : List Action}
      (only : q.threads = [t]) (phase : t.phase = .running activations (.raise className :: actions)) :
      Raising q ⟨activations.top.position, (q.debugger.stackOf t.thread).length,
        q.debugger.host.scopes.copyVisible activations.top.scope⟩

theorem Raising.unique (h : q.Raising site) (h' : q.Raising site') : site = site' := by
  cases h with
  | intro only phase =>
      cases h' with
      | intro only' phase' =>
          cases only.symm.trans only'
          cases phase.symm.trans phase'
          rfl

/-- Nothing has caught the last exception that some actions raised. The thread raised it at a site, in its move
after the one that started it and those before the raise. -/
def Crashed (p : Replaying) (done : List Action) (site : CrashSite) : Prop :=
  ∃ before className, LastRaise done before className ∧
    (p.run (List.replicate (before.length + 1) 0)).Raising site

theorem Crashed.concat (h : p.Crashed done site) (passes : action.passes) : p.Crashed (done ++ [action]) site := by
  obtain ⟨before, className, last, raising⟩ := h
  exact ⟨before, className, last.concat passes, raising⟩

theorem Crashed.unique (h : p.Crashed done site) (h' : p.Crashed done site') : site = site' := by
  obtain ⟨before, className, last, raising⟩ := h
  obtain ⟨before', className', last', raising'⟩ := h'
  obtain ⟨rfl, -⟩ := last.unique last'
  exact raising.unique raising'

/-- The only thread has performed some actions, and others remain. While the debugger is active, the exception on
its way keeps a picture. -/
structure Midway (p : Replaying) (thread : Thread) (steps : List Step) (done rest : List Action)
    (activations : Activations) (q : Replaying) : Prop where
  only : q.threads = [⟨thread, 1, steps, .running activations rest⟩]
  heard : activations.Heard
  watches : q.debugger.Watches thread
  started : q.debugger.isStarted ↔ Action.raise "SystemExit" ∉ done
  safe : activations.raised = none → carried false done = false
  crashed : ∀ exception ∈ activations.raised, ∃ site, p.Crashed done site ∧
    (q.debugger.isStarted → ∃ kept, q.debugger.Pictures exception site kept)

namespace Midway

theorem start (only : p.threads = [⟨thread, 1, steps, .starting⟩]) (watches : p.debugger.Watches thread)
    (started : p.debugger.isStarted) :
    ∃ activations, Midway p thread steps [] (Step.toActionsAll steps).actions activations (p.move 0) := by
  rw [move_single only, step_starting]
  refine ⟨_, rfl, ⟨rfl, nofun⟩, watches.withHost ?_, ?_, fun _ => rfl, fun _ is => by cases is⟩
  · exact Host.isDebuggerThread_updateThread _ thread thread fun _ => ⟨rfl, rfl⟩
  · exact iff_of_true started List.not_mem_nil

theorem passed (h : Midway p thread steps done (action :: rest) activations q) (well : q.debugger.WellTracked)
    (passes : action.passes) (audible : action.isHeard) {q' : Replaying}
    (only : q'.threads =
      [⟨thread, 1, steps, .running (action.perform thread activations q.debugger.host).activations rest⟩])
    (guards : q.debugger.Guards q'.debugger) (watches : q'.debugger.Watches thread)
    (started : q'.debugger.isStarted = q.debugger.isStarted) :
    Midway p thread steps (done ++ [action]) rest (action.perform thread activations q.debugger.host).activations
      q' := by
  have raised := action.raised_perform thread activations q.debugger.host passes
  refine ⟨only, action.heard_perform thread activations q.debugger.host audible h.heard, watches, ?_,
    fun none => ?_, fun exception is => ?_⟩
  · have other : Action.raise "SystemExit" ≠ action := by
      rintro rfl
      cases passes
    rw [started, h.started, List.mem_append, List.mem_singleton, or_iff_left other]
  · rw [carried_append, h.safe (raised.symm.trans none)]
    exact Action.carries_of_passes passes false
  · obtain ⟨site, crashed, pictures⟩ := h.crashed exception (raised ▸ is)
    refine ⟨site, crashed.concat passes, fun active => ?_⟩
    obtain ⟨kept, pictures⟩ := pictures (started ▸ active)
    exact ⟨kept, pictures.later guards well⟩

theorem rescued (h : Midway p thread steps done (.rescue :: rest) activations q) :
    Midway p thread steps (done ++ [.rescue]) rest { activations with raised := none } (q.move 0) := by
  rw [move_single h.only, step_silent _ _ _ _ _ _ _ rfl]
  refine ⟨rfl, ⟨h.heard.root, h.heard.inner⟩, h.watches.withHost rfl, ?_, fun _ => ?_, fun _ is => by cases is⟩
  · exact h.started.trans (by simp)
  · rw [carried_append]
    rfl

variable {config : Config} {program : Program}

theorem notified (h : Midway p thread steps done (action :: rest) activations q)
    (calm : Calm config program (q.debugger, q.recorder)) (alone : q.debugger.Alone 1 thread)
    (here : p.run (List.replicate (done.length + 1) 0) = q) (audible : action.isHeard) {event : Event}
    (notified : (action.perform thread activations q.debugger.host).event = some event) :
    (∃ activations', Midway p thread steps (done ++ [action]) rest activations' (q.move 0)) ∨
      ∃ t, (q.move 0).threads = [t] ∧ t.error?.isSome := by
  have performs := action.performs thread 1 activations q.debugger.host
  obtain ⟨scope, placed⟩ := performs.placed notified
  have bound := (performs.same.boundTo?_eq 1).trans alone.bound
  obtain ⟨scopes, parents⟩ := Host.enterScope_keeps bound scope
  have notifies := ReplayThread.notifies_entered alone notified placed
  have entered := calm.withHost (parents.trans performs.acted.parents)
  have watches := h.watches.withHost ((Host.isDebuggerThread_enterScope bound scope thread).trans
    (action.isDebuggerThread_perform thread activations q.debugger.host thread))
  obtain ⟨result, after, handles, -, -⟩ := entered.handleEvent notifies
  rw [move_single h.only, step_event _ _ _ _ _ _ _ notified placed handles]
  cases result with
  | error error => exact .inr ⟨_, rfl, rfl⟩
  | ok =>
      refine .inl ⟨(action.perform thread activations q.debugger.host).activations, ?_⟩
      rcases action.raises_or_passes with ⟨className, rfl⟩ | rfl | passes
      · cases notified
        obtain ⟨watches', started, pictures⟩ := entered.pictures_of_raise notifies.bound watches h.heard.top rfl rfl
          rfl placed
        cases placed
        rw [handles, scopes] at pictures
        rw [handles] at watches' started
        refine ⟨rfl, ⟨h.heard.root, h.heard.inner⟩, watches', ?_, nofun, fun exception is => ?_⟩
        · refine started.trans (and_congr_left' h.started |>.trans ?_)
          simp [eq_comm]
        · cases is
          exact ⟨_, ⟨done, className, lastRaise_concat done className, here ▸ .intro h.only rfl⟩, pictures⟩
      · cases notified
      · have quiet := entered.guards_of_quiet notifies.bound watches
          (action.kind_ne_raise thread activations q.debugger.host passes notified)
        rw [handles] at quiet
        obtain ⟨guards, watches', started⟩ := quiet
        have well := calm.equipped.tracked
        have moved := (q.debugger.guards_withHost _).trans guards well
        exact h.passed well passes audible rfl moved watches' started

theorem moved (h : Midway p thread steps done (action :: rest) activations q)
    (calm : Calm config program (q.debugger, q.recorder)) (alone : q.debugger.Alone 1 thread)
    (here : p.run (List.replicate (done.length + 1) 0) = q) (audible : action.isHeard) :
    (∃ activations', Midway p thread steps (done ++ [action]) rest activations' (q.move 0)) ∨
      ∃ t, (q.move 0).threads = [t] ∧ t.error?.isSome := by
  cases silent : (action.perform thread activations q.debugger.host).event with
  | some event => exact h.notified calm alone here audible silent
  | none =>
      left
      rcases action.raises_or_passes with ⟨className, rfl⟩ | rfl | passes
      · cases silent
      · exact ⟨_, h.rescued⟩
      · have watches := h.watches.withHost (action.isDebuggerThread_perform thread activations q.debugger.host thread)
        refine ⟨_, h.passed calm.equipped.tracked passes audible ?_ ?_ ?_ ?_⟩
        all_goals rw [move_single h.only, step_silent _ _ _ _ _ _ _ silent]
        · exact q.debugger.guards_withHost _
        · exact watches
        · rfl

theorem ended (h : Midway p thread steps done [] activations q)
    (calm : Calm config program (q.debugger, q.recorder)) (alone : q.debugger.Alone 1 thread) :
    (∃ t, (q.move 0).threads = [t] ∧ t.HasExited) ∧
      ((q.move 0).recorder.records = q.recorder.records ∧
          (∀ site, p.Crashed done site → Action.raise "SystemExit" ∉ done → site.depth = 0) ∨
        ∃ halt site, p.Crashed done site ∧ Action.raise "SystemExit" ∉ done ∧ 0 < site.depth ∧
          halt.ShowsSite site ∧ (q.move 0).recorder.records = q.recorder.records.push (.halt halt)) := by
  rw [move_single h.only]
  obtain ⟨root, inner, raised⟩ := activations
  cases raised with
  | none =>
      refine ⟨⟨_, rfl, _, rfl⟩, .inl ⟨rfl, fun site crashed _ => ?_⟩⟩
      obtain ⟨_, _, last, _⟩ := crashed
      cases (h.safe rfl).symm.trans (last.carried false)
  | some exception =>
      refine ⟨⟨_, rfl, _, rfl⟩, ?_⟩
      obtain ⟨site, crashed, pictures⟩ := h.crashed exception rfl
      change (ReplayThread.uncaught Recorder.frontEnd 1 exception (q.debugger, q.recorder)).2.2.records = _ ∧ _ ∨
        ∃ halt site, _ ∧ _ ∧ _ ∧ _ ∧
          (ReplayThread.uncaught Recorder.frontEnd 1 exception (q.debugger, q.recorder)).2.2.records = _
      cases started : q.debugger.isStarted with
      | false =>
          rw [ReplayThread.uncaught_eq, started]
          refine .inl ⟨rfl, fun _ _ stays => ?_⟩
          cases started.symm.trans (h.started.mpr stays)
      | true =>
          obtain ⟨kept, pictures⟩ := pictures started
          obtain ⟨bare, framed⟩ := ReplayThread.records_of_uncaught (r := q.recorder) alone calm.equipped.tracked
            calm.equipped.plain started pictures
          rcases Nat.eq_zero_or_pos site.depth with none | some
          · exact .inl ⟨bare none, fun site' crashed' _ => crashed.unique crashed' ▸ none⟩
          · obtain ⟨halt, shows, pushed⟩ := framed some
            exact .inr ⟨halt, site, crashed, h.started.mp started, some, shows, pushed⟩

end Midway

variable {config : Config} {program : Program}

theorem hasExited_of_error {t : ReplayThread Error} (failed : t.error?.isSome) : t.HasExited := by
  unfold ReplayThread.error? at failed
  split at failed
  · next error exited => exact ⟨_, exited⟩
  · cases failed

theorem Midway.ready (h : Midway p thread steps done rest activations q)
    (accounted : Recording.Accounted config program q) :
    Calm config program (q.debugger, q.recorder) ∧ q.debugger.Alone 1 thread := by
  have here : (⟨thread, 1, steps, .running activations rest⟩ : ReplayThread Error) ∈ q.threads := by
    rw [h.only]
    exact List.mem_singleton_self _
  obtain ⟨calm, alone, -⟩ := (accounted.ready _ here).resolve_left (by rintro ⟨_, ⟨⟩⟩)
  exact ⟨calm, alone⟩

theorem midway_run (single : program.threads.length ≤ 1) (prepared : Replaying.prepared config program = .ok p)
    (only : p.threads = [⟨thread, 1, steps, .starting⟩]) (watches : p.debugger.Watches thread)
    (started : p.debugger.isStarted) (audible : ∀ action ∈ (Step.toActionsAll steps).actions, action.isHeard)
    (split : (Step.toActionsAll steps).actions = done ++ rest) :
    (∃ activations, Midway p thread steps done rest activations (p.run (List.replicate (done.length + 1) 0))) ∨
      ∃ t, (p.run (List.replicate (done.length + 1) 0)).threads = [t] ∧ t.error?.isSome := by
  induction done using List.reverseRecOn generalizing rest with
  | nil =>
      obtain rfl : _ = rest := split
      exact .inl (Midway.start only watches started)
  | append_singleton done action ih =>
      have split' : (Step.toActionsAll steps).actions = done ++ action :: rest := by
        rw [split, List.append_assoc, List.singleton_append]
      rw [List.length_append, List.length_singleton, run_replicate_succ]
      rcases ih split' with ⟨activations, h⟩ | ⟨t, ended, failed⟩
      · obtain ⟨calm, alone⟩ := h.ready (Recording.accounted_run single prepared _)
        exact h.moved calm alone rfl (audible action (split' ▸ List.mem_append_right done List.mem_cons_self))
      · rw [move_of_exited (exited_of_only ended (hasExited_of_error failed))]
        exact .inr ⟨t, ended, failed⟩

theorem run_eq_advance {t : ReplayThread Error} (only : p.threads = [t])
    (steady : ∀ m, ∀ t ∈ (p.run (List.replicate m 0)).threads, ¬ t.Waits) (n : Nat) :
    let moved := t.advance Recorder.frontEnd n (p.debugger, p.recorder)
    p.run (List.replicate n 0) = ⟨[moved.1], moved.2.1, moved.2.2⟩ := by
  induction n generalizing p t with
  | zero =>
      obtain ⟨threads, d, r⟩ := p
      obtain rfl : threads = [t] := only
      rfl
  | succ n ih =>
      cases able : t.canMove p.debugger with
      | true =>
          rw [advance_succ Recorder.frontEnd able, Nat.add_comm, run_replicate_add]
          have moved := move_single only
          change (p.move 0).run _ = _
          rw [ih (p := p.move 0) (t := (t.step Recorder.frontEnd (p.debugger, p.recorder)).1) (by rw [moved])
            fun m t member => steady (1 + m) t (by rwa [run_replicate_add]), moved]
      | false =>
          have exited : t.HasExited := by
            have awake := steady 0 t (only ▸ List.mem_singleton_self t)
            obtain ⟨thread, system, steps, phase⟩ := t
            cases phase with
            | exited result => exact ⟨result, rfl⟩
            | waiting => exact absurd trivial awake
            | starting | running => cases able
          rw [advance_of_not_canMove Recorder.frontEnd able, run_of_exited (exited_of_only only exited)]
          obtain ⟨threads, d, r⟩ := p
          obtain rfl : threads = [t] := only
          rfl

end Replaying

end EventDebugger
