import EventDebugger.Proofs.Solo.Lines
import EventDebugger.Proofs.Solo.Running
import EventDebugger.Proofs.Solo.Walking
import Mathlib.Data.List.Destutter

/-!
# Stepping through a program

Under a configuration that steps on after every halt, a single thread halts on the lines that it executes,
one halt for each run of consecutive lines at the same position.

* `Recording.records_stepping`: what is recorded of such a program.
-/

namespace EventDebugger

/-! ## Actions -/

structure Activations.Heard (activations : Activations) : Prop where
  root : Host.isAllocator activations.root.method = false
  inner : ∀ activation ∈ activations.inner, Host.isAllocator activation.method = false

namespace Activations.Heard

variable {activations : Activations} (h : activations.Heard)
include h

theorem top : Host.isAllocator activations.top.method = false := by
  obtain ⟨root, inner, raised⟩ := activations
  cases inner with
  | nil => exact h.root
  | cons activation rest => exact h.inner activation List.mem_cons_self

theorem modifyTop {f : Activation → Activation}
    (keeps : ∀ activation, (f activation).method = activation.method) : (activations.modifyTop f).Heard := by
  obtain ⟨root, inner, raised⟩ := activations
  cases inner with
  | nil => exact ⟨(keeps root).symm ▸ h.root, nofun⟩
  | cons activation rest =>
      refine ⟨h.root, List.forall_mem_cons.mpr ⟨?_, fun other member => ?_⟩⟩
      · rw [keeps]
        exact h.inner activation List.mem_cons_self
      · exact h.inner other (List.mem_cons_of_mem _ member)

theorem push {activation : Activation} (heard : Host.isAllocator activation.method = false) :
    (activations.push activation).Heard :=
  ⟨h.root, List.forall_mem_cons.mpr ⟨heard, h.inner⟩⟩

theorem pop : activations.pop.Heard :=
  ⟨h.root, fun activation member => h.inner activation (List.mem_of_mem_tail member)⟩

end Activations.Heard

structure Performed.Heard (action : Action) (performed : Performed) : Prop where
  activations : performed.activations.Heard
  line : action.line? = performed.event.bind Event.line?
  method : ∀ {event}, performed.event = some event → event.line? ≠ none →
    Host.isAllocator event.method = false

theorem Action.heard {action : Action} (ordinary : action.isOrdinary) {activations : Activations}
    (h : activations.Heard) (thread : Thread) (host : Host) :
    (action.perform thread activations host).Heard action := by
  cases action with
  | line file number conditional =>
      have moved := h.modifyTop (f := fun top => { top with position := ⟨file, number⟩ }) fun _ => rfl
      refine ⟨moved, ?_, ?_⟩
      · cases conditional with
        | true => rfl
        | false =>
            obtain ⟨root, inner, raised⟩ := activations
            cases inner <;> rfl
      · intro event is _
        cases is
        exact moved.top
  | call method type file number =>
      have named : Host.isAllocator (some method) = false := by
        simpa [Host.isAllocator, isOrdinary] using ordinary
      exact ⟨h.push named, rfl, fun is line => by cases is; exact absurd rfl line⟩
  | callReturn | closeClass => exact ⟨h.pop, rfl, fun is line => by cases is; exact absurd rfl line⟩
  | nativeCall | nativeReturn | bareReturn | raise =>
      exact ⟨⟨h.root, h.inner⟩, rfl, fun is line => by cases is; exact absurd rfl line⟩
  | openClass => exact ⟨h.push rfl, rfl, fun is line => by cases is; exact absurd rfl line⟩
  | enterBlock => exact ⟨h.push h.top, rfl, fun is => by cases is⟩
  | leaveBlock => exact ⟨h.pop, rfl, fun is => by cases is⟩
  | assign | fallAsleep | wakeUp | rescue => exact ⟨⟨h.root, h.inner⟩, rfl, fun is => by cases is⟩

/-! ## Moves -/

theorem Walking.withHost {thread : Thread} {last : Option Position} {d : Debugger} {r : Recorder}
    (h : Walking thread last (d, r)) {host : Host} (parents : host.parents = d.host.parents) :
    Walking thread last ({ d with host }, r) := by
  refine ⟨h.quiet.withHost host, h.only.of_rules ?_, h.context, h.mode, h.settled⟩
  unfold Debugger.rules
  rw [parents]

theorem Walking.step {thread : Thread} {system : Nat} (steps : List Step) {activations : Activations}
    {action : Action} (actions : List Action) {last : Option Position} {d : Debugger} {r : Recorder}
    (h : Walking thread last (d, r)) (heard : activations.Heard) (ordinary : action.isOrdinary)
    (bound : d.host.boundTo? system = some thread) (alive : d.host.isAlive thread) :
    ∃ last' new activations' after,
      (⟨thread, system, steps, .running activations (action :: actions)⟩ : ReplayThread Error).step
          Recorder.frontEnd (d, r) = (⟨thread, system, steps, .running activations' actions⟩, after) ∧
        Lands last action.line? last' new ∧ Walking thread last' after ∧ activations'.Heard ∧
        after.2.records.toList = r.records.toList ++ new.map Record.halt := by
  obtain ⟨heard', line, method⟩ := Action.heard ordinary heard thread d.host
  have performs := action.performs thread system activations d.host
  have other : action ≠ .raise "SystemExit" := by
    rintro rfl
    cases ordinary
  cases notified : (action.perform thread activations d.host).event with
  | none =>
      rw [notified] at line
      rw [step_silent _ _ _ _ _ _ _ notified]
      exact ⟨last, [], _, _, rfl, .stays (.inl line), h.withHost performs.acted.parents, heard',
        (List.append_nil _).symm⟩
  | some event =>
      rw [notified] at line
      obtain ⟨scope, placed⟩ := performs.placed notified
      obtain ⟨worked, bound', alive'⟩ := action.entered activations h.quiet h.settled bound alive scope
      have walking := h.withHost worked.host.parents
      obtain ⟨last', new, after, handled, lands, walks, records⟩ :=
        walking.handled bound' alive' (performs.stays other notified) (method notified)
      rw [step_event _ _ _ _ _ _ _ notified placed handled]
      exact ⟨last', new, _, after, rfl, line ▸ lands, walks, heard', records⟩

/-- Halts on lines, one for each run of lines at the same position. The lines at the position of the last
halt before them count as the end of a run. -/
structure Visits (last : Option Position) (lines : List Position) (halts : List HaltRecord) : Prop where
  positions : last.toList ++ halts.map (·.position) = (last.toList ++ lines).destutter (· ≠ ·)
  reasons : ∀ halt ∈ halts, halt.reason = .step

theorem Visits.nil (last : Option Position) : Visits last [] [] := by
  refine ⟨?_, nofun⟩
  cases last <;> rfl

theorem Visits.land {last line last' : Option Position} {new halts : List HaltRecord}
    {lines : List Position} (lands : Lands last line last' new) (h : Visits last' lines halts) :
    Visits last (line.toList ++ lines) (new ++ halts) := by
  cases lands with
  | stays same =>
      refine ⟨?_, h.reasons⟩
      rcases same with rfl | rfl
      · exact h.positions
      · cases line with
        | none => exact h.positions
        | some position =>
            refine h.positions.trans ?_
            exact (List.destutter'_cons_neg _ (not_not_intro rfl)).symm
  | halts record elsewhere reason =>
      refine ⟨?_, List.forall_mem_cons.mpr ⟨reason, h.reasons⟩⟩
      have later := h.positions
      cases last with
      | none => exact later
      | some position =>
          have ne : position ≠ record.position := fun same => elsewhere (congrArg some same)
          refine (congrArg (position :: ·) later).trans ?_
          exact (List.destutter'_cons_pos _ ne).symm

theorem Walking.advance {thread : Thread} {system : Nat} {steps : List Step} {activations : Activations}
    {actions : List Action} {last : Option Position} {d : Debugger} {r : Recorder}
    (h : Walking thread last (d, r))
    (sound : (⟨thread, system, steps, .running activations actions⟩ : ReplayThread Error).Sound d)
    (own : d.host.OwnThreads) (heard : activations.Heard)
    (ordinary : ∀ action ∈ actions, action.isOrdinary) {n : Nat} (enough : actions.length < n) :
    ∃ halts after,
      (⟨thread, system, steps, .running activations actions⟩ : ReplayThread Error).advance
          Recorder.frontEnd n (d, r) = (⟨thread, system, steps, .exited (.ok ())⟩, after) ∧
        Visits last (actions.filterMap Action.line?) halts ∧
        after.2.records.toList = r.records.toList ++ halts.map Record.halt := by
  induction actions generalizing n activations last d r with
  | nil =>
      obtain ⟨n, rfl⟩ := Nat.exists_eq_succ_of_ne_zero (Nat.ne_zero_of_lt enough)
      rw [advance_succ _ rfl, step_finish _ _ _ _ _ _ h.quiet.unkept, advance_exited _ rfl]
      exact ⟨[], _, rfl, .nil last, (List.append_nil _).symm⟩
  | cons action actions ih =>
      obtain ⟨n, rfl⟩ := Nat.exists_eq_succ_of_ne_zero (Nat.ne_zero_of_lt enough)
      -- The thread stays bound, alive and sound, whatever the action notifies.
      have moved := sound.step h.quiet own h.settled
      cases sound with
      | running bound alive _ _ =>
          obtain ⟨ordinary, later⟩ := List.forall_mem_cons.mp ordinary
          obtain ⟨last', new, activations', after, steps_eq, lands, walks, heard', records⟩ :=
            h.step steps actions heard ordinary bound alive
          rw [steps_eq] at moved
          obtain ⟨halts, after', advanced, visits, records'⟩ :=
            ih walks moved.sound (moved.works.host.own own) heard' later (Nat.lt_of_succ_lt_succ enough)
          rw [advance_succ _ rfl, steps_eq]
          refine ⟨new ++ halts, after', advanced, ?_, ?_⟩
          · have lines : (action :: actions).filterMap Action.line? =
                action.line?.toList ++ actions.filterMap Action.line? := by
              rw [List.filterMap_cons]
              cases action.line? <;> rfl
            rw [lines]
            exact .land lands visits
          · rw [records', records, List.map_append, List.append_assoc]

/-! ## The whole program -/

/-- A configuration that steps from the first line on, and has nothing else to halt or to record. -/
structure Config.Steps (config : Config) : Prop where
  first : config.step = some 1
  onward : config.continueWith = .step
  unlisted : config.breakpoints = []
  uncaught : config.catchpoint = none
  untraced : config.tracing = false
  unkept : config.postMortem = false

namespace Recording

variable {config : Config} {program : Program} {decl : ThreadDecl}

theorem spawn_single (config : Config) (single : program.threads = [decl]) (s : Debugger × Recorder) :
    spawn config program s =
      let spawned := (s.1.host.declare program).spawn decl
      let prepared := prepareThread config program 0 spawned.1 ({ s.1 with host := spawned.2 }, s.2)
      (prepared.1.map fun () => [⟨spawned.1, 1, decl.steps, .starting⟩], prepared.2) := by
  have alone (t : ReplayThread Error) (s : Debugger × Recorder) :
      prepareThreads (prepareThread config program) 0 [t] s = prepareThread config program 0 t.thread s := by
    unfold prepareThreads
    rw [run_bind_eq]
    rcases prepareThread config program 0 t.thread s with ⟨_ | _, _⟩ <;> rfl
  unfold spawn
  rw [single, spawnThreads_single]
  dsimp only [Run.onDebugger]
  rw [alone]
  rcases prepareThread config program 0 _ _ with ⟨_ | _, _⟩ <;> rfl

theorem arms {d : Debugger} (unused : d.session = some Debugger.newSession) {thread : Thread}
    (alive : d.host.isAlive thread) (user : d.host.isDebuggerThread thread = false) :
    ∃ d', (do
        let (id, d) ← d.threadContext thread
        d.command id fun context => context.step 1 false) = .ok d' ∧ d'.rules = d.rules ∧
      ∃ id, d'.contextOf? thread = some id ∧ (d'.context id).Walks none := by
  have active : d.activeSession = .ok Debugger.newSession := by
    unfold Debugger.activeSession
    rw [unused]
  have tracked : d.threadContext thread = .ok (d.track Debugger.newSession thread) := by
    unfold Debugger.threadContext
    rw [active]
    exact if_pos alive
  have found := d.contextOf?_track Debugger.newSession thread
  have done := Debugger.doneFor_track unused thread
  have made : (d.track Debugger.newSession thread).2.context (d.track Debugger.newSession thread).1 =
      .initial thread (d.contextCount + 1) false := by
    rw [← user]
    exact d.context_newContext thread
  have known : (d.track Debugger.newSession thread).1 <
      (d.track Debugger.newSession thread).2.contexts.size := by
    change d.contexts.size < (d.contexts.push _).size
    rw [Array.size_push]
    exact Nat.lt_succ_self _
  rw [tracked]
  generalize d.track Debugger.newSession thread = tracked at found done made known
  obtain ⟨id, d₁⟩ := tracked
  have started : d₁.isStarted := by
    obtain ⟨session, active, _⟩ := Option.bind_eq_some_iff.mp found
    unfold Debugger.isStarted
    rw [active]
    rfl
  have stepped : (fun context : Context => context.step 1 false) (d₁.context id) =
      .ok { d₁.context id with stopNext := .armed 1, forced := false } := rfl
  refine ⟨d₁.updateContext id fun _ => { d₁.context id with stopNext := .armed 1, forced := false }, ?_,
    done.rules, id, found, ?_⟩
  · change d₁.command id (fun context => context.step 1 false) = _
    unfold Debugger.command Debugger.inspect
    rw [if_pos started, stepped]
    rfl
  · rw [d₁.context_updateContext_self _ known, made]
    rfl

theorem spawned_user (program : Program) (user : decl.isDebugger = false) :
    let spawned := (Host.initial.declare program).spawn decl
    spawned.2.isAlive spawned.1 ∧ spawned.2.isDebuggerThread spawned.1 = false := by
  have unseen : (Host.initial.declare program).threads = [] := by
    rw [Host.declare_eq]
    rfl
  refine ⟨Host.isAlive_spawn (Host.fresh_declare program).1.registered decl, ?_⟩
  simp only [Host.spawn, user, Bool.false_eq_true, if_false]
  simp [Host.isDebuggerThread, Host.record?, Host.register, unseen]

theorem prepared_walking (steps : config.Steps) (single : program.threads = [decl])
    (user : decl.isDebugger = false) :
    ∃ p thread, Replaying.prepared config program = .ok p ∧
      p.threads = [⟨thread, 1, decl.steps, .starting⟩] ∧ p.debugger.OnlySteps ∧
      ∃ id, p.debugger.contextOf? thread = some id ∧ (p.debugger.context id).Walks none := by
  have configured : (configure config).run
      ((Debugger.initial config.settings).start.2, .initial config.continueWith) =
        (.ok (), (Debugger.initial config.settings).start.2, .initial config.continueWith) := by
    unfold configure
    rw [steps.unlisted, steps.uncaught]
    rfl
  have first : firstStepped? program = some 0 := by
    unfold firstStepped?
    rw [single, List.findIdx?_cons, user]
    rfl
  obtain ⟨alive, ofUser⟩ := spawned_user program user
  have spawned := spawn_single config single
    ((Debugger.initial config.settings).start.2, .initial config.continueWith)
  change spawn config program _ =
    let spawned := (Host.initial.declare program).spawn decl
    let prepared := prepareThread config program 0 spawned.1
      ({ (Debugger.initial config.settings).start.2 with host := spawned.2 }, .initial config.continueWith)
    (prepared.1.map fun () => [⟨spawned.1, 1, decl.steps, .starting⟩], prepared.2) at spawned
  generalize (Host.initial.declare program).spawn decl = registered at alive ofUser spawned
  obtain ⟨thread, host⟩ := registered
  obtain ⟨d', armed, rules, walks⟩ :=
    arms (d := { (Debugger.initial config.settings).start.2 with host }) rfl alive ofUser
  have prepares : prepareThread config program 0 thread
      ({ (Debugger.initial config.settings).start.2 with host }, .initial config.continueWith) =
        (.ok (), d', .initial config.continueWith) := by
    unfold prepareThread
    rw [steps.first]
    dsimp only
    rw [if_pos first, Run.perform_eq]
    revert armed
    generalize (Debugger.threadContext _ thread >>= _) = result
    rintro rfl
    rfl
  dsimp only at spawned
  rw [prepares] at spawned
  refine ⟨⟨[⟨thread, 1, decl.steps, .starting⟩], d', .initial config.continueWith⟩, thread,
    ?_, rfl, ?_, walks⟩
  · unfold Replaying.prepared
    rw [configured]
    dsimp only
    rw [spawned]
    rfl
  · refine Debugger.OnlySteps.of_rules ?_ rules
    exact ⟨steps.untraced, steps.unkept, rfl, rfl⟩

/-- A single thread of the user under a configuration that steps halts on the lines that it executes, where
consecutive lines at the same position make one halt. Every halt has the reason of a step. -/
theorem records_stepping (steps : config.Steps) (single : program.threads = [decl])
    (user : decl.isDebugger = false) (ordinary : Step.allOrdinary decl.steps) :
    ∃ halts : List HaltRecord, records config program = .ok (halts.map .halt) ∧
      dump config program = .ok (Record.dump (halts.map .halt)) ∧
      halts.map (·.position) = (Step.executedAll decl.steps).lines.destutter (· ≠ ·) ∧
      ∀ halt ∈ halts, halt.reason = .step := by
  have tame := Step.tame_toActionsAll decl.steps ordinary
  have stays : Replaying.Stays program := by
    intro other member raises
    rw [single, List.mem_singleton] at member
    subst member
    exact absurd (tame _ raises) (by decide)
  obtain ⟨p, thread, prepared, threads, only, context⟩ := prepared_walking steps single user
  have spec := Replaying.prepared_spec steps.unkept prepared
  have sound := spec.sound stays
  have first : p.threads[0]? = some ⟨thread, 1, decl.steps, .starting⟩ := by
    rw [threads]
    rfl
  have walking : Walking thread none (p.debugger, p.recorder) := by
    refine ⟨sound.quiet, only, context, ?_, sound.announced⟩
    rw [spec.unrecorded]
    exact steps.onward
  -- The first move only starts the thread.
  have moved := (sound.sound first).step sound.quiet sound.own sound.announced
  rw [step_starting] at moved
  have started := walking.withHost moved.works.host.parents
  obtain ⟨halts, after, advanced, visits, recorded⟩ :=
    started.advance moved.sound (moved.works.host.own sound.own) ⟨rfl, nofun⟩ tame (Nat.lt_succ_self _)
  have replayed : p.replayed = (none, after) := by
    have exits : (⟨thread, 1, decl.steps, .starting⟩ : ReplayThread Error).advance Recorder.frontEnd
        ((Step.toActionsAll decl.steps).actions.length + 2) (p.debugger, p.recorder) =
          (⟨thread, 1, decl.steps, .exited (.ok ())⟩, after) := by
      rw [advance_succ _ rfl, step_starting]
      exact advanced
    exact Replaying.replayed_single threads rfl exits rfl
  have unrecorded : p.recorder.records.toList = [] := by
    rw [spec.unrecorded]
    rfl
  have recorded : records config program = .ok (halts.map .halt) := by
    rw [records_eq, prepared]
    dsimp only
    rw [replayed]
    refine congrArg Except.ok (recorded.trans ?_)
    rw [unrecorded, List.nil_append]
  refine ⟨halts, recorded, ?_, ?_, visits.reasons⟩
  · unfold dump
    rw [recorded]
    rfl
  · rw [← (Step.executes_toActionsAll decl.steps).1]
    exact visits.positions

def onward : Config := { Config.standard with step := some 1, continueWith := .step }

def looping : Program where
  types := []
  exceptions := []
  threads := [⟨"main", none,
    [.line "a.rb" 1, .line "a.rb" 1, .branch "a.rb" 2, .repeat 2 [.line "a.rb" 3],
      .rescue [.call "f" none none none [.line "b.rb" 7, .raise "Oops", .line "b.rb" 8], .line "a.rb" 4],
      .repeat 2 [.line "a.rb" 5, .line "a.rb" 6]]⟩]

theorem records_looping : ∃ halts : List HaltRecord, records onward looping = .ok (halts.map .halt) ∧
    halts.map (·.position) = [⟨"a.rb", 1⟩, ⟨"a.rb", 3⟩, ⟨"b.rb", 7⟩, ⟨"a.rb", 5⟩, ⟨"a.rb", 6⟩, ⟨"a.rb", 5⟩,
      ⟨"a.rb", 6⟩] ∧ ∀ halt ∈ halts, halt.reason = .step := by
  have steps : onward.Steps := ⟨rfl, rfl, rfl, rfl, rfl, rfl⟩
  have single : looping.threads = [⟨"main", none, (looping.threads.headD ⟨"", none, []⟩).steps⟩] := rfl
  obtain ⟨halts, recorded, _, positions, reasons⟩ := records_stepping steps single rfl (by decide)
  exact ⟨halts, recorded, positions.trans (by decide), reasons⟩

end Recording

end EventDebugger
