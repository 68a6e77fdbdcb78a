import EventDebugger.Proofs.Observation.Replay
import EventDebugger.Proofs.Schedule.Preparation

/-!
# Dumps under observation

What is recorded of a program with a single thread does not depend on the settings of observation, but for
the traced lines.

* `Recording.blind_replay`: the replay of such a program is blind to observation.
* `Recording.dump_observed`: what becomes of its dump.
-/

namespace EventDebugger

open Run (Blind)

/-! ## Before the threads move -/

namespace Debugger

structure Unused (d : Debugger) : Prop where
  host : d.host = .initial
  table : ∀ table, d.session.map (·.table) = some table → table = .empty

variable {d d' e : Debugger} {traces : Bool}

theorem Tended.threadContext (h : d.Tended) {thread : Thread} {id : ContextId}
    (found : d.threadContext thread = .ok (id, d')) : d'.Tended ∧ d'.host = d.host := by
  obtain ⟨session, active, found⟩ := except_bind_eq_ok found
  have active := activeSession_eq_ok active
  split at found
  · next alive =>
      have tended := h.track active alive
      have done := doneFor_track active thread
      rw [Except.ok.inj found] at tended done
      exact ⟨tended, done.host⟩
  · cases found

namespace Shares

theorem start (h : d.Shares traces e) : Both traces d.start e.start := by
  cases active : d.session with
  | none =>
      have started {d : Debugger} (inactive : d.session = none) :
          d.start = (true, { d with startCount := d.startCount + 1, session := some newSession }) := by
        simp only [Debugger.start, inactive]
      rw [started active, started (h.session.trans active)]
      exact ⟨rfl, h.change (fun d => { d with startCount := d.startCount + 1, session := some newSession })
        fun _ _ => rfl⟩
  | some session =>
      have started {d : Debugger} (active : d.session = some session) :
          d.start = (false, { d with startCount := d.startCount + 1 }) := by
        simp only [Debugger.start, active]
      rw [started active, started (h.session.trans active)]
      exact ⟨rfl, h.change (fun d => { d with startCount := d.startCount + 1 }) fun _ _ => rfl⟩

theorem stop (h : d.Shares traces e) : Results (Both traces) d.stop e.stop := by
  unfold Debugger.stop
  rw [h.activeSession]
  refine (Results.same d.activeSession).bind fun _ => .ok ?_
  have count : e.startCount = d.startCount := congrArg (·.startCount) h
  have undone := h.change (fun f => { f with startCount := d.startCount - 1 }) fun _ _ => rfl
  dsimp only
  rw [count]
  split
  · exact ⟨rfl, undone⟩
  · exact ⟨rfl, (undone.setSession none).wakeUp⟩

theorem addBreakpoint (h : d.Shares traces e) (source : String) (target : BreakpointTarget)
    (guard : Option String) :
    Results (Both traces) (d.addBreakpoint source target guard) (e.addBreakpoint source target guard) := by
  unfold Debugger.addBreakpoint
  rw [h.activeSession]
  refine (Results.same d.activeSession).bind fun {session _} same => .ok ?_
  subst same
  have count : e.breakpointCount = d.breakpointCount := congrArg (·.breakpointCount) h
  rw [count]
  exact ⟨rfl, h.change (fun f => { f with breakpointCount := d.breakpointCount + 1, session := _ })
    fun _ _ => rfl⟩

theorem setCatchpoint (h : d.Shares traces e) (className : Option String) :
    Results (Shares traces) (d.setCatchpoint className) (e.setCatchpoint className) := by
  unfold Debugger.setCatchpoint
  rw [h.activeSession]
  refine (Results.same d.activeSession).bind fun _ => .ok ?_
  exact h.change (fun d => { d with catchpoint := className }) fun _ _ => rfl

theorem armStep (h : d.Shares traces e) (thread : Thread) (n : Int) :
    Results (Shares traces)
      (do let (id, d) ← d.threadContext thread; d.command id fun context => context.step n false)
      (do let (id, e) ← e.threadContext thread; e.command id fun context => context.step n false) := by
  refine (h.threadContext thread).bind fun {x y} both => ?_
  obtain ⟨_, d⟩ := x
  obtain ⟨id, e⟩ := y
  obtain ⟨rfl, made⟩ := both
  refine made.command id (.of_map_eq ?_)
  rw [← Context.step_bare, ← Context.step_bare, made.context]

end Shares

end Debugger

/-! ## Computations that may fail -/

namespace Recording

variable {traces : Bool} {α β : Type} {before : Debugger → Prop}

theorem blind_bind {x : Recording α} {f : α → Recording β} {m after : Debugger → Prop}
    (first : Blind traces before x.run fun _ => m) (weaker : ∀ d, m d → after d)
    (later : ∀ a, Blind traces m (f a).run fun _ => after) :
    Blind traces before (x >>= f).run fun _ => after := by
  intro d e r q h alike given
  obtain ⟨⟨same, h', alike'⟩, holds⟩ := first h alike given
  rw [bind_eq, bind_eq]
  generalize x.run (d, r) = u at same h' alike' holds ⊢
  generalize x.run (e, q) = v at same h' alike' ⊢
  obtain ⟨_, d', r'⟩ := u
  obtain ⟨result, e', q'⟩ := v
  obtain rfl := same
  cases result with
  | error error => exact ⟨⟨rfl, h', alike'⟩, weaker _ holds⟩
  | ok a => exact later a h' alike' holds

theorem blind_ofRun {x : Run Recorder (Except Error α)} {after : Debugger → Prop}
    (blind : Blind traces before x fun _ => after) : Blind traces before (ofRun x).run fun _ => after :=
  blind.bind fun _ => .pure fun _ => id

theorem blind_addBreakpoint (bp : BreakConfig) :
    Blind traces Debugger.Unused (addBreakpoint bp).run fun _ => Debugger.Unused := by
  unfold addBreakpoint
  split
  · exact .pure fun _ => id
  · next target _ =>
      have added : Blind traces Debugger.Unused
          (Run.attempt fun d => d.addBreakpoint bp.source target bp.cond) fun _ => Debugger.Unused := by
        refine .attempt (fun h => h.addBreakpoint bp.source target bp.cond) fun {d a d'} unused added => ?_
        obtain ⟨session, active, made⟩ := except_bind_eq_ok added
        have active := Debugger.activeSession_eq_ok active
        cases made
        exact ⟨unused.host, fun table is => unused.table table (by rw [active]; exact is)⟩
      exact blind_bind (blind_ofRun added) (fun _ => id) fun _ => .pure fun _ => id

theorem blind_forM (bps : List BreakConfig) :
    Blind traces Debugger.Unused (bps.forM addBreakpoint : Recording PUnit).run fun _ => Debugger.Unused := by
  induction bps with
  | nil => exact .pure fun _ => id
  | cons bp bps ih => exact blind_bind (blind_addBreakpoint bp) (fun _ => id) fun _ => ih

/-! ## The threads of a program -/

def Spawned (threads : List (ReplayThread Error)) (d : Debugger) : Prop :=
  threads.length ≤ 1 ∧ d.Tended ∧ ∀ t ∈ threads, t.phase = .starting ∧ d.host.isAlive t.thread

theorem Spawned.solitary {threads : List (ReplayThread Error)} {d : Debugger} (h : Spawned threads d) :
    Solitary threads d := by
  refine ⟨h.1, fun t member => ?_⟩
  obtain ⟨starting, alive⟩ := h.2.2 t member
  unfold ReplayThread.Alone
  rw [starting]
  exact ⟨alive, h.2.1⟩

theorem blind_spawnThreads {decls : List ThreadDecl} (single : decls.length ≤ 1) :
    Blind traces (fun d => d.Tended ∧ d.host.Fresh 1)
      (spawnThreads 1 decls : Run Recorder (List (ReplayThread Error))) Spawned := by
  match decls, single with
  | [], _ => exact .pure fun _ h => ⟨Nat.zero_le 1, h.1, fun _ member => absurd member List.not_mem_nil⟩
  | [decl], _ =>
      rw [spawnThreads_single]
      refine .onHost (α := List (ReplayThread Error)) (f := fun host =>
        ([⟨(host.spawn decl).1, 1, decl.steps, .starting⟩], (host.spawn decl).2)) fun d h => ?_
      have grows := (d.host.grows_register decl.name).trans (d.host.sameThreads_spawn decl).grows
      refine ⟨Nat.le_refl 1, h.1.of_same (fun other alive => grows.alive alive) rfl, fun t member => ?_⟩
      rw [List.mem_singleton.mp member]
      exact ⟨rfl, Host.isAlive_spawn h.2.registered decl⟩

variable (config : Config) (program : Program)

theorem blind_prepareThread (threads : List (ReplayThread Error)) (index : Nat) (thread : Thread) :
    Blind traces (Spawned threads) (prepareThread config program index thread) fun _ => Spawned threads := by
  unfold prepareThread
  split
  · next steps _ =>
      split
      · refine .perform (fun h => h.armStep thread steps) fun {d d'} spawned armed => ?_
        obtain ⟨⟨id, made⟩, found, stepped⟩ := except_bind_eq_ok armed
        obtain ⟨tended, host⟩ := spawned.2.1.threadContext found
        obtain ⟨_, _, changed⟩ := except_bind_eq_ok stepped
        cases changed
        exact ⟨spawned.1, tended, fun t member => host ▸ spawned.2.2 t member⟩
      · exact .pure fun _ => id
  · exact .pure fun _ => id

theorem blind_prepareThreads (threads : List (ReplayThread Error)) (index : Nat)
    (ts : List (ReplayThread Error)) :
    Blind traces (Spawned threads) (prepareThreads (prepareThread config program) index ts)
      fun _ => Spawned threads := by
  induction ts generalizing index with
  | nil => exact .pure fun _ => id
  | cons t ts ih =>
      refine (blind_prepareThread config program threads index t.thread).bind fun prepared => ?_
      cases prepared with
      | error error => exact .pure fun _ => id
      | ok => exact ih (index + 1)

theorem blind_abandonThreads (threads : List (ReplayThread Error)) :
    Blind traces (fun _ => True) (abandonThreads threads : Run Recorder Unit) fun _ _ => True := by
  induction threads with
  | nil => exact .pure fun _ => id
  | cons t ts ih =>
      exact .bind (.onHost (f := fun host => ((), host.exitThread t.thread)) fun _ => id) fun _ => ih

theorem blind_replay (single : program.threads.length ≤ 1) :
    Blind traces Debugger.Unused (replay config program).run fun _ _ => True := by
  have moves : Blind traces Debugger.Unused
      (EventDebugger.replay Recorder.frontEnd 1 program (prepareThread config program)) fun _ _ => True := by
    refine .bind (m := fun _ d => d.Tended ∧ d.host.Fresh 1) ?_ fun _ => ?_
    · refine .onHost (f := fun host => ((), host.declare program)) fun d unused => ⟨fun table is => ?_, ?_⟩
      · obtain rfl := unused.table table is
        exact ⟨nofun, nofun⟩
      · have fresh := (Host.fresh_declare program).1
        rw [← unused.host] at fresh
        exact fresh
    · refine (blind_spawnThreads single).bind fun threads => ?_
      refine (blind_prepareThreads config program threads 0 threads).bind fun prepared => ?_
      cases prepared with
      | error error =>
          refine ((blind_abandonThreads threads).of_imp fun _ _ => trivial).bind fun _ => ?_
          exact .pure fun _ => id
      | ok =>
          refine ((blind_replayRounds _ threads).of_imp fun _ h => h.solitary).bind fun error => ?_
          cases error with
          | none => exact .pure fun _ => id
          | some error => exact .pure fun _ => id
  refine blind_bind (blind_forM config.breakpoints) (fun _ _ => trivial) fun _ => ?_
  refine blind_bind (m := Debugger.Unused) (blind_ofRun (.perform (fun h => h.setCatchpoint _) ?_))
    (fun _ _ => trivial) fun _ => ?_
  · intro d d' unused set
    obtain ⟨session, active, made⟩ := except_bind_eq_ok set
    cases made
    exact ⟨unused.host, unused.table⟩
  · refine blind_bind (m := fun _ => True) ?_ (fun _ => id) fun result => ?_
    · exact moves.bind fun _ => .pure fun _ => id
    · cases result with
      | ok => exact .pure fun _ => id
      | error error => exact .pure fun _ => id

/-! ## The dump -/

variable {config program}

theorem records_observed (traces : Bool) (config config' : Config)
    (settings : config'.settings.bare true = config.settings.bare traces)
    (mode : config'.continueWith = config.continueWith)
    (replays : replay config' program = replay config program) (single : program.threads.length ≤ 1) :
    records config' program =
      (records config program).map fun written => written.filter fun record => traces || !record.isTrace := by
  have started : Blind traces (fun d => d.host = .initial ∧ d.session = none)
      (runStarted (replay config program).run) fun _ _ => True := by
    refine .bind (m := fun _ => Debugger.Unused) ?_ fun _ => ?_
    · refine .onDebugger (f := Debugger.start) (fun h => h.start) fun d fresh => ?_
      simp only [Debugger.start, fresh.2]
      refine ⟨fresh.1, fun table is => ?_⟩
      cases is
      rfl
    · refine (blind_replay config program single).bind fun result => ?_
      refine .bind (m := fun _ _ => True) ?_ fun _ => .pure fun _ => id
      exact .attempt (fun h => h.stop) fun _ _ => trivial
  have first : (Debugger.initial config.settings).Shares traces (Debugger.initial config'.settings) := by
    rw [Debugger.Shares, Debugger.bare_initial, Debugger.bare_initial, settings]
  have unrecorded : (Recorder.initial config.continueWith).Shares traces
      (Recorder.initial config'.continueWith) := congrArg Recorder.initial mode
  obtain ⟨same, -, recorded⟩ := (started first unrecorded ⟨rfl, rfl⟩).1
  have records_eq (config : Config) : records config program =
      let run := runStarted (replay config program).run
        (Debugger.initial config.settings, Recorder.initial config.continueWith)
      run.1.map fun () => run.2.2.records.toList := rfl
  rw [records_eq, records_eq, replays]
  dsimp only
  rw [same, recorded]
  generalize runStarted (replay config program).run _ = run
  obtain ⟨_ | _, _, recorder⟩ := run
  · rfl
  · exact congrArg Except.ok Array.toList_filter

def document (config : Config) (program : Program) : Except RecordingError Kdl.Document :=
  (records config program).map (·.map Record.toNode)

/-- The settings of observation do not matter for a program with a single thread. Tracing adds nodes of its own
to the dump, and changes nothing else. -/
theorem dump_observed (config : Config) (program : Program) (single : program.threads.length ≤ 1) :
    (∀ keepFrameBinding debug pruneInterval,
      dump { config with keepFrameBinding, debug, pruneInterval } program = dump config program) ∧
    dump { config with tracing := true } program =
      (document { config with tracing := true } program).map Kdl.Writer.writeDocument ∧
    dump { config with tracing := false } program =
      (document { config with tracing := true } program).map fun nodes =>
        Kdl.Writer.writeDocument (nodes.filter fun node => node.name != "trace") := by
  refine ⟨fun keepFrameBinding debug pruneInterval => ?_, ?_, ?_⟩
  · have observed := records_observed true config { config with keepFrameBinding, debug, pruneInterval }
      rfl rfl rfl single
    unfold dump
    rw [observed]
    simp only [Bool.true_or, List.filter_true]
    cases records config program <;> rfl
  · unfold dump document
    cases records { config with tracing := true } program <;> rfl
  · have observed := records_observed false { config with tracing := true } { config with tracing := false }
      rfl rfl rfl single
    have named (record : Record) : (record.toNode.name != "trace") = !record.isTrace := by
      cases record <;> rfl
    have written (records : List Record) :
        (records.map Record.toNode).filter (fun node => node.name != "trace") =
          (records.filter fun record => !record.isTrace).map Record.toNode := by
      rw [List.filter_map]
      exact congrArg (List.map Record.toNode) (List.filter_congr fun record _ => named record)
    unfold dump document
    rw [observed]
    cases records { config with tracing := true } program with
    | error error => rfl
    | ok records => exact congrArg (Except.ok ∘ Kdl.Writer.writeDocument) (written records).symm

def watchful : Config :=
  { Config.standard with
    postMortem := true
    breakpoints := [⟨"A", none, some "f", some "true"⟩, ⟨"a.rb", some 3, none, some "x == 1"⟩] }

def failing : Program where
  types := []
  exceptions := []
  threads := [⟨"main", none,
    [.line "a.rb" 1, .call "f" (some "A") none (some 2) [.assign "x" "1", .line "a.rb" 3], .line "a.rb" 4,
      .raise "Oops"]⟩]

theorem dump_failing : ∃ nodes, document { watchful with tracing := true } failing = .ok nodes ∧
    nodes.map (·.name) = ["trace", "halt", "trace", "halt", "trace", "halt"] ∧
    dump { watchful with tracing := false } failing =
      .ok (Kdl.Writer.writeDocument (nodes.filter fun node => node.name != "trace")) ∧
    dump { watchful with keepFrameBinding := true, debug := true, pruneInterval := some 0 } failing =
      dump watchful failing := by
  obtain ⟨settings, _, untraced⟩ := dump_observed watchful failing (Nat.le_refl 1)
  have names : (document { watchful with tracing := true } failing).toOption.map (·.map (·.name)) =
      some ["trace", "halt", "trace", "halt", "trace", "halt"] := by decide +kernel
  cases written : document { watchful with tracing := true } failing with
  | error error =>
      rw [written] at names
      cases names
  | ok nodes =>
      rw [written] at names untraced
      exact ⟨nodes, rfl, Option.some.inj names, untraced, settings true true (some 0)⟩

end Recording

end EventDebugger
