import EventDebugger.Proofs.Replay.Spawning
import EventDebugger.Proofs.Schedule.Independence

/-!
# A program before its threads move

Before the first move the debugger has its breakpoints and its catch-point, the threads are spawned, and
the first one of the program may have been commanded to step. No variable and no frame was seen yet.

* `Replaying.Prepared.sound`: the invariant of schedules holds.
* `Replaying.Prepared.sameFor`: the run is alike to itself for each of its threads.
* `Replaying.recordsOf_run_eq`: what is recorded of a thread does not depend on the schedule.
-/

namespace EventDebugger

/-! ## Definitions -/

namespace Recording

/-- What a configuration sets before the threads of a program are spawned. -/
def configure (config : Config) : Recording Unit := do
  config.breakpoints.forM addBreakpoint
  ofRun (Run.perform fun d => d.setCatchpoint config.catchpoint)

def spawn (config : Config) (program : Program) (s : Debugger × Recorder) :
    Except Error (List (ReplayThread Error)) × Debugger × Recorder :=
  let spawned := (spawnThreads 1 program.threads : Run Recorder (List (ReplayThread Error)))
    ({ s.1 with host := s.1.host.declare program }, s.2)
  match prepareThreads (prepareThread config program) 0 spawned.1 spawned.2 with
  | (.error error, s) => (.error error, s)
  | (.ok (), s) => (.ok spawned.1, s)

end Recording

def Replaying.prepared (config : Config) (program : Program) : Except RecordingError Replaying :=
  match (Recording.configure config).run
      ((Debugger.initial config.settings).start.2, .initial config.continueWith) with
  | (.error error, _) => .error error
  | (.ok (), configured) =>
      match Recording.spawn config program configured with
      | (.error error, _) => .error (.debugger error)
      | (.ok threads, d, r) => .ok ⟨threads, d, r⟩

/-! ## Computations under the recorder -/

namespace Recording

theorem bind_eq {α β : Type} (x : Recording α) (f : α → Recording β) (s : Debugger × Recorder) :
    (x >>= f).run s =
      match x.run s with
      | (.error error, s) => (.error error, s)
      | (.ok a, s) => (f a).run s := by
  rw [ExceptT.run_bind, run_bind_eq]
  rcases x.run s with ⟨_ | _, s'⟩ <;> rfl

def Keeps (holds : Debugger × Recorder → Prop) {α : Type} (x : Recording α) : Prop :=
  ∀ s, holds s → holds (x.run s).2

variable {holds : Debugger × Recorder → Prop} {α β : Type}

theorem Keeps.bind {x : Recording α} {f : α → Recording β} (first : Keeps holds x)
    (later : ∀ a, Keeps holds (f a)) : Keeps holds (x >>= f) := by
  intro s h
  have kept := first s h
  rw [bind_eq]
  generalize x.run s = result at kept ⊢
  rcases result with ⟨_ | a, s'⟩
  · exact kept
  · exact later a s' kept

theorem Keeps.forM {f : α → Recording PUnit} (each : ∀ a, Keeps holds (f a)) (xs : List α) :
    Keeps holds (xs.forM f) := by
  induction xs with
  | nil => exact fun s h => h
  | cons x xs ih => exact (each x).bind fun _ => ih

theorem Keeps.attempt {f : Debugger → Except Error (α × Debugger)}
    (keeps : ∀ {d r a d'}, holds (d, r) → f d = .ok (a, d') → holds (d', r)) :
    Keeps holds (ofRun (Run.attempt f)) := by
  rintro ⟨d, r⟩ h
  have run : ((ofRun (Run.attempt f)).run (d, r)).2 = (Run.attempt f (d, r)).2 := rfl
  rw [run]
  unfold Run.attempt Run.onDebugger
  cases found : f d with
  | error error => simpa only [found] using h
  | ok result => simpa only [found] using keeps h found

theorem Keeps.perform {f : Debugger → Except Error Debugger}
    (keeps : ∀ {d r d'}, holds (d, r) → f d = .ok d' → holds (d', r)) :
    Keeps holds (ofRun (Run.perform f)) := by
  refine .attempt fun {d r a d'} h changed => ?_
  cases found : f d with
  | error error =>
      simp only [found] at changed
      cases changed
  | ok changed' =>
      simp only [found] at changed
      cases changed
      exact keeps h found

end Recording

/-! ## The configuration -/

structure Configured (config : Config) (s : Debugger × Recorder) : Prop where
  quiet : s.1.Quiet
  host : s.1.host = .initial
  unseen : s.1.contexts = #[]
  unrecorded : s.2 = .initial config.continueWith

theorem Debugger.quiet_start {settings : Settings} (off : settings.postMortem = false) :
    (initial settings).start.2.Quiet := by
  refine ⟨rfl, ⟨?_, ?_⟩, ⟨rfl, fun id known => absurd known (Nat.not_lt_zero id)⟩, off, rfl⟩
  · intro session active
    cases active
    intro thread id recent
    cases recent
  · intro session thread id active stored
    cases active
    cases stored

theorem configured_start {config : Config} (off : config.postMortem = false) :
    Configured config ((Debugger.initial config.settings).start.2, .initial config.continueWith) :=
  ⟨Debugger.quiet_start off, rfl, rfl, rfl⟩

theorem Configured.set {config : Config} {d d' : Debugger} {r : Recorder} (h : Configured config (d, r))
    (ticket : d'.ticket = d.ticket) (table : d'.session.map (·.table) = d.session.map (·.table))
    (rest : d' = { d with session := d'.session, catchpoint := d'.catchpoint, breakpointCount := d'.breakpointCount }) :
    Configured config (d', r) := by
  have host : d'.host = d.host := congrArg (·.host) rest
  have contexts : d'.contexts = d.contexts := congrArg (·.contexts) rest
  have unseen : d'.contexts = #[] := contexts.trans h.unseen
  have same (id : ContextId) : d'.context id = d.context id := by rw [Debugger.context, contexts, Debugger.context]
  have settings : d'.settings = d.settings := congrArg (·.settings) rest
  have tracks : Debugger.Tracks d d' :=
    .of_same table (host ▸ .refl _) (by rw [settings]) (by rw [contexts]) fun id => by rw [same]
  have count : d'.contextCount = d.contextCount := congrArg (·.contextCount) rest
  have kept : d'.postMortems = d.postMortems := congrArg (·.postMortems) rest
  refine ⟨⟨ticket.trans h.quiet.ticket, tracks.tracked h.quiet.well, ⟨?_, fun id known => ?_⟩, ?_, ?_⟩,
    host.trans h.host, unseen, h.unrecorded⟩
  · rw [count, contexts]
    exact h.quiet.numbered.count
  · rw [contexts] at known
    rw [same]
    exact h.quiet.numbered.contexts id known
  · rw [settings]
    exact h.quiet.live
  · rw [kept]
    exact h.quiet.unkept

theorem keeps_configure (config : Config) : Recording.Keeps (Configured config) (Recording.configure config) := by
  refine .bind (.forM (fun bp => ?_) _) fun _ => .perform fun {d r d'} h set => ?_
  · unfold Recording.addBreakpoint
    split
    · exact fun s h => h
    · refine .bind (.attempt fun {d r a d'} h added => ?_) fun _ s h => h
      obtain ⟨session, active, added⟩ := except_bind_eq_ok added
      have active := Debugger.activeSession_eq_ok active
      cases added
      exact h.set (by simp only [Debugger.ticket, active, Option.map_some])
        (by simp only [active, Option.map_some]) rfl
  · obtain ⟨session, active, set⟩ := except_bind_eq_ok set
    cases set
    exact h.set rfl rfl rfl

/-! ## The threads -/

namespace Host

def Scoped (host : Host) : Prop :=
  ∀ record ∈ host.threads, ∀ {c}, record.scope.Names c → c < host.scopes.cells.size

theorem Scoped.spawn {host : Host} (h : host.Scoped) (decl : ThreadDecl) : (host.spawn decl).2.Scoped := by
  have registered : (host.register decl.name).2.Scoped := by
    intro record member c names
    change c < (host.scopes.cells.push []).size
    rw [Array.size_push]
    rcases List.mem_append.mp member with old | new
    · exact Nat.lt_succ_of_lt (h record old names)
    · rw [List.mem_singleton.mp new] at names
      exact Nat.lt_succ_of_le (Nat.le_of_eq (Scope.names_entered _ names))
  simp only [Host.spawn]
  split
  · intro record member c names
    obtain ⟨old, was, rfl⟩ := List.mem_map.mp member
    refine registered old was ?_
    split at names <;> exact names
  · exact registered

theorem fresh_declare (program : Program) :
    (initial.declare program).Fresh 1 ∧ (initial.declare program).Scoped := by
  rw [declare_eq]
  exact ⟨⟨⟨ownThreads_initial.injective, ownThreads_initial.registered, ownThreads_initial.home⟩, nofun,
    fun _ => rfl⟩, nofun⟩

end Host

theorem scoped_spawnThreads (system : Nat) (decls : List ThreadDecl) {d : Debugger} (h : d.host.Scoped)
    (r : Recorder) : (spawnThreads (ε := Error) system decls (d, r)).2.1.host.Scoped := by
  induction decls generalizing system d with
  | nil => exact h
  | cons decl decls ih =>
      rw [spawnThreads_cons]
      exact ih (system + 1) (d := { d with host := (d.host.spawn decl).2 }) (h.spawn decl)

theorem spawned_at (system : Nat) (decls : List ThreadDecl) (d : Debugger) (r : Recorder) {i : Nat}
    {t : ReplayThread Error} (is : (spawnThreads system decls (d, r)).1[i]? = some t) :
    t.system = system + i ∧ t.phase = .starting := by
  induction decls generalizing system d i with
  | nil => cases is
  | cons decl decls ih =>
      rw [spawnThreads_cons] at is
      cases i with
      | zero =>
          cases is
          exact ⟨rfl, rfl⟩
      | succ i =>
          obtain ⟨later, starting⟩ := ih (system + 1) _ is
          exact ⟨by omega, starting⟩

/-! ## The first step -/

structure Debugger.Unmoved (d : Debugger) : Prop where
  quiet : d.Quiet
  framed : ∀ id < d.contexts.size, (d.context id).stack = []

namespace Debugger.Unmoved

variable {d d' : Debugger}

theorem of_tracks (h : d.Unmoved) (tracks : Tracks d d') (quiet : d'.Quiet) : d'.Unmoved := by
  refine ⟨quiet, fun id known => ?_⟩
  by_cases old : id < d.contexts.size
  · have core := tracks.core id old
    simp only [Context.core, Prod.mk.injEq] at core
    rw [core.2.2.2, h.framed id old]
  · exact (tracks.fresh id (Nat.le_of_not_lt old) known).1

theorem threadContext (h : d.Unmoved) {thread : Thread} {id : ContextId}
    (found : d.threadContext thread = .ok (id, d')) : d'.Unmoved ∧ d'.host = d.host := by
  obtain ⟨session, active, found⟩ := except_bind_eq_ok found
  have active := activeSession_eq_ok active
  split at found
  · have done := doneFor_track active thread
    have ticket := ticket_track active thread
    have tracks := tracks_track active thread
    rw [Except.ok.inj found] at done ticket tracks
    exact ⟨h.of_tracks tracks (h.quiet.of_doneFor done (ticket.trans h.quiet.ticket)), done.host⟩
  · cases found

theorem step (h : d.Unmoved) {id : ContextId} {n : Int}
    (stepped : d.command id (fun context => context.step n false) = .ok d') : d'.Unmoved ∧ d'.host = d.host := by
  have traits {context context' : Context} (is : context.step n false = .ok context') :
      context'.traits = context.traits := by
    obtain ⟨_, _, changed⟩ := except_bind_eq_ok is
    cases changed
    rfl
  have touches := Recorder.touches_command 0 (f := fun context => context.step n false) traits stepped
  have tends : Tends 0 d d' := tends_command (core_step n false) stepped
  have same : d'.host = d.host := by
    obtain ⟨_, _, changed⟩ := except_bind_eq_ok stepped
    cases changed
    rfl
  refine ⟨h.of_tracks tends.tracks ⟨tends.ticket.trans h.quiet.ticket, tends.tracks.tracked h.quiet.well,
    h.quiet.numbered.of_touches touches h.quiet.live, ?_, ?_⟩, same⟩
  · rw [touches.settings]
    exact h.quiet.live
  · exact (touches.kept h.quiet.live).1.trans h.quiet.unkept

end Debugger.Unmoved

theorem unmoved_prepareThread (config : Config) (program : Program) (index : Nat) (thread : Thread)
    {d : Debugger} (h : d.Unmoved) (r : Recorder) :
    let prepared := Recording.prepareThread config program index thread (d, r)
    prepared.2.1.Unmoved ∧ prepared.2.1.host = d.host ∧ prepared.2.2 = r := by
  have untouched : d.Unmoved ∧ d.host = d.host ∧ r = r := ⟨h, rfl, rfl⟩
  unfold Recording.prepareThread
  cases config.step with
  | none => exact untouched
  | some steps =>
      dsimp only
      split
      · rw [Run.perform_eq]
        split
        · exact untouched
        · next d' commanded =>
            obtain ⟨⟨id, tracked⟩, found, stepped⟩ := except_bind_eq_ok commanded
            obtain ⟨unmoved, same⟩ := h.threadContext found
            obtain ⟨unmoved', same'⟩ := unmoved.step stepped
            exact ⟨unmoved', same'.trans same, rfl⟩
      · exact untouched

theorem unmoved_prepareThreads (config : Config) (program : Program) (index : Nat)
    (threads : List (ReplayThread Error)) {d : Debugger} (h : d.Unmoved) (r : Recorder) :
    let prepared := prepareThreads (Recording.prepareThread config program) index threads (d, r)
    prepared.2.1.Unmoved ∧ prepared.2.1.host = d.host ∧ prepared.2.2 = r := by
  induction threads generalizing index d with
  | nil => exact ⟨h, rfl, rfl⟩
  | cons t ts ih =>
      obtain ⟨unmoved, same, unrecorded⟩ := unmoved_prepareThread config program index t.thread h r
      unfold prepareThreads
      rw [run_bind_eq]
      generalize Recording.prepareThread config program index t.thread (d, r) = prepared
        at unmoved same unrecorded ⊢
      obtain ⟨_ | _, d', r'⟩ := prepared
      · exact ⟨unmoved, same, unrecorded⟩
      · obtain ⟨unmoved', same', unrecorded'⟩ := ih (index + 1) unmoved
        cases unrecorded
        exact ⟨unmoved', same'.trans same, unrecorded'⟩

/-! ## The program before its threads move -/

namespace Replaying

variable {config : Config} {program : Program} {p : Replaying}

structure Prepared (config : Config) (program : Program) (p : Replaying) : Prop where
  unmoved : p.debugger.Unmoved
  own : p.debugger.host.OwnThreads
  cells : p.debugger.host.Scoped
  unbound : ∀ s, p.debugger.host.boundTo? s = none
  unrecorded : p.recorder = .initial config.continueWith
  threads : ∀ {i : Nat} {t : ReplayThread Error}, p.threads[i]? = some t →
    t.system = i + 1 ∧ t.thread.id = i + 1 ∧ t.phase = .starting ∧ t.thread.id ≤ p.debugger.host.threadCount ∧
      p.debugger.host.isAlive t.thread ∧ ∃ decl ∈ program.threads, t.steps = decl.steps

theorem prepared_spec (off : config.postMortem = false) (is : prepared config program = .ok p) :
    p.Prepared config program := by
  have configured := keeps_configure config _ (configured_start off)
  unfold prepared at is
  generalize (Recording.configure config).run _ = s at configured is
  obtain ⟨_ | _, d, r⟩ := s
  · cases is
  obtain ⟨quiet, host, unseen, unrecorded⟩ := configured
  unfold Recording.spawn at is
  dsimp only at quiet host unseen unrecorded is
  rw [host] at is
  obtain ⟨fresh, cells⟩ := Host.fresh_declare program
  obtain ⟨declared, isDeclared⟩ : ∃ declared : Debugger, declared = { d with host := Host.initial.declare program } :=
    ⟨_, rfl⟩
  have hosts : declared.host = Host.initial.declare program := by rw [isDeclared]
  have quiet : declared.Quiet := isDeclared ▸ quiet.withHost _
  have unseen : declared.contexts = #[] := isDeclared ▸ unseen
  have spec := spawnThreads_spec (ε := Error) 1 program.threads (d := declared) (hosts ▸ fresh) r
  have cells := scoped_spawnThreads 1 program.threads (d := declared) (hosts ▸ cells) r
  have numbered {i : Nat} {t : ReplayThread Error} := spawned_at 1 program.threads declared r (i := i) (t := t)
  rw [← isDeclared] at is
  generalize spawnThreads 1 program.threads (declared, r) = spawned at is spec cells numbered
  obtain ⟨threads, d', r'⟩ := spawned
  obtain ⟨rest, same, grows, _, bound, known⟩ := spec
  dsimp only at rest same grows bound known cells numbered is
  subst same
  have unmoved : d'.Unmoved := by
    rw [rest]
    refine ⟨quiet.withHost _, fun id known => ?_⟩
    change id < declared.contexts.size at known
    rw [unseen] at known
    exact absurd known (Nat.not_lt_zero id)
  have prepares := unmoved_prepareThreads config program 0 threads unmoved r'
  generalize prepareThreads (Recording.prepareThread config program) 0 threads (d', r') = prepared at prepares is
  obtain ⟨_ | _, d'', r''⟩ := prepared
  · dsimp only at is
    cases is
  dsimp only at is
  cases is
  obtain ⟨unmoved', host', recorder⟩ := prepares
  dsimp only at unmoved' host' recorder
  have free (s : Nat) : d''.host.boundTo? s = none := by
    rw [host', bound, hosts, Host.declare_eq]
    rfl
  have count : declared.host.threadCount = 0 := by
    rw [hosts, Host.declare_eq]
    rfl
  refine ⟨unmoved', ?_, ?_, free, recorder.trans unrecorded, fun {i t} is => ?_⟩
  · exact host' ▸ grows.own (hosts ▸ fresh.own)
  · exact host' ▸ cells
  · obtain ⟨_, inOrder, registered, alive, steps⟩ := known t (List.mem_of_getElem? is)
    obtain ⟨system, starting⟩ := numbered is
    rw [count] at inOrder
    exact ⟨by omega, by omega, starting, host' ▸ registered, host' ▸ alive, steps⟩

/-- No thread of a program executes a raise of the exit exception. -/
def Stays (program : Program) : Prop :=
  ∀ decl ∈ program.threads, Action.raise "SystemExit" ∉ (Step.toActionsAll decl.steps).actions

theorem Prepared.sound (h : p.Prepared config program) (stays : Stays program) : p.Sound := by
  refine ⟨h.unmoved.quiet, h.own, ?_, fun {i j t u} is is' ne => ?_, fun {i t} is => ?_, fun record member => ?_⟩
  · rw [h.unrecorded]
    rfl
  · obtain ⟨system, number, _⟩ := h.threads is
    obtain ⟨system', number', _⟩ := h.threads is'
    constructor
    · rintro same
      rw [same] at number
      omega
    · omega
  · obtain ⟨thread, system, steps, phase⟩ := t
    obtain ⟨_, number, starting, registered, alive, decl, member, rfl⟩ := h.threads is
    obtain rfl : phase = .starting := starting
    refine .starting (h.unbound _) (fun s bound => ?_) registered alive (stays decl member)
    rw [h.unbound s] at bound
    cases bound
  · rw [h.unrecorded] at member
    cases member

theorem Prepared.sameFor (h : p.Prepared config program) (sound : p.Sound) {i : Nat} {t : ReplayThread Error}
    (is : p.threads[i]? = some t) :
    SameFor (fun c c' => c = c' ∧ c < p.debugger.host.scopes.cells.size) i t t p p := by
  refine ⟨sound, sound, is, is, ⟨⟨rfl, rfl, rfl⟩, ?_, rfl, rfl, fun _ => ⟨?_, ?_, rfl⟩, fun _ => ?_⟩, rfl, ?_⟩
  · rw [(h.threads is).2.2.1]
    exact .starting
  · refine ⟨fun {c c'} matched => ?_, fun {c c'} matched => ?_, fun {c c' e e'} matched matched' => ?_⟩
    · rw [matched.1]
    · rw [← matched.1]
      exact ⟨matched.2, matched.2⟩
    · rw [matched.1, matched'.1]
  · cases found : p.debugger.host.record? t.thread with
    | none => exact .none
    | some record =>
        have cells {c : Nat} (names : record.scope.Names c) := h.cells record (Host.mem_of_record? found).1 names
        refine .some ⟨⟨rfl, cells (.inl rfl)⟩, ?_⟩
        cases block : record.scope.blockCell with
        | none => exact .none
        | some cell => exact .some ⟨rfl, cells (.inr block)⟩
  · unfold Debugger.contextFor?
    cases found : p.debugger.contextOf? t.thread with
    | none => exact .none
    | some id =>
        have framed := h.unmoved.framed id (h.unmoved.quiet.well.known found).1
        refine .some (.intro (p.debugger.context id) (p.debugger.context id).number ?_)
        change List.Forall₂ _ (p.debugger.context id).stack (p.debugger.context id).stack
        rw [framed]
        exact .nil
  · intro _ j u _ other c c' names
    unfold ReplayThread.Names at names
    rw [(h.threads other).2.2.1] at names
    cases names

/-- What is recorded of a thread does not depend on the schedule: two schedules that let the thread move
equally often, or let it exit, record the same of it. -/
theorem recordsOf_run_eq (off : config.postMortem = false) (stays : Stays program)
    (is : prepared config program = .ok p) (i : Nat) {u w : List Nat}
    (fair : u.count i = w.count i ∨ (p.run u).Exited i ∧ (p.run w).Exited i) :
    (p.run u).recordsOf i = (p.run w).recordsOf i := by
  have prepared := prepared_spec off is
  have sound := prepared.sound stays
  cases thread : p.threads[i]? with
  | none =>
      have absent (schedule : List Nat) : (p.run schedule).recordsOf i = [] := by
        unfold Replaying.recordsOf
        rw [threads_run_none thread]
      rw [absent, absent]
  | some t => exact (prepared.sameFor sound thread).independent fair

def stepping : Config :=
  { Config.standard with breakpoints := [⟨"a.rb", some 1, none, none⟩], continueWith := .step }

def twoPassing : Program where
  types := []
  exceptions := []
  threads :=
    [⟨"a", none, [.line "a.rb" 1, .line "a.rb" 2]⟩, ⟨"b", none, [.line "a.rb" 1, .line "b.rb" 2]⟩]

theorem stays_twoPassing : Stays twoPassing := by
  unfold Stays
  decide

theorem recordsOf_twoPassing : ∃ p, prepared stepping twoPassing = .ok p ∧
    ((p.run [0, 0, 0, 1, 1, 1, 1]).recordsOf 1).length = 2 ∧
    (p.run [0, 0, 0, 1, 1, 1, 1]).recordsOf 1 = (p.run [1, 0, 1, 0, 1, 0, 1]).recordsOf 1 := by
  have counted : (prepared stepping twoPassing).toOption.map
      (fun p => ((p.run [0, 0, 0, 1, 1, 1, 1]).recordsOf 1).length) = some 2 := by decide +kernel
  cases is : prepared stepping twoPassing with
  | error error =>
      rw [is] at counted
      cases counted
  | ok p =>
      rw [is] at counted
      exact ⟨p, rfl, Option.some.inj counted, recordsOf_run_eq rfl stays_twoPassing is 1 (.inl rfl)⟩

end Replaying

end EventDebugger
