import EventDebugger.Proofs.Attribution.Moves
import EventDebugger.Proofs.Observation.Dump
import EventDebugger.Proofs.Solo.Running

/-!
# Where the records of a program come from

The replay of a single thread is a number of its moves from a prepared debugger, whose breakpoints are those of the
configuration. So a halt that is recorded is due to the event of a move, or is the post-mortem that the thread ends
with.

* `Recording.calm_prepared`: the program before its thread moves.
* `Replaying.replayed_run`: its rounds are moves of the thread.
* `Recording.accounted_run`: the halts of any number of moves.
-/

namespace EventDebugger

theorem Run.Blind.holds {α : Type} {x : Run Recorder α} {before : Debugger → Prop}
    {after : α → Debugger → Prop} (blind : Run.Blind true before x after) {d : Debugger} (given : before d)
    (r : Recorder) : after (x (d, r)).1 (x (d, r)).2.1 := by
  have alike : r.Shares true r := by
    have kept : r.records.filter (fun record => true || !record.isTrace) = r.records :=
      Array.filter_eq_self.mpr fun _ _ => rfl
    unfold Recorder.Shares Recorder.bare
    rw [kept]
  exact (blind rfl alike given).2

/-! ## The configuration -/

structure Listing (config : Config) (added : List BreakConfig) (s : Debugger × Recorder) : Prop where
  session : ∃ registry, s.1.session = some { Debugger.newSession with registry } ∧ ∀ bp ∈ registry, bp.IsFrom added
  count : s.1.breakpointCount = added.length
  host : s.1.host = .initial
  unseen : s.1.contexts = #[]
  unkept : s.1.postMortems = []
  unrecorded : s.2 = .initial config.continueWith

theorem Breakpoint.IsFrom.append {bp : Breakpoint} {added : List BreakConfig} (h : bp.IsFrom added)
    (later : List BreakConfig) : bp.IsFrom (added ++ later) := by
  obtain ⟨i, listed, is, rest⟩ := h
  have inside := (List.getElem?_eq_some_iff.mp is).1
  exact ⟨i, listed, (List.getElem?_append_left inside).trans is, rest⟩

namespace Recording

variable {config : Config} {program : Program} {added : List BreakConfig} {s s' : Debugger × Recorder}

theorem run_ofRun {α : Type} (run : Run Recorder (Except Error α)) (s : Debugger × Recorder) :
    (ofRun run).run s = ((run s).1.mapError .debugger, (run s).2) := rfl

theorem listing_addBreakpoint (h : Listing config added s) {bp : BreakConfig}
    (adds : (addBreakpoint bp).run s = (.ok (), s')) : Listing config (added ++ [bp]) s' := by
  obtain ⟨d, r⟩ := s
  obtain ⟨registry, active, are⟩ := h.session
  unfold addBreakpoint at adds
  split at adds
  · cases adds
  · next target is =>
      let new : Breakpoint := ⟨d.breakpointCount + 1, bp.source, target, bp.cond⟩
      have made : d.addBreakpoint bp.source target bp.cond = .ok (new, { d with
          breakpointCount := d.breakpointCount + 1
          session := some { Debugger.newSession with registry := registry ++ [new] } }) := by
        unfold Debugger.addBreakpoint Debugger.activeSession
        rw [active]
        rfl
      have run : (ofRun (Run.attempt fun d => d.addBreakpoint bp.source target bp.cond)).run (d, r) =
          (.ok new, { d with
            breakpointCount := d.breakpointCount + 1
            session := some { Debugger.newSession with registry := registry ++ [new] } }, r) := by
        simp only [run_ofRun, Run.attempt, Run.onDebugger, made]
        rfl
      rw [bind_eq, run] at adds
      cases adds
      refine ⟨⟨_, rfl, fun other member => ?_⟩, ?_, h.host, h.unseen, h.unkept, h.unrecorded⟩
      · rcases List.mem_append.mp member with old | same
        · exact (are other old).append [bp]
        · obtain rfl := List.mem_singleton.mp same
          refine ⟨added.length, bp, ?_, is, congrArg (· + 1) h.count, rfl, rfl⟩
          rw [List.getElem?_append_right (Nat.le_refl _), Nat.sub_self]
          rfl
      · rw [List.length_append]
        exact congrArg (· + 1) h.count

theorem listing_forM (h : Listing config added s) {bps : List BreakConfig}
    (adds : (bps.forM addBreakpoint : Recording PUnit).run s = (.ok (), s')) : Listing config (added ++ bps) s' := by
  induction bps generalizing added s with
  | nil =>
      cases adds
      exact (List.append_nil added).symm ▸ h
  | cons bp bps ih =>
      change ExceptT.run (addBreakpoint bp >>= fun _ => bps.forM addBreakpoint) s = _ at adds
      rw [bind_eq] at adds
      rcases first : (addBreakpoint bp).run s with ⟨_ | ⟨⟩, s₁⟩
      · rw [first] at adds
        cases adds
      · rw [first] at adds
        have later := ih (listing_addBreakpoint h first) adds
        rwa [List.append_assoc] at later

theorem listing_configure
    (configured : (configure config).run
      ((Debugger.initial config.settings).start.2, .initial config.continueWith) = (.ok (), s')) :
    Listing config config.breakpoints s' ∧ s'.1.catchpoint = config.catchpoint := by
  have new : Listing config [] ((Debugger.initial config.settings).start.2, .initial config.continueWith) :=
    ⟨⟨[], rfl, nofun⟩, rfl, rfl, rfl, rfl, rfl⟩
  unfold configure at configured
  rw [bind_eq] at configured
  rcases adds : (config.breakpoints.forM addBreakpoint : Recording PUnit).run _ with ⟨_ | ⟨⟩, d, r⟩
  · rw [adds] at configured
    cases configured
  · have listing := listing_forM new adds
    obtain ⟨registry, active, are⟩ := listing.session
    have sets : d.setCatchpoint config.catchpoint = .ok { d with catchpoint := config.catchpoint } := by
      unfold Debugger.setCatchpoint Debugger.activeSession
      rw [active]
      rfl
    have run : (ofRun (Run.perform fun d => d.setCatchpoint config.catchpoint)).run (d, r) =
        (.ok (), { d with catchpoint := config.catchpoint }, r) := by
      rw [run_ofRun, Run.perform_eq, sets]
      rfl
    rw [adds] at configured
    dsimp only at configured
    rw [run] at configured
    cases configured
    refine ⟨⟨⟨registry, active, are⟩, ?_, ?_, ?_, ?_, listing.unrecorded⟩, rfl⟩
    exacts [listing.count, listing.host, listing.unseen, listing.unkept]

/-! ## The threads -/

theorem calm_declare {d : Debugger} {r : Recorder} (listing : Listing config config.breakpoints (d, r))
    (catchpoint : d.catchpoint = config.catchpoint) :
    Calm config program ({ d with host := d.host.declare program }, r) := by
  obtain ⟨registry, active, are⟩ := listing.session
  have active : d.session = some { Debugger.newSession with registry } := active
  have host : d.host = .initial := listing.host
  have unseen (id : ContextId) : d.context id = .initial default 0 false := by
    have empty : d.contexts = #[] := listing.unseen
    exact Debugger.context_unknown (by rw [empty]; exact Nat.zero_le id)
  have untracked (thread : Thread) : d.contextOf? thread = none := by
    rw [Debugger.contextOf?, active]
    rfl
  refine ⟨⟨⟨fun is => ?_, catchpoint, by rw [host]⟩, ⟨fun is => ?_, fun is stored => ?_⟩, fun {thread _} found => ?_,
    ⟨fun id => ?_, fun entry member => ?_⟩⟩, fun ticket is => ?_, ?_⟩
  · cases active.symm.trans is
    exact are
  · cases active.symm.trans is
    intro _ _ recent
    cases recent
  · cases active.symm.trans is
    cases stored
  · cases (untracked thread).symm.trans found
  · exact (unseen id).symm ▸ Context.plain_initial _ _ _
  · cases listing.unkept ▸ member
  · cases (congrArg (Option.map _) active).symm.trans is
    rfl
  · exact congrArg (·.announced) listing.unrecorded

theorem calm_spawnThreads (system : Nat) (decls : List ThreadDecl) {d : Debugger} {r : Recorder}
    (h : Calm config program (d, r)) :
    let spawned := (spawnThreads system decls : Run Recorder (List (ReplayThread Error))) (d, r)
    Calm config program spawned.2 ∧ spawned.2.2 = r := by
  induction decls generalizing system d with
  | nil => exact ⟨h, rfl⟩
  | cons decl decls ih =>
      have parents : (d.host.spawn decl).2.parents = d.host.parents := by
        simp only [Host.spawn]
        split <;> rfl
      rw [spawnThreads_cons]
      exact ih (system + 1) (h.withHost parents)

theorem calm_prepareThread (index : Nat) (thread : Thread) {d : Debugger} {r : Recorder}
    (h : Calm config program (d, r)) :
    let prepared := prepareThread config program index thread (d, r)
    Calm config program prepared.2 ∧ prepared.2.2 = r := by
  unfold prepareThread
  cases config.step with
  | none => exact ⟨h, rfl⟩
  | some steps =>
      dsimp only
      split
      · rw [Run.perform_eq]
        split
        · exact ⟨h, rfl⟩
        · next d' commanded =>
            obtain ⟨⟨id, tracked⟩, found, stepped⟩ := except_bind_eq_ok commanded
            obtain ⟨session, active, found⟩ := except_bind_eq_ok found
            have active := Debugger.activeSession_eq_ok active
            split at found
            · have equipped := h.equipped.track active thread
              have ticket := Debugger.ticket_track active thread
              rw [Except.ok.inj found] at equipped ticket
              have tends : Debugger.Tends 0 tracked d' :=
                Debugger.tends_command (Debugger.core_step steps false) stepped
              have same : d'.ticket = d.ticket := tends.ticket.trans ticket
              exact ⟨⟨equipped.step stepped, fun other is => h.free other (same ▸ is), h.settled⟩, rfl⟩
            · cases found
      · exact ⟨h, rfl⟩

theorem calm_prepareThreads (index : Nat) (threads : List (ReplayThread Error)) {d : Debugger} {r : Recorder}
    (h : Calm config program (d, r)) :
    let prepared := prepareThreads (prepareThread config program) index threads (d, r)
    Calm config program prepared.2 ∧ prepared.2.2 = r := by
  induction threads generalizing index d with
  | nil => exact ⟨h, rfl⟩
  | cons t ts ih =>
      obtain ⟨calm, unrecorded⟩ := calm_prepareThread index t.thread h
      unfold prepareThreads
      rw [run_bind_eq]
      generalize prepareThread config program index t.thread (d, r) = prepared at calm unrecorded ⊢
      obtain ⟨_ | _, d', r'⟩ := prepared
      · exact ⟨calm, unrecorded⟩
      · cases unrecorded
        exact ih (index + 1) calm

theorem calm_prepared (single : program.threads.length ≤ 1) {p : Replaying}
    (prepared : Replaying.prepared config program = .ok p) :
    Calm config program (p.debugger, p.recorder) ∧ Spawned p.threads p.debugger ∧ p.recorder.records = #[] := by
  unfold Replaying.prepared at prepared
  split at prepared
  · cases prepared
  · next s configured =>
      obtain ⟨d, r⟩ := s
      obtain ⟨listing, catchpoint⟩ := listing_configure configured
      have declared : Calm config program ({ d with host := d.host.declare program }, r) :=
        calm_declare listing catchpoint
      have tended : ({ d with host := d.host.declare program } : Debugger).Tended ∧
          (d.host.declare program).Fresh 1 := by
        obtain ⟨registry, active, -⟩ := listing.session
        refine ⟨fun table is => ?_, ?_⟩
        · cases (congrArg (Option.map (·.table)) active).symm.trans is
          exact ⟨nofun, nofun⟩
        · rw [show d.host = .initial from listing.host]
          exact (Host.fresh_declare program).1
      obtain ⟨calm, unrecorded⟩ := calm_spawnThreads 1 program.threads declared
      have spawned := (blind_spawnThreads single).holds tended r
      unfold spawn at prepared
      dsimp only at prepared
      generalize (spawnThreads 1 program.threads : Run Recorder (List (ReplayThread Error)))
        ({ d with host := d.host.declare program }, r) = x at prepared calm unrecorded spawned
      obtain ⟨threads, d', r'⟩ := x
      obtain ⟨calm', unrecorded'⟩ := calm_prepareThreads 0 threads calm
      have spawned' := (blind_prepareThreads config program threads 0 threads).holds spawned r'
      generalize prepareThreads (prepareThread config program) 0 threads (d', r') = y
        at prepared calm' unrecorded' spawned'
      obtain ⟨_ | _, d'', r''⟩ := y
      · cases prepared
      · cases prepared
        refine ⟨calm', spawned', ?_⟩
        have same : r'' = .initial config.continueWith := (unrecorded'.trans unrecorded).trans listing.unrecorded
        rw [same]
        rfl

end Recording

/-! ## The moves of a replay -/

namespace Replaying

variable {p : Replaying} {t : ReplayThread Error}

theorem move_single (only : p.threads = [t]) :
    let moved := t.step Recorder.frontEnd (p.debugger, p.recorder)
    p.move 0 = ⟨[moved.1], moved.2.1, moved.2.2⟩ := by
  unfold move
  rw [only]
  rfl

theorem run_replicate_succ (p : Replaying) (n : Nat) :
    p.run (List.replicate (n + 1) 0) = (p.run (List.replicate n 0)).move 0 := by
  unfold run
  rw [List.replicate_succ', List.foldl_append]
  rfl

theorem run_replicate_add (p : Replaying) (m n : Nat) :
    p.run (List.replicate (m + n) 0) = (p.run (List.replicate m 0)).run (List.replicate n 0) := by
  unfold run
  rw [List.replicate_add, List.foldl_append]

theorem advance_run (only : p.threads = [t]) (n : Nat) :
    let moved := t.advance Recorder.frontEnd n (p.debugger, p.recorder)
    ∃ k, p.run (List.replicate k 0) = ⟨[moved.1], moved.2.1, moved.2.2⟩ := by
  have stays : p.run (List.replicate 0 0) = ⟨[t], p.debugger, p.recorder⟩ := by
    rw [← only]
    rfl
  induction n generalizing p t with
  | zero => exact ⟨0, stays⟩
  | succ n ih =>
      cases able : t.canMove p.debugger with
      | false =>
          rw [advance_of_not_canMove Recorder.frontEnd able]
          exact ⟨0, stays⟩
      | true =>
          have moved := move_single only
          have only' : (p.move 0).threads = [(t.step Recorder.frontEnd (p.debugger, p.recorder)).1] := by rw [moved]
          obtain ⟨k, runs⟩ := ih only' (by rw [← only']; rfl)
          refine ⟨1 + k, ?_⟩
          rw [run_replicate_add]
          change (p.move 0).run _ = _
          rw [runs, advance_succ Recorder.frontEnd able, moved]

theorem replayRound_single (t : ReplayThread Error) (s : Debugger × Recorder) :
    let moved := t.advance Recorder.frontEnd t.movesLeft s
    ∃ error, replayRound Recorder.frontEnd [t] s = ((error, [moved.1]), moved.2) := ⟨_, rfl⟩

theorem rounds_run (single : p.threads.length ≤ 1) (n : Nat) :
    ∃ k, (replayRounds Recorder.frontEnd n p.threads (p.debugger, p.recorder)).2 =
      ((p.run (List.replicate k 0)).debugger, (p.run (List.replicate k 0)).recorder) := by
  induction n generalizing p with
  | zero => exact ⟨0, rfl⟩
  | succ n ih =>
      change ∃ k, ((if p.threads.any fun t => t.canMove p.debugger then _ else _ :
        Run Recorder (Option (HookError Error))) (p.debugger, p.recorder)).2 = _
      split
      · next able =>
          obtain ⟨t, only⟩ : ∃ t, p.threads = [t] := by
            cases threads : p.threads with
            | nil =>
                rw [threads] at able
                cases able
            | cons t ts =>
                rw [threads, List.length_cons] at single
                exact ⟨t, by rw [List.length_eq_zero_iff.mp (Nat.le_zero.mp (Nat.le_of_succ_le_succ single))]⟩
          obtain ⟨k, runs⟩ := advance_run only t.movesLeft
          obtain ⟨error, round⟩ := replayRound_single t (p.debugger, p.recorder)
          generalize t.advance Recorder.frontEnd t.movesLeft (p.debugger, p.recorder) = moved at runs round
          obtain ⟨k', later⟩ := ih (p := ⟨[moved.1], moved.2.1, moved.2.2⟩) (Nat.le_refl 1)
          refine ⟨k + k', ?_⟩
          rw [run_bind_eq, only, round, run_replicate_add, runs]
          exact later
      · exact ⟨0, rfl⟩

theorem replayed_run (single : p.threads.length ≤ 1) :
    ∃ k, p.replayed.2 = ((p.run (List.replicate k 0)).debugger, (p.run (List.replicate k 0)).recorder) :=
  rounds_run single _

end Replaying

/-! ## What accounts for the halts -/

def ReplayThread.HasExited (t : ReplayThread Error) : Prop := ∃ result, t.phase = .exited result

theorem Replaying.exited_of_only {p : Replaying} {t : ReplayThread Error} (only : p.threads = [t])
    (exited : t.HasExited) : p.Exited 0 := by
  obtain ⟨result, exited⟩ := exited
  exact ⟨t, result, by rw [only]; rfl, exited⟩

namespace Recording

variable {config : Config} {program : Program}

/-- The move of a single thread that adds the record at a position, with its event and the variables at that time. -/
inductive Occasion (config : Config) (program : Program) (index : Nat) (event : Event) (scopes : Scopes) : Prop where
  | intro (p : Replaying) (n : Nat) (t : ReplayThread Error) (prepared : Replaying.prepared config program = .ok p)
      (only : (p.run (List.replicate n 0)).threads = [t])
      (notifies : t.Notifies (p.run (List.replicate n 0)).debugger event scopes)
      (before : (p.run (List.replicate n 0)).recorder.records.size ≤ index)
      (after : index < (p.run (List.replicate (n + 1) 0)).recorder.records.size)

def Explained (config : Config) (program : Program) (index : Nat) (halt : HaltRecord) : Prop :=
  ∃ event scopes, Occasion config program index event scopes ∧ halt.DueTo config program scopes event

structure Accounted (config : Config) (program : Program) (q : Replaying) : Prop where
  single : q.threads.length ≤ 1
  ready : ∀ t ∈ q.threads, t.HasExited ∨ Calm config program (q.debugger, q.recorder) ∧ t.Alone q.debugger ∧ ¬ t.Waits
  halts : ∀ {j halt}, q.recorder.records[j]? = some (.halt halt) → Explained config program j halt ∨
    halt.OfPostMortem ∧ j + 1 = q.recorder.records.size ∧ ∀ t ∈ q.threads, t.HasExited

theorem accounted_prepared (single : program.threads.length ≤ 1) {p : Replaying}
    (prepared : Replaying.prepared config program = .ok p) : Accounted config program p := by
  obtain ⟨calm, spawned, unrecorded⟩ := calm_prepared single prepared
  refine ⟨spawned.1, fun t member => .inr ⟨calm, spawned.solitary.2 t member, ?_⟩, fun is => ?_⟩
  · unfold ReplayThread.Waits
    rw [(spawned.2.2 t member).1]
    exact id
  · rw [unrecorded] at is
    cases is

theorem Accounted.moved {p : Replaying} {n : Nat} {t : ReplayThread Error}
    (h : Accounted config program (p.run (List.replicate n 0)))
    (prepared : Replaying.prepared config program = .ok p) (only : (p.run (List.replicate n 0)).threads = [t])
    (goes : ¬ t.HasExited) : Accounted config program (p.run (List.replicate (n + 1) 0)) := by
  have occasion {j : Nat} {event : Event} {scopes : Scopes}
      (notifies : t.Notifies (p.run (List.replicate n 0)).debugger event scopes)
      (before : (p.run (List.replicate n 0)).recorder.records.size ≤ j)
      (after : j < (p.run (List.replicate (n + 1) 0)).recorder.records.size) :
      Occasion config program j event scopes := .intro p n t prepared only notifies before after
  rw [Replaying.run_replicate_succ] at occasion ⊢
  generalize p.run (List.replicate n 0) = q at h only occasion ⊢
  have here : t ∈ q.threads := only ▸ List.mem_singleton_self t
  obtain ⟨calm, alone, steady⟩ := (h.ready t here).resolve_left goes
  have alone' := t.blind_step.holds alone q.recorder
  have attributed := ReplayThread.attributed_step calm alone steady
  have old {j : Nat} {halt : HaltRecord} (is : q.recorder.records[j]? = some (.halt halt)) :
      Explained config program j halt := (h.halts is).resolve_right fun dead => goes (dead.2.2 t here)
  rw [Replaying.move_single only] at occasion ⊢
  generalize t.step Recorder.frontEnd (q.debugger, q.recorder) = moved at alone' attributed occasion ⊢
  refine ⟨Nat.le_refl 1, fun t' member => ?_, fun {j halt} is => ?_⟩
  · rw [List.mem_singleton.mp member]
    cases attributed with
    | calm steady' calm' _ => exact .inr ⟨calm', alone', steady'⟩
    | ended exited _ => exact .inl exited
  · have inside := (Array.getElem?_eq_some_iff.mp is).1
    cases attributed with
    | calm _ _ gains =>
        obtain ⟨new, added, due⟩ := gains
        left
        rw [← Array.getElem?_toList, added] at is
        by_cases before : j < q.recorder.records.toList.length
        · rw [List.getElem?_append_left before, Array.getElem?_toList] at is
          exact old is
        · rw [List.getElem?_append_right (Nat.le_of_not_lt before)] at is
          obtain ⟨event, scopes, notifies, due⟩ := due (List.mem_of_getElem? is)
          exact ⟨event, scopes, occasion notifies (Nat.le_of_not_lt before) inside, due⟩
    | ended exited records =>
        rcases records with same | ⟨last, dead, pushed⟩
        · rw [same] at is
          exact .inl (old is)
        · rw [pushed, Array.getElem?_push] at is
          split at is
          · next same =>
              cases is
              refine .inr ⟨dead, ?_, fun t' member => List.mem_singleton.mp member ▸ exited⟩
              rw [same, pushed, Array.size_push]
          · exact .inl (old is)

theorem accounted_run (single : program.threads.length ≤ 1) {p : Replaying}
    (prepared : Replaying.prepared config program = .ok p) (n : Nat) :
    Accounted config program (p.run (List.replicate n 0)) := by
  induction n with
  | zero => exact accounted_prepared single prepared
  | succ n ih =>
      have stays (same : (p.run (List.replicate n 0)).move 0 = p.run (List.replicate n 0)) :
          Accounted config program (p.run (List.replicate (n + 1) 0)) := by
        rw [Replaying.run_replicate_succ, same]
        exact ih
      cases threads : (p.run (List.replicate n 0)).threads with
      | nil => exact stays (Replaying.move_of_none (by rw [threads]; rfl))
      | cons t ts =>
          have only : (p.run (List.replicate n 0)).threads = [t] := by
            have single := ih.single
            rw [threads, List.length_cons] at single
            rw [threads, List.length_eq_zero_iff.mp (Nat.le_zero.mp (Nat.le_of_succ_le_succ single))]
          by_cases exited : t.HasExited
          · exact stays (Replaying.move_of_exited (Replaying.exited_of_only only exited))
          · exact ih.moved prepared only exited

end Recording

end EventDebugger
