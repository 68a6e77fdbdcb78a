import EventDebugger.Proofs.Schedule.Preparation

/-!
# Programs of one thread

A program is recorded by preparing its threads and letting them move in rounds. A single thread that
never waits exits in the first round.

* `Recording.records_eq`: the preparation and the rounds of any program.
* `Replaying.replayed_single`: the moves of a single thread.
-/

namespace EventDebugger

def Replaying.replayed (p : Replaying) : Option (HookError Error) × Debugger × Recorder :=
  replayRounds Recorder.frontEnd (p.threads.foldl (fun n t => n + t.movesLeft) 1) p.threads
    (p.debugger, p.recorder)

namespace Recording

variable (config : Config) (program : Program) (s : Debugger × Recorder)

theorem run_lift {α : Type} (x : Run Recorder α) :
    (liftM x : Recording α).run s = (.ok (x s).1, (x s).2) := rfl

theorem replay_eq : (replay config program).run s =
    match (configure config).run s with
    | (.error error, s) => (.error error, s)
    | (.ok (), s) =>
        let replayed := EventDebugger.replay Recorder.frontEnd 1 program (prepareThread config program) s
        (replayed.1.mapError RecordingError.ofHook, replayed.2) := by
  unfold replay configure
  simp only [bind_eq]
  rcases (config.breakpoints.forM addBreakpoint : Recording PUnit).run s with ⟨_ | _, s'⟩
  · rfl
  dsimp only
  rcases (ofRun (Run.perform fun d => d.setCatchpoint config.catchpoint)).run s' with ⟨_ | _, s''⟩
  · rfl
  dsimp only
  rw [run_lift]
  dsimp only
  generalize EventDebugger.replay Recorder.frontEnd 1 program (prepareThread config program) s'' = replayed
  rcases replayed with ⟨_ | _, _⟩ <;> rfl

theorem replay_spawn :
    match spawn config program s with
    | (.error error, _) =>
        (EventDebugger.replay Recorder.frontEnd 1 program (prepareThread config program) s).1 =
          .error (.debugger error)
    | (.ok threads, d, r) =>
        let replayed := Replaying.replayed ⟨threads, d, r⟩
        EventDebugger.replay Recorder.frontEnd 1 program (prepareThread config program) s =
          (replayed.1.elim (.ok ()) .error, replayed.2) := by
  unfold spawn EventDebugger.replay
  simp only [run_bind_eq, Run.onDebugger]
  generalize (spawnThreads 1 program.threads : Run Recorder (List (ReplayThread Error)))
    ({ s.1 with host := s.1.host.declare program }, s.2) = spawned
  obtain ⟨threads, d, r⟩ := spawned
  dsimp only
  rcases prepareThreads (prepareThread config program) 0 threads (d, r) with ⟨_ | _, d', r'⟩
  · rfl
  dsimp only [Replaying.replayed]
  rw [run_bind_eq]
  rcases replayRounds Recorder.frontEnd _ threads (d', r') with ⟨_ | _, _⟩ <;> rfl

theorem records_eq : records config program =
    match Replaying.prepared config program with
    | .error error => .error error
    | .ok p => p.replayed.1.elim (.ok p.replayed.2.2.records.toList) (.error ∘ .ofHook) := by
  have stopped (s : Debugger × Recorder) : (Run.attempt Debugger.stop s).2.2 = s.2 := by
    unfold Run.attempt Run.onDebugger
    rcases s.1.stop with _ | ⟨_, _⟩ <;> rfl
  have started : records config program =
      let replayed := (replay config program).run
        ((Debugger.initial config.settings).start.2, .initial config.continueWith)
      replayed.1.map fun () => replayed.2.2.records.toList := by
    unfold records runStarted
    simp only [StateT.run, run_bind_eq]
    rw [← stopped]
    rfl
  rw [started, replay_eq]
  unfold Replaying.prepared
  rcases (configure config).run _ with ⟨_ | _, s⟩
  · rfl
  have replayed := replay_spawn config program s
  dsimp only
  cases spawned : spawn config program s with
  | mk result s' =>
      rw [spawned] at replayed
      cases result with
      | error error =>
          dsimp only at replayed ⊢
          rw [replayed]
          rfl
      | ok threads =>
          dsimp only at replayed ⊢
          rw [replayed]
          rcases Replaying.replayed ⟨threads, s'.1, s'.2⟩ with ⟨_ | _, _⟩ <;> rfl

end Recording

/-! ## The moves of a single thread -/

section Advance

variable {σ ε : Type} (front : FrontEnd σ ε)

theorem advance_exited {t : ReplayThread ε} {result : HookResult ε} (exited : t.phase = .exited result)
    (n : Nat) (s : Debugger × σ) : t.advance front n s = (t, s) := by
  obtain ⟨thread, system, steps, phase⟩ := t
  obtain rfl : phase = .exited result := exited
  cases n <;> rfl

theorem advance_succ {t : ReplayThread ε} {s : Debugger × σ} (able : t.canMove s.1 = true) (n : Nat) :
    t.advance front (n + 1) s = (t.step front s).1.advance front n (t.step front s).2 := by
  change (if t.canMove s.1 then _ else _ : Run σ (ReplayThread ε)) s = _
  rw [if_pos able]
  rfl

theorem advance_of_not_canMove {t : ReplayThread ε} {s : Debugger × σ} (unable : t.canMove s.1 = false)
    (n : Nat) : t.advance front (n + 1) s = (t, s) := by
  change (if t.canMove s.1 then _ else _ : Run σ (ReplayThread ε)) s = _
  rw [unable]
  rfl

end Advance

theorem Replaying.replayed_single {p : Replaying} {t moved : ReplayThread Error} (single : p.threads = [t])
    (starting : t.phase = .starting) {result : HookResult Error} {s : Debugger × Recorder}
    (advanced : t.advance Recorder.frontEnd t.movesLeft (p.debugger, p.recorder) = (moved, s))
    (exited : moved.phase = .exited result) : p.replayed = (moved.error?, s) := by
  have able : t.canMove p.debugger = true := by
    unfold ReplayThread.canMove
    rw [starting]
  have fresh : t.error? = none := by
    unfold ReplayThread.error?
    rw [starting]
  have later (n : Nat) : replayRounds Recorder.frontEnd n [moved] s = (none, s) := by
    cases n with
    | zero => rfl
    | succ n =>
        change (if [moved].any fun t => t.canMove s.1 then _ else _ :
          Run Recorder (Option (HookError Error))) s = _
        rw [if_neg]
        · rfl
        · simp [ReplayThread.canMove, exited]
  have round : replayRound Recorder.frontEnd [t] (p.debugger, p.recorder) = ((moved.error?, [moved]), s) := by
    unfold replayRound
    have alone : replayRound Recorder.frontEnd ([] : List (ReplayThread Error)) s = ((none, []), s) := rfl
    -- The thread that moved was the only one, and had no error before.
    rw [run_bind_eq, advanced, run_bind_eq]
    dsimp only
    rw [alone, fresh]
    change ((moved.error?.or none, [moved]), s) = _
    rw [Option.or_none]
  unfold replayed
  rw [single]
  change replayRounds Recorder.frontEnd (1 + t.movesLeft) [t] (p.debugger, p.recorder) = _
  rw [Nat.add_comm]
  change (if [t].any fun t => t.canMove p.debugger then _ else _ :
    Run Recorder (Option (HookError Error))) (p.debugger, p.recorder) = _
  rw [if_pos (by simp [able]), run_bind_eq, round]
  dsimp only
  rw [run_bind_eq, later]
  change (moved.error?.or none, s) = _
  rw [Option.or_none]

end EventDebugger
