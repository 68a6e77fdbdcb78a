import EventDebugger.Proofs.Production.Places
import EventDebugger.Proofs.Production.Replaying

/-!
# Nothing is left behind

When a call that runs a program returns, each thread that it spawned has exited and runs on no system
thread, whatever failed on the way. An error ends its own thread only, and the first one that was
reported is what the call returns.

* `Production.Known.step`: what each step keeps.
* `Production.nothing_left_behind`: what is known when the call returns.
-/

namespace EventDebugger

variable {ε : Type}

namespace Production

variable {p p' : Production ε} {s s' : Nat} {player player' q : Player ε} {d : Debugger}

/-! ## The call -/

/-- Threads start after all were prepared, and none is abandoned then. The call returns when all of its
threads are through. -/
def Cued (p : Production ε) : Prop :=
  match p.call with
  | .declaring _ _ | .spawning _ _ | .preparing _ =>
      ∀ s player, p.players s = some player → player.phase = .starting
  | .abandoning _ left => ∀ s player, p.players s = some player →
      player.phase = .abandoned ∨ player.phase = .starting ∧ s ∈ left
  | .refused _ => ∀ s player, p.players s = some player → player.phase = .abandoned
  | .joining => ∀ s player, p.players s = some player → player.phase ≠ .abandoned
  | .finished result => result = p.outcome ∧
      ∀ s player, p.players s = some player → ∃ result, player.phase = .gone result

theorem Cued.joining (cued : p.Cued) (is : p.players s = some player)
    (moves : player.phase ≠ .starting ∧ player.phase ≠ .abandoned ∧ ∀ result, player.phase ≠ .gone result) :
    p.call = .joining := by
  obtain ⟨started, kept, present⟩ := moves
  rw [Cued] at cued
  split at cued
  · exact absurd (cued s player is) started
  · exact absurd (cued s player is) started
  · exact absurd (cued s player is) started
  · rcases cued s player is with abandoned | ⟨starting, -⟩
    · exact absurd abandoned kept
    · exact absurd starting started
  · exact absurd (cued s player is) kept
  · assumption
  · obtain ⟨result, gone⟩ := cued.2 s player is
    exact absurd gone (present result)

theorem Cued.move (cued : p.Cued) (joining : p.call = .joining) (kept : player.phase ≠ .abandoned) :
    (p.move s player d).Cued := by
  have call : (p.move s player d).call = .joining := joining
  rw [Cued, joining] at cued
  rw [Cued, call]
  intro s' q is
  rcases players_move is with ⟨-, rfl⟩ | ⟨-, is⟩
  · exact kept
  · exact cued s' q is

theorem Cued.step (cued : p.Cued) (sound : p.Sound) (step : p.Step p') : p'.Cued := by
  cases step with
  | declare call | spawned call | prepare call =>
      rw [Cued, call] at cued
      exact cued
  | @spawn system decl decls call =>
      rw [Cued, call] at cued
      intro s player is
      rcases players_move (d := p.debugger) is with ⟨-, rfl⟩ | ⟨-, is⟩
      · rfl
      · exact cued s player is
  | refuse error call =>
      rw [Cued, call] at cued
      exact fun s player is => .inr ⟨cued s player is, sound.enrolled is⟩
  | @abandon error s left player call is =>
      rw [Cued, call] at cued
      intro s' q is'
      rcases players_move (d := p.debugger) is' with ⟨-, rfl⟩ | ⟨ne, is'⟩
      · exact .inl rfl
      · refine (cued s' q is').imp_right fun ⟨starting, member⟩ => ⟨starting, ?_⟩
        exact (List.mem_cons.mp member).resolve_left ne
  | refused call =>
      rw [Cued, call] at cued
      intro s player is
      exact (cued s player is).resolve_right fun ⟨_, member⟩ => nomatch member
  | launch call =>
      rw [Cued, call] at cued
      intro s player is abandoned
      cases (cued s player is).symm.trans abandoned
  | start call is phase => exact cued.move call nofun
  | act is act =>
      obtain ⟨player', d, rfl, goes, -⟩ := act.goes
      exact cued.move (cued.joining is (Player.OnStage.moves goes.onStage)) (Player.OnStage.moves goes.onStage').2.1
  | exit is phase =>
      refine cued.move (cued.joining is ?_) nofun
      rw [phase]
      exact ⟨nofun, nofun, nofun⟩
  | @report s player result is phase =>
      have joining : p.call = .joining := by
        refine cued.joining is ?_
        rw [phase]
        exact ⟨nofun, nofun, nofun⟩
      have moved : (p.move s (player.become (.gone result)) p.debugger).Cued := cued.move joining nofun
      have call : (p.move s (player.become (.gone result)) p.debugger).call = .joining := joining
      have call' : (p.report s player result).call = .joining := joining
      rw [Cued, call] at moved
      rw [Cued, call']
      exact moved
  | join call through =>
      refine ⟨rfl, fun s player is => ?_⟩
      obtain ⟨player', result, is', gone⟩ := through s (sound.enrolled is)
      cases is.symm.trans is'
      exact ⟨result, gone⟩
  | meddle drifts => exact cued

theorem Sound.step (sound : p.Sound) (cued : p.Cued) (step : p.Step p') : p'.Sound := by
  cases step with
  | declare call => exact sound.drift rfl rfl (sameThreads_declare _ _).drifts
  | spawn call => exact sound.spawn _ _ _
  | spawned | prepare | refuse | refused | launch | join => exact sound.drift rfl rfl .refl
  | @abandon error s left player call is =>
      rw [Cued, call] at cued
      have idle : player.phase = .starting ∨ player.phase = .abandoned :=
        (cued s player is).symm.imp_left And.left
      exact (sound.abandon is idle).drift rfl rfl .refl
  | start call is phase => exact sound.start is phase
  | act is act =>
      obtain ⟨player', d, rfl, goes, drifts⟩ := act.goes
      exact sound.goes is goes drifts
  | exit is phase => exact sound.exit_of_ending is phase
  | report is phase => exact sound.report is phase
  | meddle drifts => exact sound.drift rfl rfl drifts

/-! ## The first error -/

structure Kept (p : Production ε) : Prop where
  reported : ∀ {error}, p.first = some error →
    ∃ s player, p.players s = some player ∧ player.phase = .gone (.error error)
  heard : ∀ {s player error}, p.players s = some player → player.phase = .gone (.error error) →
    p.first.isSome

theorem Kept.move (kept : p.Kept) (is : ∀ player, p.players s = some player → ∀ result, player.phase ≠ .gone result)
    (present : ∀ result, player.phase ≠ .gone result) : (p.move s player d).Kept := by
  refine ⟨fun first => ?_, fun is' gone => ?_⟩
  · obtain ⟨s', q, is', gone⟩ := kept.reported first
    refine ⟨s', q, ?_, gone⟩
    rw [players_move_ne]
    · exact is'
    · rintro rfl
      exact is q is' _ gone
  · rcases players_move is' with ⟨-, rfl⟩ | ⟨-, is'⟩
    · exact absurd gone (present _)
    · exact kept.heard is' gone

theorem Kept.move_of (kept : p.Kept) (is : p.players s = some player)
    (here : ∀ result, player.phase ≠ .gone result) (present : ∀ result, player'.phase ≠ .gone result) :
    (p.move s player' d).Kept := by
  refine kept.move (fun q is' => ?_) present
  cases is.symm.trans is'
  exact here

theorem Kept.congr (kept : p.Kept) (players : p'.players = p.players) (first : p'.first = p.first) :
    p'.Kept := by
  refine ⟨fun is => ?_, fun is gone => ?_⟩
  · rw [first] at is
    rw [players]
    exact kept.reported is
  · rw [players] at is
    rw [first]
    exact kept.heard is gone

theorem Kept.report (kept : p.Kept) (is : p.players s = some player) {result : HookResult ε}
    (phase : player.phase = .exited result) : (p.report s player result).Kept := by
  have here : ∀ result, player.phase ≠ .gone result := by
    rw [phase]
    exact nofun
  refine ⟨fun {error} first => ?_, fun {s' q error} is' gone => ?_⟩
  · rcases Option.or_eq_some_iff.mp first with first | ⟨-, own⟩
    · obtain ⟨s', q, is', gone⟩ := kept.reported first
      refine ⟨s', q, ?_, gone⟩
      have ne : s' ≠ s := by
        rintro rfl
        cases is.symm.trans is'
        exact here _ gone
      exact (players_move_ne (d := p.debugger) ne).trans is'
    · refine ⟨s, player.become (.gone result), players_move_self (d := p.debugger), ?_⟩
      cases result with
      | ok => cases own
      | error error => cases own; rfl
  · change (p.first.or _).isSome
    rw [Option.isSome_or]
    rcases players_move (d := p.debugger) is' with ⟨-, rfl⟩ | ⟨-, is'⟩
    · cases gone
      simp [Player.errorOf]
    · rw [kept.heard is' gone, Bool.true_or]

theorem Kept.step (kept : p.Kept) (cued : p.Cued) (step : p.Step p') : p'.Kept := by
  cases step with
  | declare | spawned | prepare | refuse | refused | launch | join | meddle => exact kept.congr rfl rfl
  | @spawn system decl decls call =>
      rw [Cued, call] at cued
      have moved : (p.move system ⟨(p.debugger.host.spawn decl).1, decl.steps, [], .starting⟩
          p.debugger).Kept :=
        kept.move (fun q is result gone => by cases (cued system q is).symm.trans gone) nofun
      exact moved.congr rfl rfl
  | @abandon error s left player call is =>
      rw [Cued, call] at cued
      have moved : (p.exit s player .abandoned).Kept := by
        refine kept.move_of is (fun result gone => ?_) nofun
        rcases cued s player is with abandoned | ⟨starting, -⟩
        · cases abandoned.symm.trans gone
        · cases starting.symm.trans gone
      exact moved.congr rfl rfl
  | start call is phase =>
      refine kept.move_of is ?_ nofun
      rw [phase]
      exact nofun
  | act is act =>
      obtain ⟨player', d, rfl, goes, -⟩ := act.goes
      exact kept.move_of is (Player.OnStage.moves goes.onStage).2.2 (Player.OnStage.moves goes.onStage').2.2
  | exit is phase =>
      refine kept.move_of is ?_ nofun
      rw [phase]
      exact nofun
  | report is phase => exact kept.report is phase

/-! ## The threads of the program -/

/-- The threads with these declarations run on the system threads from `system` on. -/
def Enacts (p : Production ε) (system : Nat) (decls : List ThreadDecl) : Prop :=
  ∀ i decl, decls[i]? = some decl → ∃ player, p.players (system + i) = some player ∧
    player.thread.name = decl.name ∧ player.steps = decl.steps

def Billed (system : Nat) (program : Program) (p : Production ε) : Prop :=
  match p.call with
  | .declaring s declared => s = system ∧ declared = program
  | .spawning next decls => ∃ done, program.threads = done ++ decls ∧ next = system + done.length ∧
      p.Enacts system done
  | _ => p.Enacts system program.threads

variable {system : Nat} {program : Program} {decls : List ThreadDecl}

theorem Enacts.move (enacts : p.Enacts system decls) (is : p.players s = some player)
    (thread : player'.thread = player.thread) (steps : player'.steps = player.steps) :
    (p.move s player' d).Enacts system decls := by
  intro i decl declared
  obtain ⟨q, is', name, same⟩ := enacts i decl declared
  by_cases here : system + i = s
  · rw [here] at is' ⊢
    cases is.symm.trans is'
    exact ⟨player', players_move_self, thread ▸ name, steps ▸ same⟩
  · exact ⟨q, (players_move_ne here).trans is', name, same⟩

theorem Billed.move (billed : p.Billed system program) (joining : p.call = .joining)
    (is : p.players s = some player) (thread : player'.thread = player.thread)
    (steps : player'.steps = player.steps) : (p.move s player' d).Billed system program := by
  have call : (p.move s player' d).call = .joining := joining
  rw [Billed, joining] at billed
  rw [Billed, call]
  exact Enacts.move billed is thread steps

theorem Enacts.spawn {done : List ThreadDecl} (enacts : p.Enacts system done) (decl : ThreadDecl)
    (decls : List ThreadDecl) :
    (p.spawn (system + done.length) decl decls).Enacts system (done ++ [decl]) := by
  intro i decl' declared
  rcases Nat.lt_trichotomy i done.length with earlier | rfl | later
  · rw [List.getElem?_append_left earlier] at declared
    obtain ⟨q, is, same⟩ := enacts i decl' declared
    have ne : system + i ≠ system + done.length := by omega
    exact ⟨q, (players_move_ne (d := p.debugger) ne).trans is, same⟩
  · rw [List.getElem?_append_right (Nat.le_refl _), Nat.sub_self] at declared
    cases declared
    exact ⟨_, players_move_self (d := p.debugger), rfl, rfl⟩
  · rw [List.getElem?_eq_none (by simp; omega)] at declared
    cases declared

theorem Billed.step (billed : p.Billed system program) (cued : p.Cued) (step : p.Step p') :
    p'.Billed system program := by
  cases step with
  | declare call =>
      rw [Billed, call] at billed
      obtain ⟨rfl, rfl⟩ := billed
      exact ⟨[], rfl, rfl, nofun⟩
  | @spawn next decl decls call =>
      rw [Billed, call] at billed
      obtain ⟨done, threads, rfl, enacts⟩ := billed
      refine ⟨done ++ [decl], by rw [threads, List.append_assoc]; rfl, ?_, enacts.spawn decl decls⟩
      rw [List.length_append]
      rfl
  | spawned call =>
      rw [Billed, call] at billed
      obtain ⟨done, threads, -, enacts⟩ := billed
      rw [List.append_nil] at threads
      rw [← threads] at enacts
      exact enacts
  | prepare call | refuse _ call | refused call | launch call | join call =>
      rw [Billed, call] at billed
      exact billed
  | @abandon error s left player call is =>
      rw [Billed, call] at billed
      have moved : (p.exit s player .abandoned).Enacts system program.threads :=
        Enacts.move billed is rfl rfl
      exact moved
  | start call is => exact billed.move call is rfl rfl
  | act is act =>
      obtain ⟨player', d, rfl, goes, -⟩ := act.goes
      exact billed.move (cued.joining is (Player.OnStage.moves goes.onStage)) is goes.thread goes.steps
  | exit is phase =>
      refine billed.move (cued.joining is ?_) is rfl rfl
      rw [phase]
      exact ⟨nofun, nofun, nofun⟩
  | @report s player result is phase =>
      have joining : p.call = .joining := by
        refine cued.joining is ?_
        rw [phase]
        exact ⟨nofun, nofun, nofun⟩
      have moved : (p.move s (player.become (.gone result)) p.debugger).Billed system program :=
        billed.move joining is rfl rfl
      have call : (p.move s (player.become (.gone result)) p.debugger).call = .joining := joining
      have call' : (p.report s player result).call = .joining := joining
      rw [Billed, call] at moved
      rw [Billed, call']
      exact moved
  | meddle => exact billed

/-! ## The whole run -/

structure Known (system : Nat) (program : Program) (p : Production ε) : Prop where
  sound : p.Sound
  cued : p.Cued
  kept : p.Kept
  billed : p.Billed system program

theorem known_opening (listed : d.host.Listed) (registered : d.host.Registered) :
    (opening (ε := ε) d system program).Known system program := by
  have vacant {s : Nat} {player : Player ε} : (opening d system program).players s ≠ some player := nofun
  refine ⟨⟨listed, registered, ?_, ?_, ?_, ?_, ?_⟩, ?_, ⟨?_, ?_⟩, rfl, rfl⟩
  · exact fun is => absurd is vacant
  · exact fun is => absurd is vacant
  · exact fun is => absurd is vacant
  · exact fun is => absurd is vacant
  · exact fun is => absurd is vacant
  · exact fun s player is => absurd is vacant
  · intro error first
    cases first
  · exact fun is => absurd is vacant

theorem Known.step (known : p.Known system program) (step : p.Step p') : p'.Known system program where
  sound := known.sound.step known.cued step
  cued := known.cued.step known.sound step
  kept := known.kept.step known.cued step
  billed := known.billed.step known.cued step

theorem Reaches.known (run : Reaches p p') (known : p.Known system program) :
    p'.Known system program := by
  induction run with
  | refl => exact known
  | step _ next ih => exact ih.step next

theorem Cued.through (cued : p.Cued) {result : HookResult ε} (returned : p.call.result? = some result)
    (is : p.players s = some player) :
    player.phase = .abandoned ∨ ∃ result, player.phase = .gone result := by
  rw [Cued] at cued
  cases call : p.call <;> rw [call] at cued returned <;> try cases returned
  · exact .inl (cued s player is)
  · exact .inr (cued.2 s player is)

theorem Sound.over (sound : p.Sound) (is : p.players s = some player)
    (through : player.phase = .abandoned ∨ ∃ result, player.phase = .gone result) :
    p.debugger.host.Over player.thread := by
  have placed := sound.placed is
  rw [Player.Placed] at placed
  rcases through with abandoned | ⟨result, gone⟩
  · rwa [abandoned] at placed
  · rwa [gone] at placed

/-- What the threads of a program came to when all of them are through. -/
structure Settled (p : Production ε) (result : HookResult ε) : Prop where
  /-- The error that is returned is one of a thread. -/
  raised : ∀ error, result = .error error →
    ∃ s player, p.players s = some player ∧ error ∈ player.failures
  fails : (∃ error, result = .error error) ↔
    ∃ s player, p.players s = some player ∧ player.failures ≠ []
  /-- A thread does nothing after its first error. -/
  silent : ∀ s player, p.players s = some player → ∀ earlier deed later,
    player.deeds = earlier ++ deed :: later → deed.failure?.isSome → later = []
  /-- A thread without an error performs all of its actions. -/
  complete : ∀ s player, p.players s = some player → player.failures = [] →
    player.acted = player.actions

theorem Known.settled (known : p.Known system program) {result : HookResult ε}
    (call : p.call = .finished result) : p.Settled result := by
  obtain ⟨rfl, gone⟩ : result = p.outcome ∧
      ∀ s player, p.players s = some player → ∃ result, player.phase = .gone result := by
    have cued := known.cued
    rwa [Cued, call] at cued
  have comes {s : Nat} {player : Player ε} (is : p.players s = some player) {result : HookResult ε}
      (gone : player.phase = .gone result) : player.ComesTo result :=
    (known.sound.accounts is).result result (by rw [gone]; rfl)
  have raised (error : HookError ε) (returned : p.outcome = .error error) :
      ∃ s player, p.players s = some player ∧ error ∈ player.failures := by
    obtain first : p.first = some error := by
      rw [outcome] at returned
      cases first : p.first with
      | none =>
          rw [first] at returned
          cases returned
      | some other =>
          rw [first] at returned
          cases returned
          rfl
    obtain ⟨s, player, is, gone⟩ := known.kept.reported first
    refine ⟨s, player, is, ?_⟩
    rw [(comes is gone).failures_eq]
    exact List.mem_singleton_self error
  refine ⟨raised, ⟨?_, ?_⟩, ?_, ?_⟩
  · rintro ⟨error, returned⟩
    obtain ⟨s, player, is, member⟩ := raised error returned
    exact ⟨s, player, is, List.ne_nil_of_mem member⟩
  · rintro ⟨s, player, is, fails⟩
    obtain ⟨result, gone⟩ := gone s player is
    cases result with
    | ok => exact absurd (comes is gone).1 fails
    | error error =>
        obtain ⟨first, kept⟩ := Option.isSome_iff_exists.mp (known.kept.heard is gone)
        exact ⟨first, by rw [outcome, kept]; rfl⟩
  · intro s player is earlier deed later deeds fails
    obtain ⟨result, gone⟩ := gone s player is
    exact (comes is gone).silent deeds fails
  · intro s player is clean
    obtain ⟨result, gone⟩ := gone s player is
    cases result with
    | ok => exact (comes is gone).2
    | error error =>
        have failures := (comes is gone).failures_eq
        rw [clean] at failures
        cases failures

/-- However the threads of a program are interleaved, and wherever the front-end fails, when the call
returns each declared thread was spawned, each of them has exited, and none of them is the current thread
of a system thread. A preparation that fails is all that happens. Otherwise the call fails if a thread
failed, and no failure reaches beyond its own thread. -/
theorem nothing_left_behind {d : Debugger} {result : HookResult ε} (listed : d.host.Listed)
    (registered : d.host.Registered) (run : Reaches (opening d system program) p)
    (returned : p.call.result? = some result) :
    p.Enacts system program.threads ∧
    (∀ s player, p.players s = some player → p.debugger.host.isAlive player.thread = false ∧
      ∀ s', (p.debugger.host.currentThread s').1 ≠ player.thread) ∧
    ((∃ error, p.call = .refused error ∧ result = .error (.debugger error) ∧
        ∀ s player, p.players s = some player → player.deeds = []) ∨
      p.call = .finished result ∧ p.Settled result) := by
  have known := run.known (known_opening listed registered)
  refine ⟨?_, fun s player is => ?_, ?_⟩
  · have billed := known.billed
    rw [Billed] at billed
    cases call : p.call <;> rw [call] at billed returned <;> cases returned
    all_goals exact billed
  · have exited := known.sound.over is (known.cued.through returned is)
    exact ⟨exited.dead, exited.currentThread_ne (known.sound.known is)⟩
  · cases call : p.call <;> rw [call] at returned <;> cases returned
    · refine .inl ⟨_, rfl, rfl, fun s player is => ?_⟩
      have abandoned : player.phase = .abandoned := by
        have cued := known.cued
        rw [Cued, call] at cued
        exact cued s player is
      exact (known.sound.accounts is).outside (by rw [abandoned]; rfl) (by rw [abandoned]; rfl)
    · exact .inr ⟨rfl, known.settled call⟩

def touchy : FrontEnd Unit String
  | _, .tracing _ ⟨"b.rb", _⟩, s => (.error "stop", s)
  | _, _, s => (.ok (), s)

theorem bindsNone_touchy : touchy.BindsNone := by
  intro system callback d state own
  have same : (touchy system callback (d, state)).2 = (d, state) := by
    unfold touchy
    split <;> rfl
  rw [same]

def quarrel : Program where
  types := []
  exceptions := []
  threads := [⟨"a", none, [.line "a.rb" 1, .line "a.rb" 2]⟩, ⟨"b", none, [.line "b.rb" 1, .line "b.rb" 2]⟩]

def tracing : Debugger := (Debugger.initial { Settings.standard with tracing := true }).start.2

def traced (program : Program) : List (ReplayThread String) × Debugger × Unit :=
  spawnThreads 1 program.threads ({ tracing with host := tracing.host.declare program }, ())

theorem quarrel_leaves_nothing : ∃ p : Production String, Reaches (opening tracing 1 quarrel) p ∧
    p.call = .finished (.error (.frontEnd "stop")) ∧ p.Enacts 1 quarrel.threads ∧
    p.Settled (.error (.frontEnd "stop")) := by
  have registered : tracing.host.Registered := fun bound => nomatch bound
  have first : (replayRound touchy (traced quarrel).1 (traced quarrel).2).1.1 = some (.frontEnd "stop") := by
    decide +kernel
  have moves : (replayRound touchy (traced quarrel).1 (traced quarrel).2).1.2.map (·.movesLeft) = [0, 0] := by
    decide +kernel
  have through (t : ReplayThread String)
      (member : t ∈ (replayRound touchy (traced quarrel).1 (traced quarrel).2).1.2) : t.movesLeft = 0 := by
    have none : t.movesLeft ∈ [0, 0] := moves ▸ List.mem_map_of_mem member
    simpa using none
  obtain ⟨p, run, -, call⟩ := reaches_finished bindsNone_touchy (fun _ _ _ _ _ => .refl)
    (show spawnThreads 1 quarrel.threads ({ tracing with host := tracing.host.declare quarrel }, ()) =
      ((traced quarrel).1, (traced quarrel).2) from rfl) (prepareThreads_pure 0 _ _) through
  rw [first] at call
  have returned : p.call.result? = some (.error (.frontEnd "stop")) := by
    rw [call]
    rfl
  obtain ⟨enacts, -, ⟨error, refused, -⟩ | ⟨-, settled⟩⟩ :=
    nothing_left_behind Host.listed_initial registered run returned
  · cases call.symm.trans refused
  · exact ⟨p, run, call, enacts, settled⟩

end Production

end EventDebugger
