import EventDebugger.Proofs.Attribution.Moves
import EventDebugger.Proofs.Production.Accounts
import EventDebugger.Proofs.Solo.Running

/-!
# A replay is such a run

`replay` lets the threads of a program move in turn, and one move takes an event as far as it gets. What
it computes is reached by steps of the call and of its threads, whatever the front-end does when it is
called, as long as it binds no thread.

* `Production.performs_step`: a move of a thread.
* `Production.reaches_replay`: a replay, up to where its threads are joined.
-/

namespace EventDebugger

variable {σ ε : Type} {front : FrontEnd σ ε}

def FrontEnd.BindsNone (front : FrontEnd σ ε) : Prop :=
  ∀ system callback d state own, Host.Drifts own d.host (front system callback (d, state)).2.1.host

namespace Player

def StandsAfter (player : Player ε) (s : Nat) (activations : Activations) (actions : List Action) :
    Progress ε → Prop
  | .finished (.ok ()) => player.phase = .running activations actions
  | .finished (.error error) => player.phase = .ending (.error error)
  | .waiting pending => pending.system = s ∧
      player.phase = .handling ⟨pending.thread, pending.context, activations, actions⟩
        (.waiting pending.event pending.waiting pending.since) none

def StandsAt (player : Player ε) (s : Nat) : ReplayPhase ε → Prop
  | .starting => player.phase = .starting
  | .running activations actions => player.phase = .running activations actions
  | .waiting activations actions pending =>
      player.StandsAfter s activations actions (.waiting pending)
  | .exited result => player.phase = .gone result

theorem standsAfter_answer (player : Player ε) (s : Nat) (activations : Activations)
    (actions : List Action) (result : HookResult ε) :
    (player.answer activations actions result).StandsAfter s activations actions (.finished result) := by
  cases result <;> rfl

end Player

namespace Production

variable {p p' p'' : Production ε} {s : Nat} {player player' : Player ε} {d d' : Debugger}
  {state : σ}

/-! ## One thread moves -/

structure Leads (p : Production ε) (s : Nat) (start stop : Player ε × Debugger) : Prop where
  run : Reaches (p.move s start.1 start.2) (p.move s stop.1 stop.2)
  thread : stop.1.thread = start.1.thread
  steps : stop.1.steps = start.1.steps

theorem Leads.refl (start : Player ε × Debugger) : p.Leads s start start := ⟨.refl _, rfl, rfl⟩

theorem Leads.trans {a b c : Player ε × Debugger} (first : p.Leads s a b) (second : p.Leads s b c) :
    p.Leads s a c where
  run := first.run.trans second.run
  thread := second.thread.trans first.thread
  steps := second.steps.trans first.steps

theorem leads_act
    (act : (p.move s player d).Act s player ((p.move s player d).move s player' d')) :
    p.Leads s (player, d) (player', d') := by
  obtain ⟨moved, _, same, goes, -⟩ := act.goes
  rw [move_move, move_move] at same
  have here := congrArg (·.players s) same
  simp only [players_move_self, Option.some.injEq] at here
  subst here
  refine ⟨?_, goes.thread, goes.steps⟩
  have step := Step.act players_move_self act
  rw [move_move] at step
  exact .single step

theorem leads_meddle (drifts : ∀ own, Host.Drifts own d.host d'.host) :
    p.Leads s (player, d) (player, d') :=
  ⟨.single (.meddle (drifts _)), rfl, rfl⟩

theorem leads_front (mild : front.BindsNone) (s : Nat) (callback : Callback) (d : Debugger) (state : σ) :
    p.Leads s (player, d) (player, (front s callback (d, state)).2.1) :=
  leads_meddle (mild s callback d state)

theorem leads_stay {phase : Player.Phase ε} (stays : player.phase = phase) :
    p.Leads s (player, d) (player.become phase, d) := by
  rw [Player.become, ← stays]
  exact .refl _

theorem leads_drive (mild : front.BindsNone) {errand : Player.Errand} (n : Nat) {outcome : Outcome}
    (enough : outcome.rank ≤ n) (phase : player.phase = .handling errand outcome.stage none)
    (state : σ) :
    let driven := outcome.drive front s errand.context n (d, state)
    ∃ failure, driven.1 = Player.resultOf failure ∧
      p.Leads s (player, d) (player.become (.handling errand .handled failure), driven.2.1) := by
  induction n generalizing player d outcome state with
  | zero =>
      cases outcome with
      | done => exact ⟨none, rfl, leads_stay phase⟩
      | call callback next => cases next <;> cases enough
  | succ n ih =>
      cases outcome with
      | done => exact ⟨none, rfl, leads_stay phase⟩
      | call callback next =>
          have asked : p.Leads s (player, d) (player, (front s callback (d, state)).2.1) :=
            leads_front mild s callback d state
          rw [drive_call]
          generalize front s callback (d, state) = answer at asked
          obtain ⟨_ | _, d₁, state₁⟩ := answer
          · exact ⟨some _, rfl, asked.trans (leads_act (.fail _ phase))⟩
          · have answered : p.Leads s (player, d₁) (player.become (.handling errand
                (next.run d₁ s errand.context).1.stage none), (next.run d₁ s errand.context).2) :=
              leads_act (.answer phase)
            obtain ⟨failure, result, driven⟩ := ih
              (Nat.le_of_lt_succ (Nat.lt_of_lt_of_le (next.rank_run_lt d₁ s errand.context) enough))
              (player.phase_become _) state₁
            exact ⟨failure, result, (asked.trans answered).trans driven⟩

theorem leads_handleWithTicket (mild : front.BindsNone) {errand : Player.Errand} {event : Event}
    (phase : player.phase = .handling errand (.admitted event) none) (state : σ) :
    let handled := handleWithTicket front s errand.context event (d, state)
    p.Leads s (player, d) (player.answer errand.activations errand.actions handled.1, handled.2.1) := by
  have dispatched : p.Leads s (player, d) (player.become (.handling errand
      (d.dispatch s errand.context event).1.stage none), (d.dispatch s errand.context event).2) :=
    leads_act (.dispatch phase)
  obtain ⟨failure, result, driven⟩ := leads_drive (p := p) (s := s)
    (d := (d.dispatch s errand.context event).2) mild _ (Nat.le_refl _) (player.phase_become _) state
  rw [handleWithTicket_eq]
  dsimp only
  rw [Outcome.complete, result]
  exact (dispatched.trans driven).trans (leads_act (.release rfl))

theorem leads_contendAndHandle (mild : front.BindsNone) {errand : Player.Errand} {event : Event}
    {granted : Bool} (asked : p.Leads s (player, d)
      (player.contend errand event (d.contend errand.thread errand.context granted),
        (d.contend errand.thread errand.context granted).2)) (state : σ) :
    let handled := contendAndHandle front s errand.thread errand.context event granted (d, state)
    ∃ player', p.Leads s (player, d) (player', handled.2.1) ∧
      player'.StandsAfter s errand.activations errand.actions handled.1 := by
  rw [contendAndHandle_eq]
  generalize d.contend errand.thread errand.context granted = contended at asked
  obtain ⟨_ | _ | reason, d₁⟩ := contended
  · exact ⟨_, asked.trans (leads_handleWithTicket mild rfl state), Player.standsAfter_answer ..⟩
  · exact ⟨_, asked, rfl⟩
  · exact ⟨_, asked, rfl, rfl⟩

theorem leads_handleEvent (mild : front.BindsNone) {event : Event} {activations : Activations}
    {actions : List Action} (phase : player.phase = .notifying event activations actions) (state : σ) :
    let handled := handleEvent front s event (d, state)
    ∃ player', p.Leads s (player, d) (player', handled.2.1) ∧
      player'.StandsAfter s activations actions handled.1 := by
  have notified : p.Leads s (player, d)
      (player.arrive event activations actions (d.arrive s event).1, (d.arrive s event).2) :=
    leads_act (.notify phase)
  rw [handleEvent_eq]
  generalize d.arrive s event = arrived at notified
  obtain ⟨_ | ⟨thread, context⟩, d₁⟩ := arrived
  · exact ⟨_, notified, rfl⟩
  · have asked : p.Leads s (player.did (.notified event)
        (.handling ⟨thread, context, activations, actions⟩ (.asking event) none), d₁) _ :=
      leads_act (.ask (player.phase_did _ _))
    obtain ⟨player', handled, stands⟩ := leads_contendAndHandle mild asked state
    exact ⟨player', notified.trans handled, stands⟩

theorem leads_emit (mild : front.BindsNone) {event : Event} {activations : Activations}
    {actions : List Action} (phase : player.phase = .entering event activations actions) (state : σ) :
    let handled := ReplayThread.emit front s event (d, state)
    ∃ player', p.Leads s (player, d) (player', handled.2.1) ∧
      player'.StandsAfter s activations actions handled.1 := by
  have entered : p.Leads s (player, d) (player.become (.notifying event activations actions),
      { d with host := (p.move s player d).entered s event }) := leads_act (.enter phase)
  have emitted : ReplayThread.emit front s event (d, state) = handleEvent front s event
      ({ d with host := (p.move s player d).entered s event }, state) := by
    unfold ReplayThread.emit Production.entered
    cases event.scope <;> rfl
  obtain ⟨player', handled, stands⟩ := leads_handleEvent (p := p) mild
    (player.phase_become (.notifying event activations actions)) state
  rw [emitted]
  exact ⟨player', entered.trans handled, stands⟩

theorem leads_continueEvent (mild : front.BindsNone) {activations : Activations} {actions : List Action}
    {pending : PendingEvent} (stands : player.StandsAfter s activations actions (.waiting pending))
    (state : σ) :
    let handled := continueEvent front pending (d, state)
    ∃ player', p.Leads s (player, d) (player', handled.2.1) ∧
      player'.StandsAfter s activations actions handled.1 := by
  rw [continueEvent_eq]
  obtain ⟨rfl, phase⟩ := stands
  split
  · next awake => exact leads_contendAndHandle mild (leads_act (.awake phase awake)) state
  · exact ⟨player, .refl _, rfl, phase⟩

theorem leads_handlePostMortem (mild : front.BindsNone) {postMortem : PostMortem}
    (phase : player.phase = .mourning postMortem) (state : σ) :
    let handled := handlePostMortem front s postMortem (d, state)
    ∃ player', p.Leads s (player, d) (player', handled.2.1) ∧ player'.phase = .ending handled.1 := by
  rw [handlePostMortem_eq]
  split
  · next empty => exact ⟨_, leads_act (.pass phase empty), rfl⟩
  · next framed =>
      have entered : p.Leads s (player, d)
          (player.enter (d.enterPostMortem s).1, (d.enterPostMortem s).2) :=
        leads_act (.inspect phase (Bool.eq_false_iff.mpr framed))
      generalize d.enterPostMortem s = entry at entered
      obtain ⟨_ | before, d₁⟩ := entry
      · exact ⟨_, entered, rfl⟩
      · have visited : p.Leads s (player.become (.inspecting before), d₁) _ :=
          leads_front mild s (.line postMortem.context postMortem.position) d₁ state
        dsimp only
        generalize front s (.line postMortem.context postMortem.position) (d₁, state) = answer at visited
        obtain ⟨result, d₂, state₂⟩ := answer
        obtain ⟨failure, failed⟩ : ∃ failure, result.mapError .frontEnd = Player.resultOf failure := by
          cases result with
          | error error => exact ⟨some error, rfl⟩
          | ok => exact ⟨none, rfl⟩
        have looked : p.Leads s (player.become (.inspecting before), d₂)
            (player.become (.leaving before failure), d₂) :=
          leads_act (.look failure (player.phase_become _))
        have left : p.Leads s (player.become (.leaving before failure), d₂)
            (player.leave failure (d₂.leavePostMortem s before).1, (d₂.leavePostMortem s before).2) :=
          leads_act (.leave (player.phase_become _))
        have through := ((entered.trans visited).trans looked).trans left
        dsimp only
        generalize d₂.leavePostMortem s before = out at through
        obtain ⟨_ | _, d₃⟩ := out
        · exact ⟨_, through, rfl⟩
        · exact ⟨_, through, congrArg _ failed.symm⟩

theorem leads_uncaught (mild : front.BindsNone) {exception : Value}
    (phase : player.phase = .raising exception) (state : σ) :
    let handled := ReplayThread.uncaught front s exception (d, state)
    ∃ player', p.Leads s (player, d) (player', handled.2.1) ∧ player'.phase = .ending handled.1 := by
  rw [ReplayThread.uncaught_eq]
  split
  · next active =>
      have recalled : p.Leads s (player, d) (player.become (.recalling exception), d) :=
        leads_act (.consult phase active)
      split
      · next postMortem found =>
          have mourned : p.Leads s (player.become (.recalling exception), d)
              (player.become (.mourning postMortem), d) :=
            leads_act (.mourn (player.phase_become _) found)
          obtain ⟨player', handled, ending⟩ :=
            leads_handlePostMortem (p := p) mild (player.phase_become (.mourning postMortem)) state
          exact ⟨player', (recalled.trans mourned).trans handled, ending⟩
      · next missing =>
          exact ⟨_, recalled.trans (leads_act (.shrug (player.phase_become _) missing)), rfl⟩
  · next inactive => exact ⟨_, leads_act (.forget phase (Bool.eq_false_iff.mpr inactive)), rfl⟩

/-! ## Moves of a replayed thread -/

def Hosts (p : Production ε) (t : ReplayThread ε) : Prop :=
  ∃ player, p.players t.system = some player ∧ player.thread = t.thread ∧ player.steps = t.steps ∧
    player.StandsAt t.system t.phase

structure Performs (p p' : Production ε) (t t' : ReplayThread ε) : Prop where
  run : Reaches p p'
  call : p'.call = p.call
  cast : p'.cast = p.cast
  system : t'.system = t.system
  others : ∀ s, s ≠ t.system → p'.players s = p.players s
  hosts : p'.Hosts t'
  first : p'.first = p.first.or (if t.error?.isNone then t'.error? else none)
  stays : t.error?.isSome → t' = t

variable {t t' t'' : ReplayThread ε}

theorem Performs.refl (hosts : p.Hosts t) : p.Performs p t t := by
  refine ⟨.refl p, rfl, rfl, rfl, fun _ _ => rfl, hosts, ?_, fun _ => rfl⟩
  cases t.error? <;> simp

theorem Performs.trans (first : p.Performs p' t t') (second : p'.Performs p'' t' t'') :
    p.Performs p'' t t'' where
  run := first.run.trans second.run
  call := second.call.trans first.call
  cast := second.cast.trans first.cast
  system := second.system.trans first.system
  others s ne := (second.others s (first.system ▸ ne)).trans (first.others s ne)
  hosts := second.hosts
  first := by
    rw [second.first, first.first, Option.or_assoc]
    congr 1
    cases failed : t.error? with
    | some error =>
        have same : t' = t := first.stays (failed ▸ rfl)
        simp [same, failed]
    | none =>
        cases failed' : t'.error? with
        | some error' =>
            have same : t'' = t' := second.stays (failed' ▸ rfl)
            simp [same, failed']
        | none => simp
  stays failed := by
    have same : t' = t := first.stays failed
    rw [second.stays (same ▸ failed), same]

theorem performs_of_leads {phase : ReplayPhase ε} (is : p.players t.system = some player)
    (thread : player.thread = t.thread) (steps : player.steps = t.steps) (alive : t.error? = none)
    (leads : p.Leads t.system (player, p.debugger) (player', d))
    (stands : player'.StandsAt t.system phase) (going : ({ t with phase }).error? = none) :
    p.Performs (p.move t.system player' d) t { t with phase } := by
  have run := leads.run
  rw [move_self is] at run
  refine ⟨run, rfl, rfl, rfl, fun s ne => players_move_ne ne, ?_, ?_, ?_⟩
  · exact ⟨player', players_move_self, leads.thread.trans thread, leads.steps.trans steps, stands⟩
  · rw [going, ite_self, Option.or_none]
    rfl
  · rw [alive]
    nofun

theorem performs_of_ending {result : HookResult ε} (is : p.players t.system = some player)
    (thread : player.thread = t.thread) (steps : player.steps = t.steps) (alive : t.error? = none)
    (leads : p.Leads t.system (player, p.debugger) (player', d)) (ending : player'.phase = .ending result) :
    ∃ p', p'.debugger = { d with host := d.host.exitThread t.thread } ∧
      p.Performs p' t { t with phase := .exited result } := by
  have run := leads.run
  rw [move_self is] at run
  have same : player'.thread = t.thread := leads.thread.trans thread
  let left := (p.move t.system player' d).exit t.system player' (.exited result)
  have exits : Reaches (p.move t.system player' d) left := .single (.exit players_move_self ending)
  have reports : Reaches left (left.report t.system (player'.become (.exited result)) result) :=
    .single (.report players_move_self (player'.phase_become _))
  refine ⟨_, ?_, (run.trans exits).trans reports, rfl, rfl, rfl, fun s ne => ?_, ?_, ?_, ?_⟩
  · rw [← same]
    rfl
  · change (((p.move t.system player' d).move t.system _ _).move t.system _ left.debugger).players s = _
    rw [move_move, move_move, players_move_ne ne]
  · refine ⟨player'.become (.gone result), players_move_self (d := left.debugger), same, ?_, rfl⟩
    exact leads.steps.trans steps
  · rw [alive]
    cases result <;> rfl
  · rw [alive]
    nofun

theorem performs_afterEvent {activations : Activations} {actions : List Action} {progress : Progress ε}
    (is : p.players t.system = some player) (thread : player.thread = t.thread)
    (steps : player.steps = t.steps) (alive : t.error? = none)
    (leads : p.Leads t.system (player, p.debugger) (player', d))
    (stands : player'.StandsAfter t.system activations actions progress) (state : σ) :
    let after := t.afterEvent activations actions progress (d, state)
    ∃ p', p'.debugger = after.2.1 ∧ p.Performs p' t after.1 := by
  match progress with
  | .finished (.ok ()) => exact ⟨_, rfl, performs_of_leads is thread steps alive leads stands rfl⟩
  | .finished (.error error) => exact performs_of_ending is thread steps alive leads stands
  | .waiting pending => exact ⟨_, rfl, performs_of_leads is thread steps alive leads stands rfl⟩

theorem leads_perform {activations : Activations} {action : Action} {actions : List Action}
    (phase : player.phase = .running activations (action :: actions)) :
    let performed := action.perform player.thread activations d.host
    p.Leads s (player, d) (player.perform actions action performed, { d with host := performed.host }) :=
  leads_act (.perform phase)

theorem performs_perform (mild : front.BindsNone) {activations : Activations} {action : Action}
    {actions : List Action} (is : p.players t.system = some player) (thread : player.thread = t.thread)
    (steps : player.steps = t.steps) (alive : t.error? = none)
    (phase : player.phase = .running activations (action :: actions)) (state : σ) :
    let performed := t.perform front activations action actions (p.debugger, state)
    ∃ p', p'.debugger = performed.2.1 ∧ p.Performs p' t performed.1 := by
  have acted := leads_perform (p := p) (s := t.system) (d := p.debugger) phase
  rw [ReplayThread.perform, run_bind_eq, Run.onDebugger]
  dsimp only at acted ⊢
  rw [thread] at acted
  generalize action.perform t.thread activations p.debugger.host = performed at acted
  rw [Player.perform] at acted
  split at acted
  · next silent =>
      rw [silent]
      exact ⟨_, rfl, performs_of_leads is thread steps alive acted rfl rfl⟩
  · next event announced =>
      rw [announced]
      dsimp only
      obtain ⟨player', emitted, stands⟩ := leads_emit (p := p) mild (player.phase_did _ _) state
      exact performs_afterEvent is thread steps alive (acted.trans emitted) stands _

theorem performs_step (mild : front.BindsNone) (hosts : p.Hosts t) (joining : p.call = .joining)
    (state : σ) :
    let stepped := t.step front (p.debugger, state)
    ∃ p', p'.debugger = stepped.2.1 ∧ p.Performs p' t stepped.1 := by
  obtain ⟨player, is, thread, steps, stands⟩ := id hosts
  rw [ReplayThread.step]
  cases phase : t.phase with
  | starting =>
      rw [phase] at stands
      have alive : t.error? = none := by rw [ReplayThread.error?, phase]
      have starts : p.Leads t.system (player, p.debugger)
          (player.become (.running (.start p.debugger.host.scopes.enterMethod.1)
            (Step.toActionsAll player.steps).actions), _) :=
        ⟨by rw [move_self is]; exact .single (.start joining is stands), rfl, rfl⟩
      rw [thread, steps] at starts
      exact ⟨_, rfl, performs_of_leads is thread steps alive starts rfl rfl⟩
  | running activations actions =>
      rw [phase] at stands
      have alive : t.error? = none := by rw [ReplayThread.error?, phase]
      cases actions with
      | nil =>
          have finished : p.Leads t.system (player, p.debugger) (player.finish activations, p.debugger) :=
            leads_act (.finish stands)
          dsimp only
          rw [ReplayThread.finish]
          rw [Player.finish] at finished
          split at finished
          · next unraised =>
              rw [unraised]
              exact performs_of_ending is thread steps alive finished (player.phase_become _)
          · next exception raised =>
              rw [raised]
              obtain ⟨player', caught, ending⟩ := leads_uncaught (p := p) (s := t.system) (d := p.debugger)
                mild (player.phase_become (.raising exception)) state
              exact performs_of_ending is thread steps alive (finished.trans caught) ending
      | cons action actions => exact performs_perform mild is thread steps alive stands state
  | waiting activations actions pending =>
      rw [phase] at stands
      have alive : t.error? = none := by rw [ReplayThread.error?, phase]
      obtain ⟨player', continued, after⟩ := leads_continueEvent (p := p) (d := p.debugger) mild stands state
      exact performs_afterEvent is thread steps alive continued after _
  | exited result => exact ⟨p, rfl, .refl hosts⟩

theorem performs_advance (mild : front.BindsNone) (n : Nat) (hosts : p.Hosts t)
    (joining : p.call = .joining) (state : σ) :
    let advanced := t.advance front n (p.debugger, state)
    ∃ p', p'.debugger = advanced.2.1 ∧ p.Performs p' t advanced.1 := by
  induction n generalizing p t state with
  | zero => exact ⟨p, rfl, .refl hosts⟩
  | succ n ih =>
      cases able : t.canMove p.debugger with
      | false =>
          rw [advance_of_not_canMove front able]
          exact ⟨p, rfl, .refl hosts⟩
      | true =>
          rw [advance_succ front able]
          obtain ⟨p', same, stepped⟩ := performs_step mild hosts joining state
          generalize t.step front (p.debugger, state) = after at same stepped
          obtain ⟨t', d', state'⟩ := after
          obtain rfl : p'.debugger = d' := same
          obtain ⟨p'', same', advanced⟩ := ih stepped.hosts (stepped.call.trans joining) state'
          exact ⟨p'', same', stepped.trans advanced⟩

/-! ## Rounds -/

theorem Hosts.congr (hosts : p.Hosts t) (same : p'.players t.system = p.players t.system) : p'.Hosts t := by
  obtain ⟨player, is, rest⟩ := hosts
  exact ⟨player, same.trans is, rest⟩

structure Rounds (p p' : Production ε) (ts ts' : List (ReplayThread ε)) (error : Option (HookError ε)) :
    Prop where
  run : Reaches p p'
  call : p'.call = p.call
  cast : p'.cast = p.cast
  systems : ts'.map (·.system) = ts.map (·.system)
  others : ∀ s, s ∉ ts.map (·.system) → p'.players s = p.players s
  hosts : ∀ t' ∈ ts', p'.Hosts t'
  first : p'.first = p.first.or error

variable {ts ts' ts'' : List (ReplayThread ε)}

theorem Rounds.refl (hosts : ∀ t ∈ ts, p.Hosts t) : p.Rounds p ts ts none :=
  ⟨.refl p, rfl, rfl, rfl, fun _ _ => rfl, hosts, (Option.or_none).symm⟩

theorem Rounds.trans {error error' : Option (HookError ε)} (first : p.Rounds p' ts ts' error)
    (second : p'.Rounds p'' ts' ts'' error') : p.Rounds p'' ts ts'' (error.or error') where
  run := first.run.trans second.run
  call := second.call.trans first.call
  cast := second.cast.trans first.cast
  systems := second.systems.trans first.systems
  others s out := (second.others s (first.systems ▸ out)).trans (first.others s out)
  hosts := second.hosts
  first := by rw [second.first, first.first, Option.or_assoc]

theorem replayRound_cons (t : ReplayThread ε) (ts : List (ReplayThread ε)) (s : Debugger × σ) :
    replayRound front (t :: ts) s =
      let moved := t.advance front t.movesLeft s
      let others := replayRound front ts moved.2
      (((if t.error?.isNone then moved.1.error? else none).or others.1.1, moved.1 :: others.1.2),
        others.2) := rfl

theorem performs_round (mild : front.BindsNone) (hosts : ∀ t ∈ ts, p.Hosts t)
    (apart : (ts.map (·.system)).Nodup) (joining : p.call = .joining) (state : σ) :
    let round := replayRound front ts (p.debugger, state)
    ∃ p', p'.debugger = round.2.1 ∧ p.Rounds p' ts round.1.2 round.1.1 := by
  induction ts generalizing p state with
  | nil => exact ⟨p, rfl, .refl (List.forall_mem_nil _)⟩
  | cons t ts ih =>
      rw [replayRound_cons]
      obtain ⟨here, elsewhere⟩ := List.forall_mem_cons.mp hosts
      obtain ⟨out, apart⟩ := List.nodup_cons.mp apart
      obtain ⟨p₁, same, performs⟩ := performs_advance mild t.movesLeft here joining state
      generalize t.advance front t.movesLeft (p.debugger, state) = moved at same performs
      obtain ⟨t', d', state'⟩ := moved
      obtain rfl : p₁.debugger = d' := same
      have away {u : ReplayThread ε} (member : u ∈ ts) : u.system ≠ t.system :=
        fun same => out (List.mem_map.mpr ⟨u, member, same⟩)
      obtain ⟨p₂, same, round⟩ := ih
        (fun u member => (elsewhere u member).congr (performs.others _ (away member)))
        apart (performs.call.trans joining) state'
      dsimp only
      refine ⟨p₂, same, performs.run.trans round.run, round.call.trans performs.call,
        round.cast.trans performs.cast, ?_, ?_, ?_, ?_⟩
      · rw [List.map_cons, List.map_cons, performs.system, round.systems]
      · intro s absent
        rw [List.map_cons, List.mem_cons, not_or] at absent
        rw [round.others s absent.2, performs.others s absent.1]
      · refine List.forall_mem_cons.mpr ⟨performs.hosts.congr (round.others _ ?_), round.hosts⟩
        rwa [performs.system]
      · rw [round.first, performs.first, Option.or_assoc]

theorem replayRounds_succ (n : Nat) (ts : List (ReplayThread ε)) (s : Debugger × σ) :
    replayRounds front (n + 1) ts s =
      if ts.any fun t => t.canMove s.1 then
        let round := replayRound front ts s
        let later := replayRounds front n round.1.2 round.2
        (round.1.1.or later.1, later.2)
      else (none, s) := by
  change (if ts.any fun t => t.canMove s.1 then _ else _ : Run σ (Option (HookError ε))) s = _
  split <;> rfl

theorem performs_rounds (mild : front.BindsNone) (n : Nat) (hosts : ∀ t ∈ ts, p.Hosts t)
    (apart : (ts.map (·.system)).Nodup) (joining : p.call = .joining) (state : σ) :
    let rounds := replayRounds front n ts (p.debugger, state)
    ∃ p' ts', p'.debugger = rounds.2.1 ∧ p.Rounds p' ts ts' rounds.1 := by
  induction n generalizing p ts state with
  | zero => exact ⟨p, ts, rfl, .refl hosts⟩
  | succ n ih =>
      rw [replayRounds_succ]
      split
      · obtain ⟨p₁, same, round⟩ := performs_round mild hosts apart joining state
        generalize replayRound front ts (p.debugger, state) = moved at same round
        obtain ⟨⟨error, ts₁⟩, d₁, state₁⟩ := moved
        obtain rfl : p₁.debugger = d₁ := same
        obtain ⟨p₂, ts₂, same, later⟩ := ih round.hosts (round.systems ▸ apart)
          (round.call.trans joining) state₁
        exact ⟨p₂, ts₂, same, round.trans later⟩
      · exact ⟨p, ts, rfl, .refl hosts⟩

/-! ## The call -/

theorem exited_of_movesLeft (none : t.movesLeft = 0) : ∃ result, t.phase = .exited result := by
  unfold ReplayThread.movesLeft at none
  cases phase : t.phase with
  | exited result => exact ⟨result, rfl⟩
  | _ =>
      rw [phase] at none
      cases none

theorem Rounds.join {error : Option (HookError ε)} (rounds : p.Rounds p' ts ts' error)
    (joining : p.call = .joining) (cast : p.cast = ts.map (·.system))
    (through : ∀ t ∈ ts', t.movesLeft = 0) : Step p' (p'.calling (.finished p'.outcome)) := by
  refine .join (rounds.call.trans joining) fun s member => ?_
  rw [rounds.cast, cast, ← rounds.systems] at member
  obtain ⟨t, inside, rfl⟩ := List.mem_map.mp member
  obtain ⟨player, is, -, -, stands⟩ := rounds.hosts t inside
  obtain ⟨result, phase⟩ := exited_of_movesLeft (through t inside)
  rw [phase] at stands
  exact ⟨player, result, is, stands⟩

theorem reaches_spawned {system : Nat} {decls : List ThreadDecl}
    (spawning : p.call = .spawning system decls) (state : σ) :
    let spawned := (spawnThreads system decls : Run σ (List (ReplayThread ε))) (p.debugger, state)
    spawned.1.map (·.system) = List.range' system decls.length ∧
    ∃ p', p'.debugger = spawned.2.1 ∧ Reaches p p' ∧
      p'.call = .spawning (system + decls.length) [] ∧
      p'.cast = p.cast ++ spawned.1.map (·.system) ∧ p'.first = p.first ∧
      (∀ t ∈ spawned.1, p'.Hosts t) ∧ ∀ s < system, p'.players s = p.players s := by
  induction decls generalizing p system state with
  | nil => exact ⟨rfl, p, rfl, .refl p, spawning, (List.append_nil _).symm, rfl,
      List.forall_mem_nil _, fun _ _ => rfl⟩
  | cons decl decls ih =>
      obtain ⟨systems, p', same, run, call, cast, first, hosts, others⟩ :=
        ih (p := p.spawn system decl decls) rfl state
      rw [spawnThreads_cons]
      refine ⟨congrArg (system :: ·) systems, p', same, .trans (.single (.spawn spawning)) run, ?_, ?_,
        first, ?_, ?_⟩
      · rw [call, List.length_cons, Nat.add_assoc, Nat.add_comm 1]
      · rw [cast]
        exact List.append_assoc ..
      · refine List.forall_mem_cons.mpr ⟨⟨⟨(p.debugger.host.spawn decl).1, decl.steps, [], .starting⟩,
          ?_, rfl, rfl, rfl⟩, hosts⟩
        exact (others system (Nat.lt_succ_self system)).trans (players_move_self (d := p.debugger))
      · intro s lower
        rw [others s (Nat.lt_succ_of_lt lower)]
        exact players_move_ne (d := p.debugger) (Nat.ne_of_lt lower)

def Call.afterPreparation (cast : List Nat) : Except Error Unit → Call ε
  | .ok () => .preparing 0
  | .error error => .abandoning error cast

theorem prepareThreads_cons (spawned : Nat → Thread → Run σ (Except Error Unit)) (index : Nat)
    (t : ReplayThread ε) (ts : List (ReplayThread ε)) (s : Debugger × σ) :
    prepareThreads spawned index (t :: ts) s =
      match spawned index t.thread s with
      | (.error error, s) => (.error error, s)
      | (.ok (), s) => prepareThreads spawned (index + 1) ts s := by
  rw [prepareThreads, run_bind_eq]
  rcases spawned index t.thread s with ⟨_ | _, s⟩ <;> rfl

theorem prepareThreads_pure (index : Nat) (ts : List (ReplayThread ε)) (s : Debugger × σ) :
    prepareThreads (fun _ _ => pure (.ok ())) index ts s = (.ok (), s) := by
  induction ts generalizing index with
  | nil => rfl
  | cons t ts ih => exact ih (index + 1)

theorem reaches_prepared {spawned : Nat → Thread → Run σ (Except Error Unit)}
    (mild : ∀ index thread d state own,
      Host.Drifts own d.host (spawned index thread (d, state)).2.1.host)
    (index : Nat) (preparing : p.call = .preparing ts.length) (state : σ) :
    let prepared := prepareThreads spawned index ts (p.debugger, state)
    ∃ p', p'.debugger = prepared.2.1 ∧ Reaches p p' ∧ p'.players = p.players ∧ p'.cast = p.cast ∧
      p'.first = p.first ∧
      p'.call = .afterPreparation p.cast prepared.1 := by
  induction ts generalizing p index state with
  | nil => exact ⟨p, rfl, .refl p, rfl, rfl, rfl, preparing⟩
  | cons t ts ih =>
      have called : Reaches p { p with debugger := (spawned index t.thread (p.debugger, state)).2.1 } :=
        .single (.meddle (mild index t.thread p.debugger state _))
      rw [prepareThreads_cons]
      generalize spawned index t.thread (p.debugger, state) = answer at called
      obtain ⟨error | _, d₁, state₁⟩ := answer
      · exact ⟨_, rfl, .step called (.refuse error preparing), rfl, rfl, rfl, rfl⟩
      · obtain ⟨p', same, run, rest⟩ := ih (index + 1)
          (p := ({ p with debugger := d₁ } : Production ε).calling (.preparing ts.length)) rfl state₁
        exact ⟨p', same, .trans (.step called (.prepare preparing)) run, rest⟩

theorem reaches_abandoned {error : Error} (hosts : ∀ t ∈ ts, p.Hosts t)
    (apart : (ts.map (·.system)).Nodup) (abandoning : p.call = .abandoning error (ts.map (·.system)))
    (state : σ) :
    ∃ p', p'.debugger = (abandonThreads ts (p.debugger, state)).2.1 ∧ Reaches p p' ∧
      p'.call = .abandoning error [] := by
  induction ts generalizing p with
  | nil => exact ⟨p, rfl, .refl p, abandoning⟩
  | cons t ts ih =>
      obtain ⟨⟨player, is, thread, -⟩, elsewhere⟩ := List.forall_mem_cons.mp hosts
      obtain ⟨out, apart⟩ := List.nodup_cons.mp apart
      obtain ⟨p', same, run, call⟩ := ih
        (p := (p.exit t.system player .abandoned).calling (.abandoning error (ts.map (·.system))))
        (fun u member => (elsewhere u member).congr
          (players_move_ne (d := p.debugger) fun same => out (List.mem_map.mpr ⟨u, member, same⟩))) apart rfl
      refine ⟨p', ?_, .trans (.single (.abandon abandoning is)) run, call⟩
      rw [same]
      change _ = (abandonThreads ts (p.onHost (p.debugger.host.exitThread t.thread), state)).2.1
      rw [← thread]
      rfl

section Call

variable {spawned : Nat → Thread → Run σ (Except Error Unit)} {system : Nat} {program : Program}
  {s s' : Debugger × σ}

theorem replay_of_refused {error : Error}
    (spawns : spawnThreads system program.threads ({ d with host := d.host.declare program }, state) = (ts, s))
    (refused : prepareThreads spawned 0 ts s = (.error error, s')) :
    replay front system program spawned (d, state) =
      (.error (.debugger error), (abandonThreads ts s').2) := by
  rw [replay, run_bind_eq, run_bind_eq, run_bind_eq]
  dsimp only [Run.onDebugger]
  rw [spawns]
  dsimp only
  rw [refused]
  rfl

theorem replay_of_prepared
    (spawns : spawnThreads system program.threads ({ d with host := d.host.declare program }, state) = (ts, s))
    (prepared : prepareThreads spawned 0 ts s = (.ok (), s')) :
    ∃ n, replay front system program spawned (d, state) =
      let rounds := replayRounds front n ts s'
      (rounds.1.elim (.ok ()) .error, rounds.2) := by
  refine ⟨ts.foldl (fun n t => n + t.movesLeft) 1, ?_⟩
  rw [replay, run_bind_eq, run_bind_eq, run_bind_eq]
  dsimp only [Run.onDebugger]
  rw [spawns]
  dsimp only
  rw [prepared]
  dsimp only
  rw [run_bind_eq]
  cases (replayRounds front (ts.foldl (fun n t => n + t.movesLeft) 1) ts s').1 <;> rfl

theorem reaches_preparation (prepares : ∀ index thread d state own,
      Host.Drifts own d.host (spawned index thread (d, state)).2.1.host)
    (spawns : spawnThreads system program.threads ({ d with host := d.host.declare program }, state) = (ts, s)) :
    let prepared := prepareThreads spawned 0 ts s
    ∃ p : Production ε, Reaches (opening d system program) p ∧ p.debugger = prepared.2.1 ∧
      p.call = .afterPreparation p.cast prepared.1 ∧ p.cast = ts.map (·.system) ∧ p.cast.Nodup ∧
      p.first = none ∧ ∀ t ∈ ts, p.Hosts t := by
  let declared : Production ε :=
    { (opening d system program).calling (.spawning system program.threads) with
      debugger := { d with host := d.host.declare program } }
  have declares : Reaches (opening d system program) declared := .single (.declare rfl)
  obtain ⟨systems, p₁, same, spawning, call, cast, first, hosts, -⟩ :=
    reaches_spawned (p := declared) rfl state
  rw [show spawnThreads system program.threads (declared.debugger, state) = (ts, s) from spawns]
    at systems same cast hosts
  obtain ⟨d₁, state₁⟩ := s
  obtain rfl : p₁.debugger = d₁ := same
  replace cast : p₁.cast = ts.map (·.system) := cast
  have length : p₁.cast.length = ts.length := by rw [cast, List.length_map]
  obtain ⟨p₂, same, preparing, players, cast', first', call'⟩ :=
    reaches_prepared (p := p₁.calling (.preparing p₁.cast.length)) prepares 0
      (congrArg Call.preparing length) state₁
  refine ⟨p₂, ((declares.trans spawning).step (.spawned call)).trans preparing, same, cast' ▸ call', ?_⟩
  have casts : p₂.cast = ts.map (·.system) := cast'.trans cast
  refine ⟨casts, ?_, first'.trans first, fun t member => (hosts t member).congr (congrFun players _)⟩
  rw [casts, show ts.map (·.system) = _ from systems]
  exact List.nodup_range'

theorem reaches_replay (mild : front.BindsNone)
    (prepares : ∀ index thread d state own,
      Host.Drifts own d.host (spawned index thread (d, state)).2.1.host)
    (system : Nat) (program : Program) (d : Debugger) (state : σ) :
    let replayed := replay front system program spawned (d, state)
    ∃ p : Production ε, Reaches (opening d system program) p ∧ p.debugger = replayed.2.1 ∧
      (p.call.result? = some replayed.1 ∨ p.call = .joining ∧ p.outcome = replayed.1) := by
  cases spawns : (spawnThreads system program.threads : Run σ (List (ReplayThread ε)))
    ({ d with host := d.host.declare program }, state) with
  | mk ts s =>
      obtain ⟨p₁, run, same, call, cast, apart, first, hosts⟩ := reaches_preparation prepares spawns
      cases prepared : prepareThreads spawned 0 ts s with
      | mk result s' =>
          rw [prepared] at same call
          obtain ⟨d₁, state₁⟩ := s'
          obtain rfl : p₁.debugger = d₁ := same
          rw [cast] at apart call
          cases result with
          | error error =>
              rw [replay_of_refused spawns prepared]
              obtain ⟨p₂, same, abandons, call⟩ := reaches_abandoned hosts apart call state₁
              exact ⟨p₂.calling (.refused error), (run.trans abandons).step (.refused call), same,
                .inl rfl⟩
          | ok =>
              obtain ⟨n, replayed⟩ : ∃ n, replay front system program spawned (d, state) = _ :=
                replay_of_prepared spawns prepared
              rw [replayed]
              obtain ⟨p₂, ts₂, same, rounds⟩ := performs_rounds
                (p := p₁.calling .joining) mild n hosts apart rfl state₁
              refine ⟨p₂, (run.step (.launch call)).trans rounds.run, same, .inr ⟨rounds.call, ?_⟩⟩
              have kept : p₂.first = (none : Option (HookError ε)).or _ := first ▸ rounds.first
              rw [outcome, kept, Option.none_or]
              rfl

theorem reaches_finished (mild : front.BindsNone)
    (prepares : ∀ index thread d state own,
      Host.Drifts own d.host (spawned index thread (d, state)).2.1.host)
    (spawns : spawnThreads system program.threads ({ d with host := d.host.declare program }, state) = (ts, s))
    (prepared : prepareThreads spawned 0 ts s = (.ok (), s')) :
    let round := replayRound front ts s'
    (∀ t ∈ round.1.2, t.movesLeft = 0) → ∃ p : Production ε, Reaches (opening d system program) p ∧
      p.debugger = round.2.1 ∧ p.call = .finished (round.1.1.elim (.ok ()) .error) := by
  intro round through
  obtain ⟨p₁, run, same, call, cast, apart, first, hosts⟩ := reaches_preparation prepares spawns
  rw [prepared] at same call
  obtain ⟨d₁, state₁⟩ := s'
  obtain rfl : p₁.debugger = d₁ := same
  obtain ⟨p₂, same, rounds⟩ := performs_round (p := p₁.calling .joining) mild hosts (cast ▸ apart) rfl
    state₁
  have kept : p₂.first = (none : Option (HookError ε)).or round.1.1 := first ▸ rounds.first
  have joined := rounds.join rfl cast through
  rw [outcome, kept, Option.none_or] at joined
  exact ⟨_, ((run.step (.launch call)).trans rounds.run).step joined, same, rfl⟩

end Call

end Production

end EventDebugger
