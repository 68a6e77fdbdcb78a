import EventDebugger.Proofs.Production.System

/-!
# The accounts of a thread

What a thread of a program has done and what is ahead of it make up the actions of its steps, as long as
nothing failed. A failure is the last thing it did, and decides its result.

* `Production.Act.goes`: what a step of a thread makes of its accounts and of the host.
-/

namespace EventDebugger

variable {ε : Type}

namespace Player

def Deed.action? : Deed ε → Option Action
  | .acted action => some action
  | _ => none

def Deed.failure? : Deed ε → Option (HookError ε)
  | .answered (.error error) | .inspected (.error error) => some error
  | _ => none

def Phase.ahead : Phase ε → Option (List Action)
  | .running _ actions | .entering _ _ actions | .notifying _ _ actions => some actions
  | .handling errand _ _ => some errand.actions
  | .raising _ | .recalling _ | .mourning _ | .inspecting _ | .leaving _ _ => some []
  | _ => none

def Phase.result? : Phase ε → Option (HookResult ε)
  | .ending result | .exited result | .gone result => some result
  | _ => none

def acted (player : Player ε) : List Action := player.deeds.filterMap Deed.action?

def failures (player : Player ε) : List (HookError ε) := player.deeds.filterMap Deed.failure?

def actions (player : Player ε) : List Action := (Step.toActionsAll player.steps).actions

/-- How a thread comes to a result: without a failure it performed all of its actions, and a failure is
the last thing it did. -/
def ComesTo (player : Player ε) : HookResult ε → Prop
  | .ok () => player.failures = [] ∧ player.acted = player.actions
  | .error error => ∃ earlier last, player.deeds = earlier ++ [last] ∧ last.failure? = some error ∧
      earlier.filterMap Deed.failure? = [] ∧ player.acted <+: player.actions

structure Accounts (player : Player ε) : Prop where
  ahead : ∀ actions, player.phase.ahead = some actions →
    player.failures = [] ∧ player.acted ++ actions = player.actions
  result : ∀ result, player.phase.result? = some result → player.ComesTo result
  outside : player.phase.ahead = none → player.phase.result? = none → player.deeds = []

def OnStage (player : Player ε) : Prop :=
  player.phase.ahead.isSome ∨ ∃ result, player.phase = .ending result

variable {player : Player ε} {actions : List Action}

theorem OnStage.moves (onStage : player.OnStage) : player.phase ≠ .starting ∧
    player.phase ≠ .abandoned ∧ ∀ result, player.phase ≠ .gone result := by
  rcases onStage with running | ⟨result, ending⟩
  · refine ⟨?_, ?_, fun result => ?_⟩ <;> intro phase <;> rw [phase] at running <;> cases running
  · rw [ending]
    exact ⟨nofun, nofun, nofun⟩

theorem acted_did (player : Player ε) (deed : Deed ε) (phase : Phase ε) :
    (player.did deed phase).acted = player.acted ++ deed.action?.toList := by
  rw [acted, did, List.filterMap_append, ← acted]
  cases h : deed.action? <;> simp [h]

theorem failures_did (player : Player ε) (deed : Deed ε) (phase : Phase ε) :
    (player.did deed phase).failures = player.failures ++ deed.failure?.toList := by
  rw [failures, did, List.filterMap_append, ← failures]
  cases h : deed.failure? <;> simp [h]

theorem accounts_of_ahead (ahead : player.phase.ahead = some actions)
    (clean : player.failures = []) (all : player.acted ++ actions = player.actions) :
    player.Accounts := by
  refine ⟨fun actions' same => ?_, fun result same => ?_, fun none _ => ?_⟩
  · cases ahead.symm.trans same
    exact ⟨clean, all⟩
  · cases phase : player.phase <;> rw [phase] at ahead same <;> cases ahead <;> cases same
  · cases ahead.symm.trans none

theorem accounts_of_result {result : HookResult ε} (same : player.phase.result? = some result)
    (comes : player.ComesTo result) : player.Accounts := by
  refine ⟨fun actions ahead => ?_, fun result' other => ?_, fun _ none => ?_⟩
  · cases phase : player.phase <;> rw [phase] at ahead same <;> cases ahead <;> cases same
  · cases same.symm.trans other
    exact comes
  · cases same.symm.trans none

theorem ComesTo.failures_eq {result : HookResult ε} (comes : player.ComesTo result) :
    player.failures = (errorOf result).toList := by
  cases result with
  | ok => exact comes.1
  | error error =>
      obtain ⟨earlier, last, deeds, fails, clean, -⟩ := comes
      rw [failures, deeds, List.filterMap_append, clean]
      simp [fails, errorOf]

theorem ComesTo.silent {result : HookResult ε} (comes : player.ComesTo result)
    {earlier later : List (Deed ε)} {deed : Deed ε} (deeds : player.deeds = earlier ++ deed :: later)
    (fails : deed.failure?.isSome) : later = [] := by
  obtain ⟨error, failed⟩ := Option.isSome_iff_exists.mp fails
  cases result with
  | ok =>
      have none := List.filterMap_eq_nil_iff.mp comes.1 deed (by simp [deeds])
      cases failed.symm.trans none
  | error =>
      obtain ⟨before, last, same, -, clean, -⟩ := comes
      rcases List.eq_nil_or_concat later with nil | ⟨rest, final, rfl⟩
      · exact nil
      · have split : (earlier ++ deed :: rest) ++ [final] = before ++ [last] := by
          rw [← same, deeds]
          simp
        have inside : deed ∈ before := by
          rw [← (List.append_inj' split rfl).1]
          simp
        have none := List.filterMap_eq_nil_iff.mp clean deed inside
        cases failed.symm.trans none

structure Goes (player player' : Player ε) : Prop where
  thread : player'.thread = player.thread
  steps : player'.steps = player.steps
  onStage : player.OnStage
  onStage' : player'.OnStage
  accounts : player.Accounts → player'.Accounts

theorem goes_become {phase : Phase ε} (ahead : player.phase.ahead = some actions)
    (same : phase.ahead = some actions) : player.Goes (player.become phase) := by
  refine ⟨rfl, rfl, .inl (ahead ▸ rfl), .inl (same ▸ rfl), fun accounts => ?_⟩
  obtain ⟨clean, all⟩ := accounts.ahead actions ahead
  exact accounts_of_ahead same clean all

theorem goes_did {deed : Deed ε} {phase : Phase ε} (action : Option Action)
    (ahead : player.phase.ahead = some (action.toList ++ actions)) (acts : deed.action? = action)
    (clean : deed.failure? = none) (same : phase.ahead = some actions) :
    player.Goes (player.did deed phase) := by
  refine ⟨rfl, rfl, .inl (ahead ▸ rfl), .inl (same ▸ rfl), fun accounts => ?_⟩
  obtain ⟨none, all⟩ := accounts.ahead _ ahead
  refine accounts_of_ahead same ?_ ?_
  · rw [failures_did, none, clean]
    rfl
  · rw [acted_did, acts, List.append_assoc]
    exact all

theorem goes_failed {deed : Deed ε} {error : HookError ε} (ahead : player.phase.ahead = some actions)
    (idle : deed.action? = none) (fails : deed.failure? = some error) :
    player.Goes (player.did deed (.ending (.error error))) := by
  refine ⟨rfl, rfl, .inl (ahead ▸ rfl), .inr ⟨_, rfl⟩, fun accounts => ?_⟩
  obtain ⟨clean, all⟩ := accounts.ahead actions ahead
  refine accounts_of_result rfl ⟨player.deeds, deed, rfl, fails, clean, actions, ?_⟩
  rw [acted_did, idle, Option.toList_none, List.append_nil]
  exact all

theorem goes_ended (ahead : player.phase.ahead = some []) :
    player.Goes (player.become (.ending (.ok ()))) := by
  refine ⟨rfl, rfl, .inl (ahead ▸ rfl), .inr ⟨_, rfl⟩, fun accounts => ?_⟩
  obtain ⟨clean, all⟩ := accounts.ahead [] ahead
  exact accounts_of_result rfl ⟨clean, (List.append_nil _).symm.trans all⟩

theorem goes_answer (ahead : player.phase.ahead = some actions) (activations : Activations)
    (result : HookResult ε) : player.Goes (player.answer activations actions result) := by
  cases result with
  | ok =>
      exact goes_did none ahead rfl rfl rfl
  | error error => exact goes_failed ahead rfl rfl

theorem goes_inspect (ahead : player.phase.ahead = some []) (result : HookResult ε) :
    player.Goes (player.inspect result) := by
  cases result with
  | ok =>
      refine ⟨rfl, rfl, .inl (ahead ▸ rfl), .inr ⟨_, rfl⟩, fun accounts => ?_⟩
      obtain ⟨clean, all⟩ := accounts.ahead [] ahead
      refine accounts_of_result rfl ⟨?_, ?_⟩
      · rw [inspect, failures_did, clean]
        rfl
      · rw [inspect, acted_did]
        exact all
  | error error => exact goes_failed ahead rfl rfl

theorem goes_perform {action : Action} (ahead : player.phase.ahead = some (action :: actions))
    (performed : Performed) : player.Goes (player.perform actions action performed) := by
  simp only [perform]
  split <;> exact goes_did (some action) ahead rfl rfl rfl

theorem Goes.trans {a b c : Player ε} (first : a.Goes b) (second : b.Goes c) : a.Goes c where
  thread := second.thread.trans first.thread
  steps := second.steps.trans first.steps
  onStage := first.onStage
  onStage' := second.onStage'
  accounts accounts := second.accounts (first.accounts accounts)

theorem goes_arrive (ahead : player.phase.ahead = some actions) (event : Event)
    (activations : Activations) (arrived : Option (Thread × ContextId)) :
    player.Goes (player.arrive event activations actions arrived) := by
  cases arrived with
  | none =>
      have notified : player.Goes (player.did (.notified event) (.notifying event activations actions)) :=
        goes_did none ahead rfl rfl rfl
      exact notified.trans (goes_answer rfl activations (.ok ()))
  | some arrived => exact goes_did none ahead rfl rfl rfl

theorem goes_contend {errand : Errand} (ahead : player.phase.ahead = some errand.actions) (event : Event)
    (turn : Turn × Debugger) : player.Goes (player.contend errand event turn) := by
  obtain ⟨_ | _ | reason, d⟩ := turn
  · exact goes_become ahead rfl
  · exact goes_answer ahead errand.activations (.ok ())
  · exact goes_become ahead rfl

theorem goes_finish (ahead : player.phase.ahead = some []) (activations : Activations) :
    player.Goes (player.finish activations) := by
  simp only [finish]
  split
  · exact goes_ended ahead
  · exact goes_become ahead rfl

theorem goes_enter (ahead : player.phase.ahead = some [])
    (entered : Except Error (ContextId × Bool × Bool)) : player.Goes (player.enter entered) := by
  cases entered with
  | ok before => exact goes_become ahead rfl
  | error error => exact goes_inspect ahead (.error (.debugger error))

theorem goes_leave (ahead : player.phase.ahead = some []) (failure : Option ε)
    (left : Except Error Unit) : player.Goes (player.leave failure left) := by
  cases left with
  | ok => exact goes_inspect ahead (resultOf failure)
  | error error => exact goes_inspect ahead (.error (.debugger error))

end Player

namespace Production

open Player

theorem Act.goes {p p' : Production ε} {s : Nat} {player : Player ε} (act : p.Act s player p') :
    ∃ player' d, p' = p.move s player' d ∧ player.Goes player' ∧
      ∀ own, Host.Drifts own p.debugger.host d.host := by
  have stays {d : Debugger} (same : d.host = p.debugger.host) (own : Thread → Prop) :
      Host.Drifts own p.debugger.host d.host := by
    rw [same]
  have ahead {phase : Phase ε} {actions : List Action} (is : player.phase = phase)
      (same : phase.ahead = some actions) : player.phase.ahead = some actions := is ▸ same
  cases act with
  | perform phase =>
      exact ⟨_, _, rfl, goes_perform (ahead phase rfl) _, fun _ => (Host.sameThreads_perform _ _ _ _).drifts⟩
  | @enter event _ _ phase =>
      refine ⟨_, _, rfl, goes_become (ahead phase rfl) rfl, fun own => ?_⟩
      simp only [onHost, entered]
      split
      · exact Host.drifts_enterScope _ _ _
      · exact .refl
  | notify phase =>
      exact ⟨_, _, rfl, goes_arrive (ahead phase rfl) _ _ _,
        fun _ => (p.debugger.tends_arrive s _).host.drifts⟩
  | ask phase =>
      exact ⟨_, _, rfl, goes_contend (ahead phase rfl) _ _, stays (Debugger.host_contend _ _ _ _)⟩
  | awake phase _ =>
      exact ⟨_, _, rfl, goes_contend (ahead phase rfl) _ _, stays (Debugger.host_contend _ _ _ _)⟩
  | @dispatch errand event _ phase =>
      refine ⟨_, _, rfl, goes_become (ahead phase rfl) rfl, fun own => ?_⟩
      rcases p.debugger.dispatch_cases s errand.context event with touches | ⟨_, _, _, met⟩
      · exact touches.host.drifts
      · exact met.drifts
  | answer phase =>
      exact ⟨_, _, rfl, goes_become (ahead phase rfl) rfl,
        fun _ => (Debugger.touches_run _ _ _ _).host.drifts⟩
  | fail error phase => exact ⟨_, _, rfl, goes_become (ahead phase rfl) rfl, fun _ => .refl⟩
  | release phase =>
      exact ⟨_, _, rfl, goes_answer (ahead phase rfl) _ _, stays (Debugger.host_release _)⟩
  | finish phase => exact ⟨_, _, rfl, goes_finish (ahead phase rfl) _, fun _ => .refl⟩
  | consult phase _ | mourn phase _ => exact ⟨_, _, rfl, goes_become (ahead phase rfl) rfl, fun _ => .refl⟩
  | forget phase _ | shrug phase _ => exact ⟨_, _, rfl, goes_ended (ahead phase rfl), fun _ => .refl⟩
  | pass phase _ => exact ⟨_, _, rfl, goes_inspect (ahead phase rfl) _, fun _ => .refl⟩
  | inspect phase _ =>
      exact ⟨_, _, rfl, goes_enter (ahead phase rfl) _,
        fun _ => (p.debugger.tends_enterPostMortem s).host.drifts⟩
  | refuse error phase => exact ⟨_, _, rfl, goes_enter (ahead phase rfl) _, fun _ => .refl⟩
  | look failure phase => exact ⟨_, _, rfl, goes_become (ahead phase rfl) rfl, fun _ => .refl⟩
  | leave phase =>
      exact ⟨_, _, rfl, goes_leave (ahead phase rfl) _ _,
        fun _ => (p.debugger.tends_leavePostMortem s _).host.drifts⟩
  | spoil error phase => exact ⟨_, _, rfl, goes_leave (ahead phase rfl) _ _, fun _ => .refl⟩

end Production

end EventDebugger
