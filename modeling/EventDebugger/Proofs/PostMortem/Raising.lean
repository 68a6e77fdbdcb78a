import EventDebugger.Proofs.Solo.Stepping

/-!
# The exception on its way

The exception that is on its way after some actions is that of the last one that raised, unless it was
caught since then.

* `Step.raised_iff`: whether the steps of a thread end with an exception.
-/

namespace EventDebugger

namespace Action

def passes : Action → Bool
  | .raise _ | .rescue => false
  | _ => true

def carries (raised : Bool) : Action → Bool
  | .raise _ => true
  | .rescue => false
  | _ => raised

def isHeard : Action → Bool
  | .call method _ _ _ => method != "allocate"
  | _ => true

variable {action : Action}

theorem carries_of_passes (passes : action.passes) (raised : Bool) : action.carries raised = raised := by
  cases action <;> first | rfl | cases passes

end Action

def carried (raised : Bool) (actions : List Action) : Bool := actions.foldl Action.carries raised

theorem carried_append (raised : Bool) (first later : List Action) :
    carried raised (first ++ later) = carried (carried raised first) later := List.foldl_append

theorem carried_of_passes {actions : List Action} (passes : ∀ action ∈ actions, action.passes)
    (raised : Bool) : carried raised actions = raised := by
  induction actions with
  | nil => rfl
  | cons action actions ih =>
      obtain ⟨first, later⟩ := List.forall_mem_cons.mp passes
      rw [carried, List.foldl_cons, Action.carries_of_passes first]
      exact ih later

/-- The last exception that the actions raised is of a class, was raised after some of them, and nothing has
caught it. -/
def LastRaise (actions before : List Action) (className : String) : Prop :=
  ∃ after, actions = before ++ .raise className :: after ∧ ∀ action ∈ after, action.passes

variable {actions before before' : List Action} {className className' : String} {action : Action}

theorem lastRaise_concat (actions : List Action) (className : String) :
    LastRaise (actions ++ [.raise className]) actions className := ⟨[], rfl, nofun⟩

theorem LastRaise.concat (last : LastRaise actions before className) (passes : action.passes) :
    LastRaise (actions ++ [action]) before className := by
  obtain ⟨after, rfl, later⟩ := last
  refine ⟨after ++ [action], by simp, fun other member => ?_⟩
  rcases List.mem_append.mp member with old | new
  · exact later other old
  · rwa [List.mem_singleton.mp new]

theorem LastRaise.carried (last : LastRaise actions before className) (raised : Bool) :
    carried raised actions = true := by
  obtain ⟨after, rfl, later⟩ := last
  rw [carried_append, EventDebugger.carried, List.foldl_cons]
  exact carried_of_passes later true

theorem LastRaise.unique (last : LastRaise actions before className)
    (last' : LastRaise actions before' className') : before = before' ∧ className = className' := by
  obtain ⟨after, rfl, later⟩ := last
  obtain ⟨after', split, later'⟩ := last'
  rcases List.append_eq_append_iff.mp split with ⟨between, rfl, rest⟩ | ⟨between, rfl, rest⟩ <;>
    cases between with
    | nil =>
        cases rest
        exact ⟨by simp, rfl⟩
    | cons first between =>
        obtain ⟨rfl, rfl⟩ := List.cons.inj rest
        first
          | exact absurd (later (.raise className') (by simp)) nofun
          | exact absurd (later' (.raise className) (by simp)) nofun

theorem carried_iff : carried false actions = true ↔ ∃ before className, LastRaise actions before className := by
  refine ⟨fun raised => ?_, fun ⟨_, _, last⟩ => last.carried false⟩
  induction actions using List.reverseRecOn with
  | nil => cases raised
  | append_singleton actions action ih =>
      rw [carried_append] at raised
      cases action with
      | raise className => exact ⟨actions, className, lastRaise_concat actions className⟩
      | rescue => cases raised
      | _ =>
          obtain ⟨before, className, last⟩ := ih raised
          exact ⟨before, className, last.concat rfl⟩

/-! ## The actions of steps -/

namespace Actions

def Carries (actions : Actions) : Prop := carried false actions.actions = actions.raised

variable {first later : Actions}

theorem Carries.andThen (h : first.Carries) (h' : later.Carries) : (first.andThen later).Carries := by
  unfold Actions.andThen
  split
  · exact h
  · next calm =>
      have quiet : carried false first.actions = false := h.trans (Bool.eq_false_iff.mpr calm)
      unfold Carries
      rw [carried_append, quiet]
      exact h'

theorem Carries.within (h : first.Carries) {before after : List Action}
    (opens : ∀ action ∈ before, action.passes) (closes : ∀ action ∈ after, action.passes) :
    (Actions.within before first after).Carries := by
  unfold Carries Actions.within
  rw [carried_append, carried_append, carried_of_passes opens, carried_of_passes closes]
  exact h

theorem Carries.rescued (h : first.Carries) : first.rescued.Carries := by
  unfold Actions.rescued
  split
  · unfold Carries
    rw [carried_append]
    rfl
  · exact h

theorem Carries.times (h : first.Carries) (count : Nat) : (first.times count).Carries := by
  have copies (calm : first.raised = false) (count : Nat) :
      carried false (List.replicate count first.actions).flatten = false := by
    induction count with
    | zero => rfl
    | succ count ih =>
        rw [List.replicate_succ, List.flatten_cons, carried_append, h.trans calm]
        exact ih
  unfold Actions.times
  split
  · rfl
  · split
    · exact h
    · next calm => exact copies (Bool.eq_false_iff.mpr calm) count

end Actions

namespace Step

mutual

theorem carries_toActions : (step : Step) → step.toActions.Carries
  | .line .. | .branch .. | .bareReturn _ | .assign .. | .sleep _ | .pause _ | .raise _ => rfl
  | .nativeCall _ _ [] => rfl
  | .call _ _ _ _ body => (carries_toActionsAll body).within (by simp [Action.passes]) (by simp [Action.passes])
  | .nativeCall _ _ (step :: steps) =>
      (carries_toActionsAll (step :: steps)).within (by simp [Action.passes]) (by simp [Action.passes])
  | .classBody _ _ body => (carries_toActionsAll body).within (by simp [Action.passes]) (by simp [Action.passes])
  | .rescue body => (carries_toActionsAll body).rescued
  | .repeat count body => (carries_toActionsAll body).times count

theorem carries_toActionsAll : (steps : List Step) → (toActionsAll steps).Carries
  | [] => rfl
  | step :: steps => (carries_toActions step).andThen (carries_toActionsAll steps)

end

theorem raised_iff (steps : List Step) : (executedAll steps).raised = true ↔
    ∃ before className, LastRaise (toActionsAll steps).actions before className := by
  rw [← (executes_toActionsAll steps).2, ← show carried false _ = _ from carries_toActionsAll steps]
  exact carried_iff

end Step

/-! ## Activations -/

namespace Action

variable (thread : Thread) (activations : Activations) (host : Host)

theorem raised_perform {action : Action} (passes : action.passes) :
    (action.perform thread activations host).activations.raised = activations.raised := by
  have moved (f : Activation → Activation) : (activations.modifyTop f).raised = activations.raised := by
    unfold Activations.modifyTop
    split <;> rfl
  cases action with
  | line => exact moved _
  | raise | rescue => cases passes
  | _ => rfl

theorem kind_ne_raise {action : Action} (passes : action.passes) {event : Event}
    (notified : (action.perform thread activations host).event = some event) (exception : Value) :
    event.kind ≠ .raise exception := by
  intro kind
  cases action with
  | raise | rescue => cases passes
  | _ => cases notified <;> cases kind

theorem heard_perform {action : Action} (heard : action.isHeard) (h : activations.Heard) :
    (action.perform thread activations host).activations.Heard := by
  cases action with
  | line file number => exact h.modifyTop (f := fun top => { top with position := ⟨file, number⟩ }) fun _ => rfl
  | call method =>
      have named : Host.isAllocator (some method) = false := by simpa [Host.isAllocator, isHeard] using heard
      exact h.push named
  | callReturn | closeClass | leaveBlock => exact h.pop
  | openClass => exact h.push rfl
  | enterBlock => exact h.push h.top
  | _ => exact ⟨h.root, h.inner⟩

end Action

end EventDebugger
