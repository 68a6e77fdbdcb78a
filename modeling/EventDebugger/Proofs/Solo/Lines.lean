import EventDebugger.Replay.Action
import EventDebugger.Event

/-!
# The lines of a thread

What the steps of a thread execute, read off the steps themselves: the lines in order, where a loop
executes its body again and an exception passes over the rest up to the rescue around it.

* `Step.executes_toActionsAll`: the actions of a thread contain these lines and no others.
-/

namespace EventDebugger

/-- The lines that were executed, in order, and whether an exception is on its way after them. -/
structure Executed where
  lines : List Position
  raised : Bool
deriving DecidableEq, Repr

namespace Executed

def nothing : Executed := ⟨[], false⟩

/-- One after the other; an exception passes over what comes later. -/
def andThen (first later : Executed) : Executed :=
  if first.raised then first else ⟨first.lines ++ later.lines, later.raised⟩

def again (once : Executed) : Nat → Executed
  | 0 => nothing
  | count + 1 => once.andThen (once.again count)

end Executed

namespace Step

mutual

def executed : Step → Executed
  | .line file number => ⟨[⟨file, number⟩], false⟩
  | .call _ _ _ _ body | .nativeCall _ _ body | .classBody _ _ body => executedAll body
  | .raise _ => ⟨[], true⟩
  | .rescue body => ⟨(executedAll body).lines, false⟩
  | .repeat count body => (executedAll body).again count
  | .branch .. | .bareReturn _ | .assign .. | .sleep _ | .pause _ => .nothing

def executedAll : List Step → Executed
  | [] => .nothing
  | step :: steps => (executed step).andThen (executedAll steps)

end

mutual

def isOrdinary : Step → Bool
  | .call method _ _ _ body => method != "allocate" && allOrdinary body
  | .raise className => className != "SystemExit"
  | .nativeCall _ _ body | .classBody _ _ body | .rescue body | .repeat _ body => allOrdinary body
  | .line .. | .branch .. | .bareReturn _ | .assign .. | .sleep _ | .pause _ => true

def allOrdinary : List Step → Bool
  | [] => true
  | step :: steps => step.isOrdinary && allOrdinary steps

end

end Step

namespace Action

def line? : Action → Option Position
  | .line file number false => some ⟨file, number⟩
  | _ => none

def isOrdinary : Action → Bool
  | .call method _ _ _ => method != "allocate"
  | .raise className => className != "SystemExit"
  | _ => true

end Action

namespace Actions

def Executes (actions : Actions) (executed : Executed) : Prop :=
  actions.actions.filterMap Action.line? = executed.lines ∧ actions.raised = executed.raised

def Acts (actions : Actions) : Prop := actions.actions = [] → actions.raised = false

def Tame (actions : Actions) : Prop := ∀ action ∈ actions.actions, action.isOrdinary

variable {first later : Actions} {once executed : Executed}

theorem Executes.andThen (h : first.Executes once) (h' : later.Executes executed) :
    (first.andThen later).Executes (once.andThen executed) := by
  unfold Actions.andThen Executed.andThen
  rw [h.2]
  split
  · exact h
  · exact ⟨by rw [List.filterMap_append, h.1, h'.1], h'.2⟩

theorem Executes.within (h : first.Executes once) {before after : List Action}
    (opens : before.filterMap Action.line? = []) (closes : after.filterMap Action.line? = []) :
    (Actions.within before first after).Executes once := by
  refine ⟨?_, h.2⟩
  rw [Actions.within, List.filterMap_append, List.filterMap_append, opens, closes, h.1, List.append_nil]
  rfl

theorem Executes.rescued (h : first.Executes once) : first.rescued.Executes ⟨once.lines, false⟩ := by
  unfold Actions.rescued
  split
  · refine ⟨?_, rfl⟩
    rw [List.filterMap_append, h.1]
    exact List.append_nil _
  · next calm => exact ⟨h.1, Bool.eq_false_iff.mpr calm⟩

theorem Executes.times (h : first.Executes once) (acts : first.Acts) (count : Nat) :
    (first.times count).Executes (once.again count) := by
  have lines (count : Nat) : ((List.replicate count first.actions).flatten).filterMap Action.line? =
      (List.replicate count once.lines).flatten := by
    rw [← h.1, List.filterMap_flatten, List.map_replicate]
  have calm (quiet : once.raised = false) (count : Nat) :
      once.again count = ⟨(List.replicate count once.lines).flatten, false⟩ := by
    induction count with
    | zero => rfl
    | succ count ih => simp [Executed.again, Executed.andThen, quiet, ih, List.replicate_succ]
  unfold Actions.times
  split
  · next idle =>
      rcases idle with rfl | empty
      · exact ⟨rfl, rfl⟩
      · have empty := List.isEmpty_iff.mp empty
        have none : once.lines = [] := by rw [← h.1, empty]; rfl
        rw [calm (h.2.symm.trans (acts empty)), none]
        exact ⟨by simp [Actions.none], rfl⟩
  · next busy =>
      obtain ⟨count, rfl⟩ := Nat.exists_eq_succ_of_ne_zero fun zero => busy (.inl zero)
      -- A body that raises is executed once.
      split
      · next raises =>
          have same : once.again (count + 1) = once := if_pos (h.2 ▸ raises)
          rw [same]
          exact h
      · next quiet =>
          rw [calm (h.2 ▸ Bool.eq_false_iff.mpr quiet)]
          exact ⟨lines _, rfl⟩

theorem Acts.andThen (h : first.Acts) (h' : later.Acts) : (first.andThen later).Acts := by
  unfold Actions.andThen Acts
  split
  · exact h
  · exact fun empty => h' (List.append_eq_nil_iff.mp empty).2

theorem Acts.times (h : first.Acts) (count : Nat) : (first.times count).Acts := by
  unfold Actions.times
  split
  · exact fun _ => rfl
  · split
    · exact h
    · exact fun _ => rfl

theorem Tame.andThen (h : first.Tame) (h' : later.Tame) : (first.andThen later).Tame := by
  unfold Actions.andThen
  split
  · exact h
  · exact fun action member => (List.mem_append.mp member).elim (h action) (h' action)

theorem Tame.within (h : first.Tame) {before after : List Action}
    (opens : ∀ action ∈ before, action.isOrdinary) (closes : ∀ action ∈ after, action.isOrdinary) :
    (Actions.within before first after).Tame := by
  intro action member
  rcases List.mem_append.mp member with inside | closing
  · exact (List.mem_append.mp inside).elim (opens action) (h action)
  · exact closes action closing

theorem Tame.rescued (h : first.Tame) : first.rescued.Tame := by
  unfold Actions.rescued
  split
  · intro action member
    rcases List.mem_append.mp member with inside | caught
    · exact h action inside
    · rw [List.mem_singleton.mp caught]
      rfl
  · exact h

theorem Tame.times (h : first.Tame) (count : Nat) : (first.times count).Tame := by
  unfold Actions.times
  split
  · nofun
  · split
    · exact h
    · intro action member
      obtain ⟨once, copies, inside⟩ := List.mem_flatten.mp member
      rw [List.eq_of_mem_replicate copies] at inside
      exact h action inside

end Actions

namespace Step

mutual

theorem acts_toActions : (step : Step) → step.toActions.Acts
  | .line .. | .branch .. | .bareReturn _ | .assign .. | .sleep _ | .pause _ => fun _ => rfl
  | .nativeCall _ _ [] => fun _ => rfl
  | .call .. | .nativeCall _ _ (_ :: _) | .classBody .. | .raise _ => nofun
  | .rescue body => by
      unfold toActions Actions.rescued
      split
      · exact fun _ => rfl
      · exact acts_toActionsAll body
  | .repeat count body => (acts_toActionsAll body).times count

theorem acts_toActionsAll : (steps : List Step) → (toActionsAll steps).Acts
  | [] => fun _ => rfl
  | step :: steps => (acts_toActions step).andThen (acts_toActionsAll steps)

end

mutual

theorem executes_toActions : (step : Step) → step.toActions.Executes step.executed
  | .line .. | .branch .. | .bareReturn _ | .assign .. | .sleep _ | .pause _ | .raise _ => ⟨rfl, rfl⟩
  | .nativeCall _ _ [] => ⟨rfl, rfl⟩
  | .call _ _ _ _ body => (executes_toActionsAll body).within rfl rfl
  | .nativeCall _ _ (step :: steps) => (executes_toActionsAll (step :: steps)).within rfl rfl
  | .classBody _ _ body => (executes_toActionsAll body).within rfl rfl
  | .rescue body => (executes_toActionsAll body).rescued
  | .repeat count body => (executes_toActionsAll body).times (acts_toActionsAll body) count

theorem executes_toActionsAll : (steps : List Step) → (toActionsAll steps).Executes (executedAll steps)
  | [] => ⟨rfl, rfl⟩
  | step :: steps => (executes_toActions step).andThen (executes_toActionsAll steps)

end

mutual

theorem tame_toActions : (step : Step) → step.isOrdinary → step.toActions.Tame
  | .line .., _ | .branch .., _ | .bareReturn _, _ | .assign .., _ | .sleep _, _ | .pause _, _ => by
      simp [toActions, Actions.Tame, Actions.one, Actions.none, Action.isOrdinary]
  | .raise className, ordinary => by
      simpa [toActions, Actions.Tame, Action.isOrdinary, isOrdinary] using ordinary
  | .nativeCall _ _ [], _ => by simp [toActions, Actions.Tame, Action.isOrdinary]
  | .call _ _ _ _ body, ordinary => by
      simp only [isOrdinary, Bool.and_eq_true] at ordinary
      exact (tame_toActionsAll body ordinary.2).within (by simpa [Action.isOrdinary] using ordinary.1)
        (by simp [Action.isOrdinary])
  | .nativeCall _ _ (step :: steps), ordinary =>
      (tame_toActionsAll (step :: steps) ordinary).within (by simp [Action.isOrdinary])
        (by simp [Action.isOrdinary])
  | .classBody _ _ body, ordinary =>
      (tame_toActionsAll body ordinary).within (by simp [Action.isOrdinary]) (by simp [Action.isOrdinary])
  | .rescue body, ordinary => (tame_toActionsAll body ordinary).rescued
  | .repeat count body, ordinary => (tame_toActionsAll body ordinary).times count

theorem tame_toActionsAll : (steps : List Step) → allOrdinary steps → (toActionsAll steps).Tame
  | [], _ => nofun
  | step :: steps, ordinary => by
      simp only [allOrdinary, Bool.and_eq_true] at ordinary
      exact (tame_toActions step ordinary.1).andThen (tame_toActionsAll steps ordinary.2)

end

end Step

end EventDebugger
