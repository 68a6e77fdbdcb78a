import EventDebugger.Proofs.Renewal.Runs
import EventDebugger.Proofs.Ticket.Frames

/-!
# Restarts

A debugger that is stopped and started again keeps its settings, its catch-point, and its counts. It is
otherwise as one that was never started: contexts, call stacks, armed steps, suspensions and breakpoints of
the earlier activations make no difference.

* `World.calls_of_restart`: the calls after a restart, if the catch-point is clear.
* `World.caught_after_restart`: a catch-point of an earlier activation.
-/

namespace EventDebugger

namespace Renaming

def left (d : Debugger) : Renaming := ⟨d.contexts.size, d.contextCount, d.breakpointCount, d.wakeups, false⟩

def identity : Renaming := ⟨0, 0, 0, 0, true⟩

theorem act_identity (act : Act) : identity.act act = act := by
  have address (id : ContextId) : identity.address id = id := Nat.zero_add id
  cases act with
  | move move =>
      cases move with
      | request request =>
          cases request with
          | debugger command => cases command <;> rfl
          | context id command => simp only [Renaming.act, Renaming.request, address]
      | _ => rfl
  | skip id on => simp only [Renaming.act, address]
  | _ => rfl

end Renaming

namespace Debugger

def built (settings : Settings) (host : Host) : Debugger := { initial settings with host }

theorem numbered_built (settings : Settings) (host : Host) :
    Enumerated (built settings host).contexts (built settings host).contextCount (built settings host).lastHalted where
  positive _ known := absurd known (Nat.not_lt_zero _)
  counted _ known := absurd known (Nat.not_lt_zero _)
  distinct _ known := absurd known (Nat.not_lt_zero _)
  halted _ last := by cases last

theorem renames_built (settings : Settings) {host : Host} (listed : host.Listed) :
    Renames .identity (built settings host) (built settings host) where
  host := rfl
  settings := rfl
  startCount := rfl
  catchpoint := rfl
  size := rfl
  contexts _ known := absurd known (Nat.not_lt_zero _)
  contextCount := rfl
  breakpointCount := rfl
  wakeups := rfl
  halted _ _ := Iff.rfl
  phase _ := ⟨rfl, rfl⟩
  session := .none
  listed := listed
  numbered := numbered_built settings host

theorem renames_ended {d : Debugger} (ended : d.session = none) (count : d.startCount = 0)
    (clear : d.catchpoint = none) (listed : d.host.Listed) (halted : ∀ number ∈ d.lastHalted, number ≤ d.contextCount) :
    Renames (.left d) (built d.settings d.host) d where
  host := rfl
  settings := rfl
  startCount := count
  catchpoint := clear
  size := rfl
  contexts _ known := absurd known (Nat.not_lt_zero _)
  contextCount := (Nat.zero_add _).symm
  breakpointCount := (Nat.zero_add _).symm
  wakeups := (Nat.zero_add _).symm
  halted number positive := by
    refine ⟨fun last => ?_, fun last => by cases last⟩
    exact absurd (halted _ last) (Nat.not_le_of_lt (Nat.lt_add_of_pos_left positive))
  phase lockstep := by cases lockstep
  session := ended ▸ .none
  listed := listed
  numbered := numbered_built d.settings d.host

/-- An active debugger is deactivated by a stop, or by force. -/
def Deactivates (d d' : Debugger) : Prop := d.isStarted ∧ (d.stop = .ok (true, d') ∨ d' = d.forceStop)

theorem Deactivates.eq {d d' : Debugger} (h : d.Deactivates d') :
    d' = { d with startCount := 0, session := none, wakeups := d.wakeups + 1 } := by
  rcases h with ⟨active, stopped | rfl⟩
  · obtain ⟨_, _, stopped⟩ := except_bind_eq_ok stopped
    simp only at stopped
    split at stopped
    · cases stopped
    · next last =>
        cases stopped
        have none : d.startCount - 1 = 0 := Nat.eq_zero_of_not_pos last
        simp only [deactivate, wakeUp, none]
  · simp only [forceStop]
    exact if_pos active

end Debugger

namespace World

variable {w w' : World} {d : Debugger}

def built (settings : Settings) (host : Host) : World := ⟨.built settings host, fun _ => [], 0⟩

def launch (w : World) : World := w.become w.debugger.start.2

theorem Course.renames {allowed : World → Nat → Act → Prop} (course : Course allowed w w')
    (h : w.Renames .identity w) (lodged : w.Lodged) : w'.Renames .identity w' := by
  induction course with
  | refl => exact h
  | @step w' w'' s act course next ok ih =>
      have performed : Option.Rel (Renames .identity) (w'.perform? s act)
          (w'.perform? s (Renaming.identity.act act)) := ih.perform? (course.lodged lodged) fun _ _ _ => rfl
      rw [Renaming.act_identity, perform?_of_acts next] at performed
      cases performed with
      | some alike => exact alike

/-- After a restart, steps make the calls of the front-end that they make in a debugger that was never started
before, with the same settings and the same host, up to the numbering of contexts and breakpoints: in all runs
in which no event arrives from a thread that exited, if no exception class halts. -/
theorem calls_of_restart {settings : Settings} {host : Host} (own : host.OwnThreads) (listed : host.Listed)
    (course : Course Anything (built settings host) w) (idle : ∀ s, w.tasks s = [])
    (stopped : w.debugger.Deactivates d) (clear : w.debugger.catchpoint = none) (steps : List (Nat × Act)) :
    (w.become d).launch.hear? Living (steps.map (Renaming.left d).step) =
      ((built w.debugger.settings w.debugger.host).launch.hear? Living steps).map
        (List.map (Renaming.left d).callback) := by
  have lodged := course.lodged (.of_idle (fun _ => rfl) own (.of_ended rfl))
  have reached := (course.renames ⟨Debugger.renames_built settings listed, fun _ => .nil⟩
    (.of_idle (fun _ => rfl) own (.of_ended rfl))).debugger
  have renames : EventDebugger.Renames (.left d) (.built w.debugger.settings w.debugger.host) d := by
    obtain rfl := stopped.eq
    exact Debugger.renames_ended rfl rfl clear reached.listed reached.numbered.halted
  have alike : Renames (.left d) (built w.debugger.settings w.debugger.host).launch (w.become d).launch := by
    refine ⟨renames.start, fun s => ?_⟩
    change List.Forall₂ _ [] (w.tasks s)
    rw [idle s]
    exact .nil
  refine alike.hear? (.of_idle (fun _ => rfl) lodged.own ?_) steps
  exact renames.start.wellTracked.1

/-! ## A breakpoint, a catch-point and a step before a restart -/

def stepping : List (Nat × Act) :=
  let moves : List Move := [.request (.debugger .start),
    .request (.debugger (.addBreakpoint "a.rb" (.line 1) none)), .arrive bareLine, .ask, .dispatch, .answer,
    .request (.context 0 (.step 1 true)), .answer, .release]
  moves.map fun move => (0, .move move)

def resetting : List (Nat × Act) :=
  let moves : List Move := Move.ofEvent bareLine ++ [.request (.debugger (.addBreakpoint "a.rb" (.line 2) none)),
    .arrive { bareLine with position := some ⟨"a.rb", 2⟩ }, .ask, .dispatch, .answer]
  moves.map fun move => (0, .move move)

def stepped : World := unstarted.afterwards stepping

theorem calls_of_restepped : Course Anything unstarted stepped ∧ (∀ s, stepped.tasks s = []) ∧
    stepped.debugger.Deactivates stepped.debugger.forceStop ∧ stepped.debugger.catchpoint = none ∧
    (stepped.become stepped.debugger.forceStop).launch.hear? Living
        (resetting.map (Renaming.left stepped.debugger.forceStop).step) =
      some [.breakpoint 1 ⟨2, "a.rb", .line 2, none⟩, .line 1 ⟨"a.rb", 2⟩] := by
  have course : Course Anything (built .standard .initial) stepped := course_afterwards unstarted stepping
  have idle (s : Nat) : stepped.tasks s = [] := by
    cases s <;> rfl
  have stopped : stepped.debugger.Deactivates stepped.debugger.forceStop := ⟨rfl, .inr rfl⟩
  refine ⟨course, idle, stopped, rfl, ?_⟩
  rw [calls_of_restart Host.ownThreads_initial Host.listed_initial course idle stopped rfl]
  rfl

def caughtBefore : World := unstarted.afterwards [(0, .move (.request (.debugger .start))),
  (0, .move (.request (.debugger (.setCatchpoint (some "RuntimeError")))))]

def failing : List (Nat × Act) :=
  let moves : List Move := Move.ofEvent bareLine ++ [.arrive raiseNext, .ask, .dispatch]
  moves.map fun move => (0, .move move)

/-- The front-end is called for a catch-point that was set before the restart. -/
theorem caught_after_restart : Course Anything unstarted caughtBefore ∧ (∀ s, caughtBefore.tasks s = []) ∧
    caughtBefore.debugger.Deactivates caughtBefore.debugger.forceStop ∧
    (caughtBefore.become caughtBefore.debugger.forceStop).launch.hear? Living
        (failing.map (Renaming.left caughtBefore.debugger.forceStop).step) =
      some [.catchpoint 0 (.exception "RuntimeError" 1)] ∧
    (built caughtBefore.debugger.settings caughtBefore.debugger.host).launch.hear? Living failing = some [] := by
  refine ⟨course_afterwards unstarted _, fun s => ?_, ⟨rfl, .inr rfl⟩, rfl, rfl⟩
  cases s <;> rfl

end World

end EventDebugger
