import EventDebugger.Proofs.Ticket.Snapshots

/-!
# Arguments of commands

What the commands of a context refuse. A number of steps is kept in a counter of 32 bits, and the index of a frame
is counted from the innermost one. The arguments are looked at in a fixed order, and the first one that is wrong is
the one that is reported.

* `Context.step_eq_error`, `Context.stepOver_eq_error`, `Context.stopFrame_eq_error`: all errors, for all arguments.
* `Debugger.arguments_checked`: the same for a context of a debugger, and the depths that are kept.
-/

namespace EventDebugger

theorem except_map_eq_error {ε α β : Type} {x : Except ε α} {f : α → β} {error : ε} :
    (x >>= fun a => pure (f a)) = .error error ↔ x = .error error := by
  cases x with
  | error refused =>
      change Except.error refused = .error error ↔ _
      rw [Except.error.injEq, Except.error.injEq]
  | ok a =>
      change Except.ok (f a) = .error error ↔ _
      simp only [reduceCtorEq]

namespace Context

variable {n index : Int} {size i : Nat} {error : Error}

def Counts (n : Int) : Prop := 0 ≤ n ∧ n < 4294967296

instance (n : Int) : Decidable (Counts n) := inferInstanceAs (Decidable (_ ∧ _))

theorem checkSteps_eq_error_iff : checkSteps n = .error error ↔ ¬ Counts n ∧ error = .negativeSteps := by
  simp only [checkSteps, Counts]
  split
  · next counts => exact iff_of_false (fun refused => nomatch refused) (fun refused => refused.1 counts)
  · next refused =>
      simp only [refused, Except.error.injEq, not_false_eq_true, true_and]
      exact eq_comm

theorem checkSteps_eq_ok_iff : checkSteps n = .ok i ↔ Counts n ∧ (i : Int) = n := by
  simp only [checkSteps, Counts]
  split
  · next counts =>
      simp only [counts, Except.ok.injEq, true_and]
      omega
  · next refused => simp only [refused, reduceCtorEq, false_and]

theorem checkFrame_eq_error_iff : checkFrame index size = .error error ↔
    index < 0 ∧ error = .invalidFrame index ∨ size ≤ index ∧ error = .frameOutOfRange index size := by
  simp only [checkFrame]
  split
  · next negative =>
      have inside : ¬ (size : Int) ≤ index := by omega
      simp only [negative, inside, Except.error.injEq, true_and, false_and, or_false]
      exact eq_comm
  · next natural =>
      split
      · next outside =>
          simp only [natural, outside, Except.error.injEq, true_and, false_and, false_or]
          exact eq_comm
      · next inside => simp only [natural, inside, reduceCtorEq, false_and, or_false]

theorem checkFrame_eq_ok_iff : checkFrame index size = .ok i ↔ (i : Int) = index ∧ i < size := by
  simp only [checkFrame]
  split
  · next negative =>
      simp only [reduceCtorEq, false_iff]
      omega
  · next natural =>
      split
      · next outside =>
          simp only [reduceCtorEq, false_iff]
          omega
      · next inside =>
          simp only [Except.ok.injEq]
          omega

/-! ## The commands -/

variable {context : Context} {frame : Option Int} {force : Bool}

theorem step_eq_error : context.step n force = .error error ↔ ¬ Counts n ∧ error = .negativeSteps := by
  rw [step, except_map_eq_error, checkSteps_eq_error_iff]

theorem stopFrame_eq_error : context.stopFrame index = .error error ↔
    index < 0 ∧ error = .invalidFrame index ∨
      context.depth ≤ index ∧ error = .frameOutOfRange index context.depth := by
  rw [stopFrame, except_map_eq_error, checkFrame_eq_error_iff]

theorem stepOver_eq (counts : Counts n) (framed : context.depth ≠ 0) :
    context.stepOver n frame force = do
      let i ← checkFrame (frame.getD 0) context.depth
      return { context with
        stopLine := .armed n.toNat, stepped := false, targetDepth := some (context.depth - i), forced := force } := by
  have steps : checkSteps n = .ok n.toNat := checkSteps_eq_ok_iff.mpr ⟨counts, Int.toNat_of_nonneg counts.1⟩
  have nonempty : context.stack.isEmpty = false := by
    rw [List.isEmpty_eq_false_iff]
    exact fun empty => framed (List.length_eq_zero_iff.mpr empty)
  have innermost : checkFrame 0 context.depth = .ok 0 := checkFrame_eq_ok_iff.mpr ⟨rfl, Nat.pos_of_ne_zero framed⟩
  rw [stepOver, steps]
  cases frame with
  | some index =>
      simp only [bind, Except.bind, nonempty, Bool.false_eq_true, if_false, Option.getD_some]
  | none =>
      simp only [bind, Except.bind, nonempty, Bool.false_eq_true, if_false, Option.getD_none, innermost, pure,
        Except.pure]

theorem stepOver_of_unframed (counts : Counts n) (unframed : context.depth = 0) :
    context.stepOver n frame force = .error .noFrames := by
  have steps : checkSteps n = .ok n.toNat := checkSteps_eq_ok_iff.mpr ⟨counts, Int.toNat_of_nonneg counts.1⟩
  have empty : context.stack = [] := List.length_eq_zero_iff.mp unframed
  rw [stepOver, steps]
  simp only [bind, Except.bind, empty, List.isEmpty_nil, if_true]
  rfl

theorem stepOver_of_refused (refused : ¬ Counts n) :
    context.stepOver n frame force = .error .negativeSteps := by
  rw [stepOver, checkSteps_eq_error_iff.mpr ⟨refused, rfl⟩]
  rfl

theorem stepOver_eq_error : context.stepOver n frame force = .error error ↔
    if ¬ Counts n then error = .negativeSteps
    else if context.depth = 0 then error = .noFrames
    else if frame.getD 0 < 0 then error = .invalidFrame (frame.getD 0)
    else context.depth ≤ frame.getD 0 ∧ error = .frameOutOfRange (frame.getD 0) context.depth := by
  split
  · next refused =>
      rw [stepOver_of_refused refused, Except.error.injEq, eq_comm]
  · next counts =>
      split
      · next unframed =>
          rw [stepOver_of_unframed (not_not.mp counts) unframed, Except.error.injEq, eq_comm]
      · next framed =>
          have refuses : context.stepOver n frame force = .error error ↔
              checkFrame (frame.getD 0) context.depth = .error error := by
            rw [stepOver_eq (not_not.mp counts) framed, except_map_eq_error]
          rw [refuses, checkFrame_eq_error_iff]
          by_cases negative : frame.getD 0 < 0
          · have inside : ¬ (context.depth : Int) ≤ frame.getD 0 := by omega
            simp only [negative, inside, true_and, false_and, or_false, if_true]
          · simp only [negative, false_and, false_or, if_false]

theorem depth_of_frame (found : checkFrame index size = .ok i) :
    ((size - i : Nat) : Int) = size - index ∧ 1 ≤ size - i ∧ size - i ≤ size := by
  obtain ⟨same, inside⟩ := checkFrame_eq_ok_iff.mp found
  omega

theorem depth_of_stepOver {after : Context} (commanded : context.stepOver n frame force = .ok after) :
    ∃ depth, after.targetDepth = some depth ∧ (depth : Int) = context.depth - frame.getD 0 ∧
      1 ≤ depth ∧ depth ≤ context.depth := by
  have kept (error : Error) : context.stepOver n frame force ≠ .error error := by
    rw [commanded]
    exact fun refused => nomatch refused
  have counts : Counts n := by
    by_contra refused
    exact kept .negativeSteps (stepOver_of_refused refused)
  have framed : context.depth ≠ 0 := fun unframed => kept .noFrames (stepOver_of_unframed counts unframed)
  rw [stepOver_eq counts framed] at commanded
  obtain ⟨i, found, same⟩ := except_bind_eq_ok commanded
  cases same
  exact ⟨_, rfl, depth_of_frame found⟩

theorem depth_of_stopFrame {after : Context} (commanded : context.stopFrame index = .ok after) :
    ∃ depth, after.finishDepth = some depth ∧ (depth : Int) = context.depth - index ∧
      1 ≤ depth ∧ depth ≤ context.depth := by
  obtain ⟨i, found, same⟩ := except_bind_eq_ok commanded
  cases same
  exact ⟨_, rfl, depth_of_frame found⟩

end Context

namespace Debugger

variable {d : Debugger} {id : ContextId}

theorem command_eq_error (started : d.isStarted = true) {f : Context → Except Error Context} {error : Error} :
    d.command id f = .error error ↔ f (d.context id) = .error error := by
  rw [command, except_map_eq_error, inspect, if_pos started]

theorem context_of_command (known : id < d.contexts.size) {f : Context → Except Error Context} {d' : Debugger}
    (commanded : d.command id f = .ok d') : f (d.context id) = .ok (d'.context id) := by
  obtain ⟨context, changed, same⟩ := except_bind_eq_ok commanded
  cases same
  rw [d.context_updateContext_self _ known]
  rw [inspect] at changed
  split at changed
  · exact changed
  · cases changed

/-- The commands of a context of an active debugger, on a stack of any size: which arguments they refuse, with which
error, and the depth that they keep otherwise. -/
theorem arguments_checked (started : d.isStarted = true) (known : id < d.contexts.size) {n : Int}
    (fits : n < 4294967296) (index : Int) (frame : Option Int) (force : Bool) :
    let size := (d.context id).depth
    let meant := frame.getD 0
    (∀ error, d.command id (·.step n force) = .error error ↔ n < 0 ∧ error = .negativeSteps) ∧
    (∀ error, d.command id (·.stepOver n frame force) = .error error ↔
      if n < 0 then error = .negativeSteps
      else if size = 0 then error = .noFrames
      else if meant < 0 then error = .invalidFrame meant
      else size ≤ meant ∧ error = .frameOutOfRange meant size) ∧
    (∀ error, d.command id (·.stopFrame index) = .error error ↔
      index < 0 ∧ error = .invalidFrame index ∨ size ≤ index ∧ error = .frameOutOfRange index size) ∧
    (∀ d', d.command id (·.stepOver n frame force) = .ok d' → ∃ depth,
      (d'.context id).targetDepth = some depth ∧ (depth : Int) = size - meant ∧ 1 ≤ depth ∧ depth ≤ size) ∧
    (∀ d', d.command id (·.stopFrame index) = .ok d' → ∃ depth,
      (d'.context id).finishDepth = some depth ∧ (depth : Int) = size - index ∧ 1 ≤ depth ∧ depth ≤ size) := by
  intro size meant
  have refused : ¬ Context.Counts n ↔ n < 0 := by
    rw [Context.Counts]
    omega
  refine ⟨fun error => ?_, fun error => ?_, fun error => ?_, fun d' commanded => ?_, fun d' commanded => ?_⟩
  · rw [command_eq_error started, Context.step_eq_error, refused]
  · rw [command_eq_error started, Context.stepOver_eq_error]
    simp only [refused]
    rfl
  · rw [command_eq_error started, Context.stopFrame_eq_error]
  · exact Context.depth_of_stepOver (context_of_command known commanded)
  · exact Context.depth_of_stopFrame (context_of_command known commanded)

end Debugger

namespace World

def onceEntered : World :=
  executed.afterwards ((Move.ofEvent { inScope .call 5 with method := some "f" }).map fun move => (0, .move move))

theorem caller_checked : Course Anything unstarted onceEntered ∧ onceEntered.debugger.isStarted = true ∧
    (onceEntered.debugger.context 0).depth = 2 ∧
    (∃ d', onceEntered.debugger.command 0 (·.stepOver 3 (some 1) false) = .ok d' ∧
      (d'.context 0).targetDepth = some 1) ∧
    onceEntered.debugger.command 0 (·.stopFrame 2) = .error (.frameOutOfRange 2 2) := by
  have course : Course Anything unstarted onceEntered :=
    (course_afterwards unstarted _).trans (course_afterwards executed _)
  have live : onceEntered.debugger.isStarted = true := rfl
  have known : 0 < onceEntered.debugger.contexts.size := by decide
  obtain ⟨-, -, finish, depth, -⟩ :=
    Debugger.arguments_checked live known (n := 3) (by decide) 2 (some 1) false
  obtain ⟨d', commanded⟩ : ∃ d', onceEntered.debugger.command 0 (·.stepOver 3 (some 1) false) = .ok d' := ⟨_, rfl⟩
  obtain ⟨n, kept, caller, -⟩ := depth d' commanded
  have one : n = 1 := by
    have two : (onceEntered.debugger.context 0).depth = 2 := rfl
    rw [two] at caller
    simp only [Option.getD_some] at caller
    omega
  exact ⟨course, rfl, rfl, ⟨d', commanded, one ▸ kept⟩, (finish _).mpr (.inr ⟨by decide, rfl⟩)⟩

/-- A number of steps that does not fit into a counter is refused as if it were negative. -/
theorem refused_though_positive : Course Anything unstarted executed ∧ executed.debugger.isStarted = true ∧
    ¬ (executed.debugger.command 0 (·.step 4294967296 false) = .error .negativeSteps ↔ (4294967296 : Int) < 0) ∧
    ¬ (executed.debugger.command 0 (·.stepOver 4294967296 none false) = .error .negativeSteps ↔
      (4294967296 : Int) < 0) := by
  refine ⟨course_afterwards unstarted _, rfl, ?_, ?_⟩
  · exact fun refuses => absurd (refuses.mp rfl) (by decide)
  · exact fun refuses => absurd (refuses.mp rfl) (by decide)

end World

end EventDebugger
