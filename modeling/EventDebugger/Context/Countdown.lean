/-!
# Countdowns

A counter of events that remain before a halt. It is off, or counts down to zero, where it is due;
one tick more turns it off.
-/

namespace EventDebugger

/-- The number of events that remain, if the counter is on. -/
structure Countdown where
  remaining : Option Nat
deriving DecidableEq, Repr, Inhabited

namespace Countdown

/-- The counter that is off. -/
def off : Countdown := ⟨none⟩

/-- The counter that is due after `n` ticks. -/
def armed (n : Nat) : Countdown := ⟨some n⟩

/-- Whether the counter has reached zero. -/
def isDue (countdown : Countdown) : Bool := countdown.remaining == some 0

/-- Counts an event. -/
def tick : Countdown → Countdown
  | ⟨some (n + 1)⟩ => armed n
  | _ => off

theorem tick_off : off.tick = off := rfl

theorem tick_armed_succ (n : Nat) : (armed (n + 1)).tick = armed n := rfl

theorem isDue_armed (n : Nat) : (armed n).isDue = (n == 0) := by
  cases n <;> rfl

end Countdown

end EventDebugger
