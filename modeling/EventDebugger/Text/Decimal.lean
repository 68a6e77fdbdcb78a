/-!
# Decimal numerals

Writing natural and whole numbers in decimal digits and reading them back. A numeral that is read
may have leading zeros and, for whole numbers, a sign of either kind; the written one is the shortest.

* `read?_render`, `readInt?_renderInt`: what is written reads back.
-/

namespace EventDebugger.Text.Decimal

/-- The character of a digit below ten. -/
def digit (d : Nat) : Char := Char.ofNat (48 + d)

/-- The number a digit character stands for. -/
def digitValue? (c : Char) : Option Nat :=
  if 48 ≤ c.toNat ∧ c.toNat ≤ 57 then some (c.toNat - 48) else none

/-- The decimal digits of a number, the most significant first. -/
def render (n : Nat) : List Char :=
  if n < 10 then [digit n] else render (n / 10) ++ [digit (n % 10)]

/-- Continues a numeral whose digits so far have the value `acc`. -/
def readFrom (acc : Nat) : List Char → Option Nat
  | [] => some acc
  | c :: cs =>
      match digitValue? c with
      | none => none
      | some d => readFrom (acc * 10 + d) cs

/-- The value of a non-empty string of digits. -/
def read? : List Char → Option Nat
  | [] => none
  | c :: cs => readFrom 0 (c :: cs)

/-- A whole number in decimal digits, with a minus sign when it is negative. -/
def renderInt : Int → List Char
  | .ofNat n => render n
  | .negSucc n => '-' :: render (n + 1)

/-- The value of a non-empty string of digits after an optional sign. -/
def readInt? : List Char → Option Int
  | '-' :: cs => (read? cs).map fun n => -(n : Int)
  | '+' :: cs => (read? cs).map fun n => (n : Int)
  | cs => (read? cs).map fun n => (n : Int)

theorem digitValue?_digit {d : Nat} (h : d < 10) : digitValue? (digit d) = some d := by
  have : ∀ d : Fin 10, digitValue? (digit d) = some d.val := by decide
  exact this ⟨d, h⟩

theorem readFrom_append (acc : Nat) (cs ds : List Char) :
    readFrom acc (cs ++ ds) = (readFrom acc cs).bind fun n => readFrom n ds := by
  induction cs generalizing acc with
  | nil => rfl
  | cons c cs ih =>
      simp only [List.cons_append, readFrom]
      cases digitValue? c with
      | none => rfl
      | some d => exact ih _

theorem readFrom_render (n : Nat) : readFrom 0 (render n) = some n := by
  induction n using Nat.strongRecOn with
  | ind n ih =>
      rw [render]
      split
      · next h => simp [readFrom, digitValue?_digit h]
      · next h =>
          rw [readFrom_append, ih (n / 10) (by omega)]
          simp only [Option.bind_some, readFrom, digitValue?_digit (Nat.mod_lt n (by omega))]
          congr 1
          omega

theorem render_ne_nil (n : Nat) : render n ≠ [] := by
  rw [render]
  split <;> simp

theorem read?_render (n : Nat) : read? (render n) = some n := by
  have h := readFrom_render n
  cases hr : render n with
  | nil => exact absurd hr (render_ne_nil n)
  | cons c cs => rw [hr] at h; exact h

theorem digit_ne_sign {d : Nat} (h : d < 10) : digit d ≠ '-' ∧ digit d ≠ '+' := by
  have : ∀ d : Fin 10, digit d ≠ '-' ∧ digit d ≠ '+' := by decide
  exact this ⟨d, h⟩

theorem render_eq_cons (n : Nat) : ∃ d cs, d < 10 ∧ render n = digit d :: cs := by
  induction n using Nat.strongRecOn with
  | ind n ih =>
      rw [render]
      split
      · next h => exact ⟨n, [], h, rfl⟩
      · next h =>
          obtain ⟨d, cs, hd, hc⟩ := ih (n / 10) (by omega)
          exact ⟨d, cs ++ [digit (n % 10)], hd, by rw [hc]; rfl⟩

theorem readInt?_renderInt (n : Int) : readInt? (renderInt n) = some n := by
  cases n with
  | ofNat n =>
      obtain ⟨d, cs, hd, hc⟩ := render_eq_cons n
      have hr := read?_render n
      have hs := digit_ne_sign hd
      simp only [renderInt, hc] at hr ⊢
      rw [readInt?.eq_3]
      · simp [hr]
      · intro rest h
        exact hs.1 (List.cons.inj h).1
      · intro rest h
        exact hs.2 (List.cons.inj h).1
  | negSucc n =>
      simp only [renderInt, readInt?, read?_render]
      rfl

end EventDebugger.Text.Decimal
