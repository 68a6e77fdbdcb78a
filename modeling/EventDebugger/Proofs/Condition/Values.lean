import EventDebugger.Proofs.Condition.Operands

/-!
# Texts of values

A text is read as `nil`, as a truth value, as a number if it is a numeral of 64 bits, and as a string otherwise.
What was read is written in such a way that it is read as the same again.

* `Condition.Numeral.readInt?_eq_some_iff`: the texts that are read as numbers are the numerals.
* `Value.read_as_written`: how every text is read, and how every value that is read is written.
-/

namespace EventDebugger

namespace Condition.Numeral

open Text.Decimal (digit digitValue? read? readFrom readInt?)

theorem digit_of_digitValue? {c : Char} {d : Nat} (value : digitValue? c = some d) :
    ∃ digit' : Fin 10, c = digit digit'.val := by
  simp only [digitValue?, Option.ite_none_right_eq_some, Option.some.injEq] at value
  obtain ⟨⟨low, high⟩, rfl⟩ := value
  refine ⟨⟨c.toNat - 48, by omega⟩, ?_⟩
  rw [digit, Nat.add_sub_cancel' low, Char.ofNat_toNat]

theorem digits_of_readFrom {acc n : Nat} {cs : List Char} (read : readFrom acc cs = some n) :
    ∃ digits : List (Fin 10), cs = digitText digits := by
  induction cs generalizing acc with
  | nil => exact ⟨[], rfl⟩
  | cons c cs ih =>
      rw [readFrom] at read
      split at read
      · cases read
      · next d value =>
          obtain ⟨first, rfl⟩ := digit_of_digitValue? value
          obtain ⟨digits, rfl⟩ := ih read
          exact ⟨first :: digits, rfl⟩

theorem exists_of_read? {cs : List Char} (sign : Sign) (read : read? cs ≠ none) :
    ∃ numeral : Numeral, numeral.text = sign.text ++ cs := by
  obtain ⟨n, read⟩ := Option.ne_none_iff_exists'.mp read
  cases cs with
  | nil => cases read
  | cons c cs =>
      obtain ⟨digits, is⟩ := digits_of_readFrom (show readFrom 0 (c :: cs) = some n from read)
      refine ⟨⟨sign, digits, ?_⟩, by rw [text, is]⟩
      rintro rfl
      cases is

theorem readInt?_eq_some_iff {cs : List Char} {n : Int} :
    readInt? cs = some n ↔ ∃ numeral : Numeral, numeral.text = cs ∧ numeral.value = n := by
  constructor
  · intro read
    have written : ∃ numeral : Numeral, numeral.text = cs := by
      simp only [readInt?] at read
      split at read
      · exact exists_of_read? .minus fun unread => by simp [unread] at read
      · exact exists_of_read? .plus fun unread => by simp [unread] at read
      · exact exists_of_read? .none fun unread => by simp [unread] at read
    obtain ⟨numeral, rfl⟩ := written
    exact ⟨numeral, rfl, Option.some.inj (numeral.readInt?_text.symm.trans read)⟩
  · rintro ⟨numeral, rfl, rfl⟩
    exact numeral.readInt?_text

end Condition.Numeral

namespace Value

open Condition (Numeral)

/-- A numeral whose value is a signed 64-bit integer. -/
def IsNumeral (text : String) (n : Int) : Prop :=
  ∃ numeral : Numeral, String.ofList numeral.text = text ∧ numeral.value = n ∧
    Int64.minValue.toInt ≤ n ∧ n ≤ Int64.maxValue.toInt

theorem isInteger64_iff {n : Int} : isInteger64 n ↔ Int64.minValue.toInt ≤ n ∧ n ≤ Int64.maxValue.toInt := by
  simp only [isInteger64, Bool.and_eq_true, decide_eq_true_eq]
  rfl

theorem ofList_eq_iff {cs : List Char} {text : String} : String.ofList cs = text ↔ cs = text.toList :=
  ⟨fun is => is ▸ String.toList_ofList.symm, fun is => is ▸ String.ofList_toList⟩

theorem isNumeral_iff {text : String} {n : Int} :
    IsNumeral text n ↔ Text.Decimal.readInt? text.toList = some n ∧ isInteger64 n := by
  rw [Numeral.readInt?_eq_some_iff, isInteger64_iff]
  simp only [IsNumeral, ofList_eq_iff]
  constructor
  · rintro ⟨numeral, text, value, fits⟩
    exact ⟨⟨numeral, text, value⟩, fits⟩
  · rintro ⟨⟨numeral, text, value⟩, fits⟩
    exact ⟨numeral, text, value, fits⟩

theorem not_isNumeral_of_constant {text : String} (constant : text ∈ Condition.constants) (n : Int) :
    ¬ IsNumeral text n := by
  have unread : ∀ text ∈ Condition.constants, Text.Decimal.readInt? text.toList = none := by decide
  rw [isNumeral_iff, unread text constant]
  rintro ⟨read, -⟩
  cases read

/-! ## Reading -/

inductive ReadAs (text : String) (value : Value) : Prop where
  | constant (is : value = .nil ∨ ∃ b, value = .bool b) (spelled : value.text = text)
  | number (n : Int) (numeral : IsNumeral text n) (is : value = .int n)
  | string (other : text ∉ Condition.constants) (uncounted : ∀ n, ¬ IsNumeral text n) (is : value = .str text)

theorem readAs_parseIntegerOrText {text : String} (other : text ∉ Condition.constants) :
    ReadAs text (parseIntegerOrText text) := by
  rw [parseIntegerOrText]
  split
  · next n read =>
      split
      · next fits => exact .number n (isNumeral_iff.mpr ⟨read, fits⟩) rfl
      · next wide =>
          refine .string other (fun m numeral => ?_) rfl
          obtain ⟨read', fits⟩ := isNumeral_iff.mp numeral
          cases read.symm.trans read'
          exact wide fits
  · next unread =>
      refine .string other (fun m numeral => ?_) rfl
      cases unread.symm.trans (isNumeral_iff.mp numeral).1

theorem readAs_parse (text : String) : ReadAs text (parse text) := by
  rw [parse]
  split
  · next is => exact .constant (.inl rfl) is.symm
  · next notNil =>
      split
      · next is => exact .constant (.inr ⟨true, rfl⟩) is.symm
      · next notTrue =>
          split
          · next is => exact .constant (.inr ⟨false, rfl⟩) is.symm
          · next notFalse =>
              refine readAs_parseIntegerOrText ?_
              simp only [Condition.constants, List.mem_cons, List.not_mem_nil, or_false, not_or]
              exact ⟨notNil, notTrue, notFalse⟩

theorem mem_constants {value : Value} (is : value = .nil ∨ ∃ b, value = .bool b) :
    value.text ∈ Condition.constants := by
  rcases is with rfl | ⟨b, rfl⟩
  · decide
  · cases b <;> decide

theorem parse_eq_int_iff {text : String} {n : Int} : parse text = .int n ↔ IsNumeral text n := by
  rcases readAs_parse text with ⟨is, spelled⟩ | ⟨m, numeral, is⟩ | ⟨other, uncounted, is⟩
  · refine ⟨fun read => ?_, fun numeral => ?_⟩
    · rcases is with is | ⟨b, is⟩ <;> cases is.symm.trans read
    · exact absurd numeral (not_isNumeral_of_constant (spelled ▸ mem_constants is) n)
  · refine ⟨fun read => ?_, fun numeral' => ?_⟩
    · cases is.symm.trans read
      exact numeral
    · cases (isNumeral_iff.mp numeral).1.symm.trans (isNumeral_iff.mp numeral').1
      exact is
  · refine ⟨fun read => ?_, fun numeral => absurd numeral (uncounted n)⟩
    cases is.symm.trans read

theorem parse_eq_str_iff {text content : String} : parse text = .str content ↔
    content = text ∧ text ∉ Condition.constants ∧ ¬ ∃ n, IsNumeral text n := by
  rcases readAs_parse text with ⟨is, spelled⟩ | ⟨n, numeral, is⟩ | ⟨other, uncounted, is⟩
  · refine ⟨fun read => ?_, fun string => absurd (spelled ▸ mem_constants is) string.2.1⟩
    rcases is with is | ⟨b, is⟩ <;> cases is.symm.trans read
  · refine ⟨fun read => ?_, fun string => absurd ⟨n, numeral⟩ string.2.2⟩
    cases is.symm.trans read
  · rw [is, Value.str.injEq]
    exact ⟨fun same => ⟨same.symm, other, fun ⟨n, numeral⟩ => uncounted n numeral⟩, fun string => string.1.symm⟩

/-! ## Writing -/

theorem parse_text_constant {value : Value} (is : value = .nil ∨ ∃ b, value = .bool b) :
    parse value.text = value := by
  rcases is with rfl | ⟨b, rfl⟩
  · rfl
  · cases b <;> decide

theorem parse_text_int {n : Int} (fits : isInteger64 n) : parse (text (.int n)) = .int n := by
  rw [parse_eq_int_iff, isNumeral_iff, text, String.toList_ofList]
  exact ⟨Text.Decimal.readInt?_renderInt n, fits⟩

theorem parse_text_parse (text : String) : parse (parse text).text = parse text := by
  rcases readAs_parse text with ⟨is, -⟩ | ⟨n, numeral, is⟩ | ⟨-, -, is⟩
  · exact parse_text_constant is
  · rw [is]
    exact parse_text_int (isNumeral_iff.mp numeral).2
  · rw [is, Value.text, is]

/-- Reading a text and writing the value loses nothing: every value that is read, and all of `nil`, the truth values
and the signed 64-bit integers, is read again from its text. A text is read as a number if it is an optional sign
with one or more decimal digits whose value has 64 bits, and as a string if it is no such numeral and none of the
three constants. -/
theorem read_as_written :
    (∀ text : String, parse (parse text).text = parse text) ∧
      parse (text .nil) = .nil ∧ (∀ b : Bool, parse (text (.bool b)) = .bool b) ∧
      (∀ n : Int64, parse (text (.int n.toInt)) = .int n.toInt) ∧
      (∀ (text : String) (n : Int), parse text = .int n ↔ IsNumeral text n) ∧
      ∀ text content : String, parse text = .str content ↔
        content = text ∧ text ∉ ["nil", "true", "false"] ∧ ¬ ∃ n, IsNumeral text n := by
  refine ⟨parse_text_parse, parse_text_constant (.inl rfl), fun b => parse_text_constant (.inr ⟨b, rfl⟩),
    fun n => parse_text_int ?_, fun _ _ => parse_eq_int_iff, fun _ _ => parse_eq_str_iff⟩
  exact isInteger64_iff.mpr ⟨n.minValue_le_toInt, n.toInt_le⟩

example : parse "-9223372036854775808" = .int (-9223372036854775808) := by decide

example : parse "+007" = .int 7 ∧ parse "9223372036854775808" = .str "9223372036854775808" := by decide

end Value

end EventDebugger
