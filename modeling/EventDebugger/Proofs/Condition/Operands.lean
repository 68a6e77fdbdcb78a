import EventDebugger.Proofs.Condition.Literals
import Mathlib.Data.Nat.Digits.Defs

/-!
# Comparisons of operands

An operand as it is written is `nil`, `true`, `false`, a numeral, the name of a variable or a string in
double quotes. As long as the content of the strings has neither white space nor the characters of
operators, a comparison of operands is split at its operator, whatever white space stands around the
operator and the operands.

* `comparison?_written`: the split of a comparison.
* `operand_text`: the value of an operand.
* `evaluate_written`: what a comparison of operands and an operand on its own evaluate to.
-/

namespace EventDebugger

namespace Text

abbrev Gap := { cs : List Char // ∀ c ∈ cs, isBlank c = true }

theorem trim_padded (before after : Gap) (cs : List Char) :
    trim (before.val ++ cs ++ after.val) = trim cs := by
  have behind : ∀ c ∈ after.val.reverse, isBlank c = true := by simpa using after.property
  rw [trim, trim, List.append_assoc, List.dropWhile_append_of_pos before.property,
    List.dropWhile_append]
  split
  · next empty =>
      rw [List.isEmpty_iff.mp empty, List.dropWhile_eq_nil_iff.mpr after.property]
  · rw [List.reverse_append, List.dropWhile_append_of_pos behind]

end Text

namespace Condition

open Text (Solid isBlank Gap)

/-! ### The split -/

def marks : List Char := ['=', '!', '<', '>']

def Unmarked (cs : List Char) : Prop := ∀ c ∈ cs, c ∉ marks

instance (cs : List Char) : Decidable (Unmarked cs) :=
  List.decidableBAll (fun c => c ∉ marks) cs

theorem unmarked_append {as bs : List Char} : Unmarked (as ++ bs) ↔ Unmarked as ∧ Unmarked bs := by
  simp [Unmarked, or_imp, forall_and]

theorem Unmarked.suffix {as bs : List Char} (h : Unmarked bs) (suffix : as <:+ bs) : Unmarked as :=
  fun c mem => h c (suffix.mem mem)

theorem not_mem_marks {p : Char → Bool} (h : marks.any p = false) {c : Char} (of : p c = true) : c ∉ marks := by
  intro mark
  rw [List.any_eq_false] at h
  exact h c mark of

theorem unmarked_of_blank {cs : List Char} (blank : ∀ c ∈ cs, isBlank c = true) : Unmarked cs :=
  fun c mem => not_mem_marks (by decide) (blank c mem)

def operatorOf : Relation → List Char
  | .eq => ['=', '=']
  | .ne => ['!', '=']
  | .le => ['<', '=']
  | .ge => ['>', '=']
  | .lt => ['<']
  | .gt => ['>']

theorem mem_spellings (relation : Relation) : (relation, operatorOf relation) ∈ Relation.spellings := by
  cases relation <;> decide

theorem operatorAt?_unmarked {cs : List Char} (h : Unmarked cs) : operatorAt? cs = none := by
  rw [Option.eq_none_iff_forall_ne_some]
  rintro ⟨relation, right⟩ found
  obtain ⟨spelling, gap, mem, -, -, -, rfl⟩ := operatorAt?_spec found
  have marked : ∀ entry ∈ Relation.spellings, ¬ Unmarked entry.2 := by decide
  apply marked _ mem
  rw [List.append_assoc] at h
  exact (unmarked_append.mp h).1

theorem operatorAt?_halved {cs : List Char} (h : Unmarked cs) : operatorAt? ('=' :: cs) = none := by
  rw [Option.eq_none_iff_forall_ne_some]
  rintro ⟨relation, right⟩ found
  obtain ⟨spelling, gap, mem, -, -, -, eq⟩ := operatorAt?_spec found
  have long : ∀ entry ∈ Relation.spellings, entry.2.head? = some '=' → entry.2 = ['=', '='] := by decide
  obtain ⟨c, rest, rfl⟩ := List.exists_cons_of_ne_nil (solid_of_mem_spellings mem).2
  have double := long _ mem (congrArg some (List.cons.inj eq).1.symm)
  dsimp only at double
  rw [double] at eq
  apply h '='
  · rw [(List.cons.inj eq).2]
    simp
  · decide

theorem operatorAt?_written {cs right : List Char} (relation : Relation) (h : Unmarked cs)
    (operand : rightOperand? cs = some right) :
    operatorAt? (operatorOf relation ++ cs) = some (relation, right) := by
  cases cs with
  | nil => cases operand
  | cons c cs =>
      have ne : c ≠ '=' := fun eq => h c List.mem_cons_self (by rw [eq]; decide)
      cases relation <;> simp [operatorOf, operatorAt?, Relation.spellings, operand, ne.symm]

theorem operatorAt?_later {cs : List Char} (relation : Relation) (h : Unmarked cs) {k : Nat}
    (pos : 0 < k) : operatorAt? (((operatorOf relation ++ cs).drop k).dropWhile isBlank) = none := by
  have tail : ((operatorOf relation).drop k) = [] ∨ ((operatorOf relation).drop k) = ['='] := by
    obtain ⟨k, rfl⟩ := Nat.exists_eq_succ_of_ne_zero pos.ne'
    cases relation <;> cases k <;> simp [operatorOf]
  have rest : Unmarked (cs.drop (k - (operatorOf relation).length)) := h.suffix (List.drop_suffix _ _)
  rw [List.drop_append]
  rcases tail with tail | tail <;> rw [tail]
  · exact operatorAt?_unmarked (rest.suffix (List.dropWhile_suffix _))
  · have solid : isBlank '=' = false := by decide
    rw [List.singleton_append, List.dropWhile_cons_of_neg (by simp [solid])]
    exact operatorAt?_halved rest

theorem comparisonWithin?_of_last {cs right : List Char} {relation : Relation} {k n : Nat}
    (pos : 0 < k) (le : k ≤ n)
    (found : operatorAt? ((cs.drop k).dropWhile isBlank) = some (relation, right))
    (missed : ∀ j, k < j → j ≤ n → operatorAt? ((cs.drop j).dropWhile isBlank) = none) :
    comparisonWithin? cs n = some ⟨cs.take k, relation, right⟩ := by
  induction n with
  | zero => omega
  | succ n ih =>
      rw [comparisonWithin?]
      rcases Nat.le_succ_iff.mp le with le | rfl
      · rw [missed (n + 1) (by omega) (Nat.le_refl _)]
        exact ih le fun j lt le' => missed j lt (by omega)
      · rw [found]

theorem comparison?_of_last {left tail right : List Char} {relation : Relation} (ne : left ≠ [])
    (solid : Solid left) (found : operatorAt? (tail.dropWhile isBlank) = some (relation, right))
    (missed : ∀ j, 0 < j → j ≤ (tail.takeWhile fun c => !isBlank c).length →
      operatorAt? ((tail.drop j).dropWhile isBlank) = none) :
    comparison? (left ++ tail) = some ⟨left, relation, right⟩ := by
  have word : (left ++ tail).takeWhile (fun c => !isBlank c) =
      left ++ tail.takeWhile fun c => !isBlank c :=
    List.takeWhile_append_of_pos (by simpa [Solid] using solid)
  have here : operatorAt? (((left ++ tail).drop left.length).dropWhile isBlank) =
      some (relation, right) := by rw [List.drop_left, found]
  have split := comparisonWithin?_of_last (n := (left ++ tail.takeWhile fun c => !isBlank c).length)
    (List.length_pos_iff.mpr ne) (by simp) here (by
      intro j lt le
      obtain ⟨i, rfl⟩ := Nat.exists_eq_add_of_le lt.le
      rw [List.drop_length_add_append]
      rw [List.length_append] at le
      exact missed i (by omega) (by omega))
  rw [comparison?, word, split, List.take_left]

theorem comparison?_written {left right : List Char} (relation : Relation) (gap gap' : Gap)
    (left_ne : left ≠ []) (solid : Solid left) (right_ne : right ≠ []) (solid' : Solid right)
    (unmarked : Unmarked right) :
    comparison? (left ++ gap.val ++ operatorOf relation ++ gap'.val ++ right) =
      some ⟨left, relation, right⟩ := by
  have rest : Unmarked (gap'.val ++ right) :=
    unmarked_append.mpr ⟨unmarked_of_blank gap'.property, unmarked⟩
  obtain ⟨solid_operator, operator_ne⟩ := solid_of_mem_spellings (mem_spellings relation)
  have dropped := dropWhile_isBlank gap.property solid_operator operator_ne (gap'.val ++ right)
  simp only [List.append_assoc] at dropped ⊢
  apply comparison?_of_last left_ne solid
  · rw [dropped]
    exact operatorAt?_written relation rest (rightOperand?_of_gap gap'.property right_ne solid')
  · intro j pos le
    obtain ⟨gap, blank⟩ := gap
    cases gap with
    | nil => exact operatorAt?_later relation rest pos
    | cons c gap =>
        -- the white space ends the word
        have : isBlank c = true := blank c List.mem_cons_self
        simp [this] at le
        omega

theorem comparison?_unmarked {cs : List Char} (h : Unmarked cs) : comparison? cs = none := by
  rw [← Option.not_isSome_iff_eq_none, isSome_comparison?]
  rintro ⟨left, relation, right, -, -, -, -, gap, spelling, gap', mem, -, -, rfl⟩
  have marked : ∀ entry ∈ Relation.spellings, ¬ Unmarked entry.2 := by decide
  simp only [unmarked_append] at h
  exact marked _ mem h.1.1.2

/-! ### Numerals -/

inductive Sign where
  | none
  | plus
  | minus

def Sign.text : Sign → List Char
  | none => []
  | plus => ['+']
  | minus => ['-']

/-- A whole number as it is written. Its digits stand in order, the most significant first. -/
structure Numeral where
  sign : Sign
  digits : List (Fin 10)
  digits_ne : digits ≠ []

namespace Numeral

def digitText (digits : List (Fin 10)) : List Char :=
  digits.map fun d => Text.Decimal.digit d.val

def text (numeral : Numeral) : List Char := numeral.sign.text ++ digitText numeral.digits

def magnitude (numeral : Numeral) : Nat := Nat.ofDigits 10 (numeral.digits.map Fin.val).reverse

def value (numeral : Numeral) : Int :=
  match numeral.sign with
  | .minus => -numeral.magnitude
  | _ => numeral.magnitude

theorem readFrom_digits (acc : Nat) (digits : List (Fin 10)) :
    Text.Decimal.readFrom acc (digitText digits) =
      some (acc * 10 ^ digits.length + Nat.ofDigits 10 (digits.map Fin.val).reverse) := by
  induction digits generalizing acc with
  | nil => simp [digitText, Text.Decimal.readFrom]
  | cons d digits ih =>
      rw [digitText, List.map_cons, ← digitText, Text.Decimal.readFrom,
        Text.Decimal.digitValue?_digit d.isLt]
      simp only [ih, List.map_cons, Nat.ofDigits_reverse_cons, List.length_map, List.length_cons]
      congr 1
      ring

theorem readInt?_text (numeral : Numeral) :
    Text.Decimal.readInt? numeral.text = some numeral.value := by
  obtain ⟨sign, digits, ne⟩ := numeral
  obtain ⟨d, digits, rfl⟩ := List.exists_cons_of_ne_nil ne
  have read : Text.Decimal.read? (digitText (d :: digits)) =
      some (Nat.ofDigits 10 ((d :: digits).map Fin.val).reverse) := by
    have := readFrom_digits 0 (d :: digits)
    rwa [Nat.zero_mul, Nat.zero_add] at this
  cases sign with
  | minus => simp [text, Sign.text, value, magnitude, Text.Decimal.readInt?, read]
  | plus => simp [text, Sign.text, value, magnitude, Text.Decimal.readInt?, read]
  | none =>
      obtain ⟨minus, plus⟩ := Text.Decimal.digit_ne_sign d.isLt
      have first : digitText (d :: digits) = Text.Decimal.digit d :: digitText digits := rfl
      rw [text, Sign.text, List.nil_append, first, Text.Decimal.readInt?.eq_3]
      · rw [← first, read]
        rfl
      · intro rest eq
        exact minus (List.cons.inj eq).1
      · intro rest eq
        exact plus (List.cons.inj eq).1

theorem text_ne (numeral : Numeral) : numeral.text ≠ [] := by
  have := numeral.digits_ne
  simp [text, digitText, this]

theorem text_all {p : Char → Prop} (numeral : Numeral) (plus : p '+') (minus : p '-')
    (digit : ∀ d : Fin 10, p (Text.Decimal.digit d)) : ∀ c ∈ numeral.text, p c := by
  intro c mem
  rcases List.mem_append.mp mem with mem | mem
  · cases sign : numeral.sign with
    | none => simp [sign, Sign.text] at mem
    | plus =>
        rw [sign, Sign.text, List.mem_singleton] at mem
        exact mem ▸ plus
    | minus =>
        rw [sign, Sign.text, List.mem_singleton] at mem
        exact mem ▸ minus
  · obtain ⟨d, -, rfl⟩ := List.mem_map.mp mem
    exact digit d

theorem parse_text (numeral : Numeral) : Value.parse (String.ofList numeral.text) =
    if -2 ^ 63 ≤ numeral.value ∧ numeral.value < 2 ^ 63 then .int numeral.value
    else .str (String.ofList numeral.text) := by
  have read := numeral.readInt?_text
  have other (constant : String) (unread : Text.Decimal.readInt? constant.toList = none) :
      String.ofList numeral.text ≠ constant := by
    rintro rfl
    rw [String.toList_ofList, read] at unread
    cases unread
  simp only [Value.parse, if_neg (other "nil" (by decide)), if_neg (other "true" (by decide)),
    if_neg (other "false" (by decide)), Value.parseIntegerOrText, String.toList_ofList, read,
    Value.isInteger64, Bool.and_eq_true, decide_eq_true_eq]
  split <;> split <;> first | rfl | omega

end Numeral

/-! ### Operands -/

/-- An operand as it is written. -/
inductive Operand where
  | nil
  | truth (b : Bool)
  | integer (numeral : Numeral)
  | named (name : String) (h : IsVariable name)
  /-- A string in double quotes, whose content has no white space, quotes and characters of operators. -/
  | quoted (content : String) (solid : Solid content.toList) (unquoted : '"' ∉ content.toList)
      (unmarked : Unmarked content.toList)

namespace Operand

def text : Operand → List Char
  | .nil => ['n', 'i', 'l']
  | .truth true => ['t', 'r', 'u', 'e']
  | .truth false => ['f', 'a', 'l', 's', 'e']
  | .integer numeral => numeral.text
  | .named name _ => name.toList
  | .quoted content .. => '"' :: (content.toList ++ ['"'])

/-- A numeral beyond 64 bits has no value, and a name has that of its variable. -/
def value (lookup? : String → Option Value) : Operand → Except ConditionError Value
  | .nil => .ok .nil
  | .truth b => .ok (.bool b)
  | .integer numeral =>
      if -2 ^ 63 ≤ numeral.value ∧ numeral.value < 2 ^ 63 then .ok (.int numeral.value)
      else .error (.malformed (String.ofList numeral.text))
  | .named name _ =>
      match lookup? name with
      | some value => .ok value
      | none => .error (.unboundVariable name)
  | .quoted content .. => .ok (.str content)

end Operand

theorem operand_numeral (lookup? : String → Option Value) (numeral : Numeral) :
    operand lookup? numeral.text = (Operand.integer numeral).value lookup? := by
  obtain ⟨c, rest, eq⟩ := List.exists_cons_of_ne_nil numeral.text_ne
  have first := numeral.text_all (p := fun c => c ≠ '"' ∧ isNameStart c = false) (by decide) (by decide)
    (by decide) c (by simp [eq])
  have unquoted : quoted? numeral.text = none := by
    rw [eq, quoted?.eq_2]
    simpa using first.1
  have unnamed : isName numeral.text = false := by rw [eq, isName, first.2, Bool.false_and]
  have parsed := numeral.parse_text
  rw [Operand.value]
  split
  · next fits =>
      rw [if_pos fits] at parsed
      simp only [operand, unquoted, parsed]
  · next wide =>
      rw [if_neg wide] at parsed
      exact operand_malformed unquoted parsed unnamed

theorem operand_named (lookup? : String → Option Value) {name : String} (h : IsVariable name) :
    operand lookup? name.toList = (Operand.named name h).value lookup? := by
  obtain ⟨unquoted, parsed⟩ := parse_variable h
  cases found : lookup? name <;>
    simp only [operand, unquoted, String.ofList_toList, parsed, h.1, if_true, Operand.value, found]

theorem operand_text (lookup? : String → Option Value) (o : Operand) :
    operand lookup? o.text = o.value lookup? := by
  cases o with
  | nil => simp [operand, Operand.text, Operand.value, quoted?, Value.parse]
  | truth b => cases b <;> simp [operand, Operand.text, Operand.value, quoted?, Value.parse]
  | integer numeral => exact operand_numeral lookup? numeral
  | named name h => exact operand_named lookup? h
  | quoted content =>
      rw [Operand.text, operand_quoted, String.ofList_toList]
      rfl

theorem text_spec (o : Operand) : Solid o.text ∧ Unmarked o.text ∧ o.text ≠ [] := by
  cases o with
  | nil => exact ⟨by decide, by decide, by decide⟩
  | truth b => cases b <;> exact ⟨by decide, by decide, by decide⟩
  | integer numeral =>
      exact ⟨numeral.text_all (by decide) (by decide) (by decide),
        numeral.text_all (by decide) (by decide) (by decide), numeral.text_ne⟩
  | named name h =>
      obtain ⟨solid, c, rest, eq, -⟩ := isName_spec h.1
      refine ⟨solid, ?_, by simp [Operand.text, eq]⟩
      have named := h.1
      rw [Operand.text]
      rw [eq, isName, Bool.and_eq_true, List.all_eq_true] at named
      rw [eq]
      exact fun d mem => not_mem_marks (by decide) (named.2 d mem)
  | quoted content solid unquoted unmarked =>
      refine ⟨Text.solid_cons.mpr ⟨isBlank_quote, Text.solid_append.mpr ⟨solid, by decide⟩⟩, ?_,
        List.cons_ne_nil _ _⟩
      have quote : Unmarked ['"'] := by decide
      rw [Operand.text, ← List.singleton_append]
      exact unmarked_append.mpr ⟨quote, unmarked_append.mpr ⟨unmarked, quote⟩⟩

/-! ### Verdicts -/

/-- What a comparison of two values comes to: any two are equal or not, only integers have an order. -/
inductive Verdict : Value → Relation → Value → Except ConditionError Bool → Prop where
  | eq (l r : Value) : Verdict l .eq r (.ok (decide (l = r)))
  | ne (l r : Value) : Verdict l .ne r (.ok (decide (l ≠ r)))
  | le (m n : Int) : Verdict (.int m) .le (.int n) (.ok (decide (m ≤ n)))
  | ge (m n : Int) : Verdict (.int m) .ge (.int n) (.ok (decide (m ≥ n)))
  | lt (m n : Int) : Verdict (.int m) .lt (.int n) (.ok (decide (m < n)))
  | gt (m n : Int) : Verdict (.int m) .gt (.int n) (.ok (decide (m > n)))
  | unordered {l r : Value} {relation : Relation} (orders : relation ≠ .eq ∧ relation ≠ .ne)
      (other : ∀ m n : Int, ¬ (l = .int m ∧ r = .int n)) :
      Verdict l relation r (.error (.notComparable l r))

theorem holds_unordered {l r : Value} {relation : Relation} (orders : relation ≠ .eq ∧ relation ≠ .ne)
    (other : ∀ m n : Int, ¬ (l = .int m ∧ r = .int n)) :
    relation.holds l r = .error (.notComparable l r) := by
  rw [Relation.holds.eq_def]
  split
  · exact absurd rfl orders.1
  · exact absurd rfl orders.2
  · exact absurd ⟨rfl, rfl⟩ (other _ _)
  · exact absurd ⟨rfl, rfl⟩ (other _ _)
  · exact absurd ⟨rfl, rfl⟩ (other _ _)
  · exact absurd ⟨rfl, rfl⟩ (other _ _)
  · rfl

theorem verdict_iff {l r : Value} {relation : Relation} {answer : Except ConditionError Bool} :
    Verdict l relation r answer ↔ relation.holds l r = answer := by
  constructor
  · intro verdict
    cases verdict with
    | ne => exact holds_ne l r
    | unordered orders other => exact holds_unordered orders other
    | eq | le | ge | lt | gt => rfl
  · rintro rfl
    by_cases integers : ∃ m n : Int, l = .int m ∧ r = .int n
    · obtain ⟨m, n, rfl, rfl⟩ := integers
      cases relation with
      | eq => exact .eq _ _
      | ne => rw [holds_ne]; exact .ne _ _
      | le => exact .le m n
      | ge => exact .ge m n
      | lt => exact .lt m n
      | gt => exact .gt m n
    · have other : ∀ m n : Int, ¬ (l = .int m ∧ r = .int n) := fun m n eq => integers ⟨m, n, eq⟩
      have unordered (orders : relation ≠ .eq ∧ relation ≠ .ne) :
          Verdict l relation r (relation.holds l r) := by
        rw [holds_unordered orders other]
        exact .unordered orders other
      cases relation with
      | eq => exact .eq _ _
      | ne => rw [holds_ne]; exact .ne _ _
      | le | ge | lt | gt => exact unordered (by decide)

/-- What a comparison of two operands comes to. The first operand without a value is reported. -/
inductive Judged (lookup? : String → Option Value) (l : Operand) (relation : Relation) (r : Operand) :
    Except ConditionError Bool → Prop where
  | left {error : ConditionError} (failed : l.value lookup? = .error error) :
      Judged lookup? l relation r (.error error)
  | right {x : Value} {error : ConditionError} (left : l.value lookup? = .ok x)
      (failed : r.value lookup? = .error error) : Judged lookup? l relation r (.error error)
  | both {x y : Value} {answer : Except ConditionError Bool} (left : l.value lookup? = .ok x)
      (right : r.value lookup? = .ok y) (verdict : Verdict x relation y answer) :
      Judged lookup? l relation r answer

theorem judged_iff {lookup? : String → Option Value} {l r : Operand} {relation : Relation}
    {answer : Except ConditionError Bool} : Judged lookup? l relation r answer ↔
      (do
        let x ← l.value lookup?
        let y ← r.value lookup?
        relation.holds x y) = answer := by
  constructor
  · intro judged
    cases judged with
    | left failed => rw [failed]; rfl
    | right left failed => rw [left, failed]; rfl
    | both left right verdict => rw [left, right]; exact verdict_iff.mp verdict
  · rintro rfl
    cases left : l.value lookup? with
    | error error => exact .left left
    | ok x =>
        cases right : r.value lookup? with
        | error error => exact .right left right
        | ok y => exact .both left right (verdict_iff.mpr rfl)

/-! ### Conditions -/

/-- Two operands with an operator between them, and white space around all three. -/
def writtenComparison (before : Gap) (l : Operand) (gap : Gap) (relation : Relation) (gap' : Gap)
    (r : Operand) (after : Gap) : String :=
  String.ofList (before.val ++ (l.text ++ gap.val ++ operatorOf relation ++ gap'.val ++ r.text) ++ after.val)

def writtenOperand (before : Gap) (o : Operand) (after : Gap) : String :=
  String.ofList (before.val ++ o.text ++ after.val)

theorem exists_ends (o : Operand) : ∃ a b, isBlank a = false ∧ isBlank b = false ∧
    o.text.head? = some a ∧ o.text.getLast? = some b := by
  obtain ⟨solid, -, ne⟩ := text_spec o
  exact ⟨_, _, solid _ (List.head_mem ne), solid _ (List.getLast_mem ne), List.head?_eq_some_head ne,
    List.getLast?_eq_some_getLast ne⟩

theorem trim_writtenComparison (before gap gap' after : Gap) (l r : Operand) (relation : Relation) :
    Text.trim (writtenComparison before l gap relation gap' r after).toList =
      l.text ++ gap.val ++ operatorOf relation ++ gap'.val ++ r.text := by
  obtain ⟨a, -, solid, -, first, -⟩ := exists_ends l
  obtain ⟨-, b, -, solid', -, last⟩ := exists_ends r
  rw [writtenComparison, String.toList_ofList, Text.trim_padded]
  apply Text.trim_of_ends solid solid'
  · simp [List.head?_append, first]
  · simp [List.getLast?_append, last]

theorem trim_writtenOperand (before after : Gap) (o : Operand) :
    Text.trim (writtenOperand before o after).toList = o.text := by
  obtain ⟨a, b, solid, solid', first, last⟩ := exists_ends o
  rw [writtenOperand, String.toList_ofList, Text.trim_padded]
  exact Text.trim_of_ends solid solid' first last

/-- A comparison of operands is split at its operator and evaluates to what the values of the operands come
to, whatever white space there is; an operand on its own evaluates to its truthiness. -/
theorem evaluate_written (lookup? : String → Option Value) (before gap gap' after : Gap) (l r : Operand) :
    (∀ relation, let condition := writtenComparison before l gap relation gap' r after
      comparison? (Text.trim condition.toList) = some ⟨l.text, relation, r.text⟩ ∧
      ∀ answer, evaluate lookup? condition = answer ↔ Judged lookup? l relation r answer) ∧
    evaluate lookup? (writtenOperand before l after) = (l.value lookup?).map Value.isTruthy := by
  obtain ⟨solid, unmarked, ne⟩ := text_spec l
  obtain ⟨solid', unmarked', ne'⟩ := text_spec r
  constructor
  · intro relation condition
    have trimmed := trim_writtenComparison before gap gap' after l r relation
    have split := comparison?_written relation gap gap' ne solid ne' solid' unmarked'
    refine ⟨by rw [trimmed, split], fun answer => ?_⟩
    rw [judged_iff, evaluate, trimmed, split]
    simp only [operand_text]
  · rw [evaluate, trim_writtenOperand, comparison?_unmarked unmarked]
    simp only [operand_text]

example : evaluate (fun _ => none) "\u2003-9223372036854775808<=+09223372036854775807\u00a0" = .ok true := by
  decide +kernel

end Condition

end EventDebugger
