import EventDebugger.Condition
import Mathlib.Data.List.TakeWhile

/-!
# String literals in conditions

The split of a condition at an operator does not look at quotes. It succeeds exactly on the texts that
consist of two operands without white space and an operator between them, which may stand in white
space; such a text has three words at most. A literal whose content has white space is therefore never
an operand of a comparison, and a literal on its own is cut in two when its content reads as one.

* `isSome_comparison?`: which texts are split.
* `comparison?_spaced`: where a text with spaces around its operator is split.
* `evaluate_literals`: what the conditions made of string literals evaluate to.
-/

namespace EventDebugger

namespace Text

/-- The text has no white space. -/
def Solid (cs : List Char) : Prop := ∀ c ∈ cs, isBlank c = false

instance (cs : List Char) : Decidable (Solid cs) :=
  List.decidableBAll (fun c => isBlank c = false) cs

theorem solid_append {as bs : List Char} : Solid (as ++ bs) ↔ Solid as ∧ Solid bs := by
  simp [Solid, or_imp, forall_and]

theorem solid_cons {c : Char} {cs : List Char} :
    Solid (c :: cs) ↔ isBlank c = false ∧ Solid cs := by
  simp [Solid]

def wordCount : List Char → Nat
  | [] => 0
  | [c] => if isBlank c then 0 else 1
  | c :: d :: cs => (if !isBlank c && isBlank d then 1 else 0) + wordCount (d :: cs)

theorem wordCount_append_le (as bs : List Char) :
    wordCount (as ++ bs) ≤ wordCount as + wordCount bs := by
  induction as with
  | nil => simp [wordCount]
  | cons a as ih =>
      cases as with
      | nil =>
          cases bs with
          | nil => simp [wordCount]
          | cons b bs => cases h : isBlank a <;> simp [wordCount, h]; split <;> omega
      | cons a' as =>
          simp only [List.cons_append, wordCount] at ih ⊢
          omega

theorem wordCount_append_cons {b : Char} (h : isBlank b = true) (as bs : List Char) :
    wordCount (as ++ b :: bs) = wordCount as + wordCount bs := by
  induction as with
  | nil => cases bs <;> simp [wordCount, h]
  | cons a as ih =>
      cases as with
      | nil =>
          simp only [List.nil_append] at ih
          cases ha : isBlank a <;> simp [wordCount, ha, h, ih]
      | cons a' as =>
          simp only [List.cons_append, wordCount] at ih ⊢
          omega

theorem wordCount_of_all_blank {cs : List Char} (h : ∀ c ∈ cs, isBlank c = true) :
    wordCount cs = 0 := by
  induction cs with
  | nil => rfl
  | cons c cs ih =>
      have rest := ih fun d hd => h d (List.mem_cons_of_mem _ hd)
      simpa [rest, wordCount] using wordCount_append_cons (h c List.mem_cons_self) [] cs

theorem wordCount_le_one {cs : List Char} (h : Solid cs) : wordCount cs ≤ 1 := by
  induction cs with
  | nil => simp [wordCount]
  | cons c cs ih =>
      have rest := ih (solid_cons.mp h).2
      cases cs with
      | nil => simp only [wordCount]; split <;> omega
      | cons d ds =>
          have hd : isBlank d = false := h d (by simp)
          simpa [wordCount, hd] using rest

theorem wordCount_pos {cs : List Char} {c : Char} (hc : c ∈ cs) (h : isBlank c = false) :
    0 < wordCount cs := by
  induction cs generalizing c with
  | nil => cases hc
  | cons d ds ih =>
      cases ds with
      | nil =>
          rw [List.mem_singleton.mp hc] at h
          simp [wordCount, h]
      | cons e es =>
          -- a last character of its word counts itself, any other leaves its word to the next one
          cases he : isBlank e with
          | false => exact Nat.lt_add_left _ (ih List.mem_cons_self he)
          | true =>
              rcases List.mem_cons.mp hc with rfl | hc
              · simp only [wordCount, h, he, Bool.not_false, Bool.and_self, if_true]
                omega
              · exact Nat.lt_add_left _ (ih hc h)

theorem trim_of_ends {cs : List Char} {a b : Char} (ha : isBlank a = false)
    (hb : isBlank b = false) (first : cs.head? = some a) (last : cs.getLast? = some b) :
    trim cs = cs := by
  obtain ⟨front, front_eq⟩ := List.head?_eq_some_iff.mp first
  obtain ⟨back, back_eq⟩ := List.getLast?_eq_some_iff.mp last
  have left : cs.dropWhile isBlank = cs := by simp [front_eq, ha]
  have right : cs.reverse.dropWhile isBlank = cs.reverse := by simp [back_eq, hb]
  rw [trim, left, right, List.reverse_reverse]

end Text

namespace Condition

open Text (Solid isBlank)

/-- The text consists of a left operand, a relation and a right operand, with or without white space
around the relation. -/
def Reads (left : List Char) (relation : Relation) (right : List Char) (cs : List Char) : Prop :=
  Solid left ∧ Solid right ∧ ∃ gap spelling gap', (relation, spelling) ∈ Relation.spellings ∧
    (∀ c ∈ gap, isBlank c = true) ∧ (∀ c ∈ gap', isBlank c = true) ∧
      cs = left ++ gap ++ spelling ++ gap' ++ right

theorem isBlank_space : isBlank ' ' = true := by decide

theorem isBlank_quote : isBlank '"' = false := by decide

theorem solid_of_mem_spellings {relation : Relation} {spelling : List Char}
    (h : (relation, spelling) ∈ Relation.spellings) : Solid spelling ∧ spelling ≠ [] := by
  have all : ∀ entry ∈ Relation.spellings, Solid entry.2 ∧ entry.2 ≠ [] := by decide
  exact all _ h

theorem dropWhile_isBlank {gap as : List Char} (blank : ∀ c ∈ gap, isBlank c = true)
    (solid : Solid as) (ne : as ≠ []) (bs : List Char) :
    (gap ++ as ++ bs).dropWhile isBlank = as ++ bs := by
  cases as with
  | nil => exact absurd rfl ne
  | cons a as =>
      rw [List.append_assoc, List.dropWhile_append_of_pos blank]
      simp [solid a List.mem_cons_self]

theorem rightOperand?_eq_some {cs right : List Char} :
    rightOperand? cs = some right ↔
      cs.dropWhile isBlank = right ∧ right ≠ [] ∧ Solid right := by
  simp only [rightOperand?, List.all_eq_true, Bool.not_eq_true']
  split
  · next h =>
      rw [Option.some.injEq]
      exact ⟨fun eq => ⟨eq, eq ▸ h⟩, fun eq => eq.1⟩
  · next h =>
      simp only [false_iff, reduceCtorEq]
      rintro ⟨rfl, h'⟩
      exact h h'

theorem rightOperand?_of_gap {gap right : List Char} (blank : ∀ c ∈ gap, isBlank c = true)
    (ne : right ≠ []) (solid : Solid right) : rightOperand? (gap ++ right) = some right := by
  have dropped := dropWhile_isBlank blank solid ne []
  rw [List.append_nil, List.append_nil] at dropped
  exact rightOperand?_eq_some.mpr ⟨dropped, ne, solid⟩

theorem operatorAt?_spec {cs right : List Char} {relation : Relation}
    (h : operatorAt? cs = some (relation, right)) :
    ∃ spelling gap, (relation, spelling) ∈ Relation.spellings ∧
      (∀ c ∈ gap, isBlank c = true) ∧ right ≠ [] ∧ Solid right ∧
        cs = spelling ++ gap ++ right := by
  obtain ⟨⟨relation', spelling⟩, mem, found⟩ := List.exists_of_findSome?_eq_some h
  dsimp only at found
  split at found
  · next isPrefix =>
      simp only [Option.map_eq_some_iff, Prod.mk.injEq] at found
      obtain ⟨right', operand, rfl, rfl⟩ := found
      obtain ⟨rest, rfl⟩ := List.isPrefixOf_iff_prefix.mp isPrefix
      rw [List.drop_left] at operand
      obtain ⟨dropped, ne, solid⟩ := rightOperand?_eq_some.mp operand
      refine ⟨spelling, rest.takeWhile isBlank, mem, fun c hc => List.mem_takeWhile_imp hc, ne,
        solid, ?_⟩
      rw [List.append_assoc, ← dropped, List.takeWhile_append_dropWhile]
  · cases found

theorem isSome_operatorAt? {gap right spelling : List Char} {relation : Relation}
    (mem : (relation, spelling) ∈ Relation.spellings) (blank : ∀ c ∈ gap, isBlank c = true)
    (ne : right ≠ []) (solid : Solid right) :
    (operatorAt? (spelling ++ gap ++ right)).isSome := by
  refine List.findSome?_isSome_iff.mpr ⟨_, mem, ?_⟩
  simp [List.append_assoc, rightOperand?_of_gap blank ne solid]

theorem operatorAt?_spaced {right spelling : List Char} {relation : Relation}
    (mem : (relation, spelling) ∈ Relation.spellings) (ne : right ≠ []) (solid : Solid right) :
    operatorAt? (spelling ++ ' ' :: right) = some (relation, right) := by
  have blank : ∀ c ∈ [' '], isBlank c = true := by simp [isBlank_space]
  have operand : rightOperand? (' ' :: right) = some right := rightOperand?_of_gap blank ne solid
  simp only [Relation.spellings, List.mem_cons, Prod.mk.injEq, List.not_mem_nil, or_false] at mem
  rcases mem with ⟨rfl, rfl⟩ | ⟨rfl, rfl⟩ | ⟨rfl, rfl⟩ | ⟨rfl, rfl⟩ | ⟨rfl, rfl⟩ | ⟨rfl, rfl⟩ <;>
    simp [operatorAt?, Relation.spellings, operand]

theorem comparisonWithin?_eq_some {cs : List Char} {n : Nat} {comparison : Comparison}
    (h : comparisonWithin? cs n = some comparison) :
    ∃ k, 0 < k ∧ k ≤ n ∧ comparison.left = cs.take k ∧
      operatorAt? ((cs.drop k).dropWhile isBlank) =
        some (comparison.relation, comparison.right) := by
  induction n with
  | zero => cases h
  | succ n ih =>
      simp only [comparisonWithin?] at h
      split at h
      · next found =>
          cases h
          exact ⟨n + 1, by omega, Nat.le_refl _, rfl, found⟩
      · obtain ⟨k, pos, le, left, found⟩ := ih h
        exact ⟨k, pos, by omega, left, found⟩

theorem isSome_comparisonWithin? {cs : List Char} {k n : Nat} (pos : 0 < k) (le : k ≤ n)
    (found : (operatorAt? ((cs.drop k).dropWhile isBlank)).isSome) :
    (comparisonWithin? cs n).isSome := by
  induction n with
  | zero => omega
  | succ n ih =>
      simp only [comparisonWithin?]
      split
      · rfl
      · next missed =>
          rcases Nat.le_succ_iff.mp le with le | rfl
          · exact ih le
          · simp [missed] at found

theorem reads_of_comparison? {cs : List Char} {comparison : Comparison}
    (h : comparison? cs = some comparison) :
    comparison.left ≠ [] ∧ comparison.right ≠ [] ∧
      Reads comparison.left comparison.relation comparison.right cs := by
  obtain ⟨k, pos, le, left, found⟩ := comparisonWithin?_eq_some h
  obtain ⟨spelling, gap', mem, blank, ne, solid, rest⟩ := operatorAt?_spec found
  obtain ⟨tail, word⟩ := List.takeWhile_prefix (l := cs) fun c => !isBlank c
  have taken : cs.take k = (cs.takeWhile fun c => !isBlank c).take k := by
    have inside : ((cs.takeWhile fun c => !isBlank c) ++ tail).take k = _ :=
      List.take_append_of_le_length le
    rwa [word] at inside
  refine ⟨?_, ne, ?_, solid, (cs.drop k).takeWhile isBlank, spelling, gap', mem,
    fun c hc => List.mem_takeWhile_imp hc, blank, ?_⟩
  · rw [left, taken]
    intro empty
    have := congrArg List.length empty
    rw [List.length_take, List.length_nil] at this
    omega
  · intro c hc
    rw [left, taken] at hc
    simpa using List.mem_takeWhile_imp (List.mem_of_mem_take hc)
  · calc cs = cs.take k ++ cs.drop k := (List.take_append_drop k cs).symm
      _ = cs.take k ++ ((cs.drop k).takeWhile isBlank ++ (cs.drop k).dropWhile isBlank) := by
          rw [List.takeWhile_append_dropWhile]
      _ = _ := by rw [rest, left]; simp only [List.append_assoc]

theorem isSome_comparison? {cs : List Char} :
    (comparison? cs).isSome ↔
      ∃ left relation right, left ≠ [] ∧ right ≠ [] ∧ Reads left relation right cs := by
  constructor
  · intro h
    obtain ⟨comparison, h⟩ := Option.isSome_iff_exists.mp h
    exact ⟨_, _, _, reads_of_comparison? h⟩
  · rintro ⟨left, relation, right, left_ne, right_ne, solid, solid', gap, spelling, gap', mem, blank,
      blank', rfl⟩
    refine isSome_comparisonWithin? (k := left.length) (List.length_pos_iff.mpr left_ne) ?_ ?_
    · simp only [List.append_assoc]
      rw [List.takeWhile_append_of_pos (by simpa [Solid] using solid)]
      simp
    · obtain ⟨solid_spelling, ne⟩ := solid_of_mem_spellings mem
      have dropped := dropWhile_isBlank blank solid_spelling ne (gap' ++ right)
      simp only [List.append_assoc, List.drop_left] at dropped ⊢
      rw [dropped, ← List.append_assoc]
      exact isSome_operatorAt? mem blank' right_ne solid'

theorem comparison?_of_words {cs : List Char} (h : 3 < Text.wordCount cs) : comparison? cs = none := by
  rw [← Option.not_isSome_iff_eq_none, isSome_comparison?]
  rintro ⟨left, relation, right, -, -, solid, solid', gap, spelling, gap', mem, blank, blank', rfl⟩
  have := Text.wordCount_append_le (left ++ gap ++ spelling ++ gap') right
  have := Text.wordCount_append_le (left ++ gap ++ spelling) gap'
  have := Text.wordCount_append_le (left ++ gap) spelling
  have := Text.wordCount_append_le left gap
  have := Text.wordCount_le_one solid
  have := Text.wordCount_le_one solid'
  have := Text.wordCount_le_one (solid_of_mem_spellings mem).1
  have := Text.wordCount_of_all_blank blank
  have := Text.wordCount_of_all_blank blank'
  omega

theorem comparison?_spaced {left right spelling : List Char} {relation : Relation}
    (mem : (relation, spelling) ∈ Relation.spellings) (left_ne : left ≠ []) (solid : Solid left)
    (right_ne : right ≠ []) (solid' : Solid right) :
    comparison? (left ++ ' ' :: (spelling ++ ' ' :: right)) = some ⟨left, relation, right⟩ := by
  have word : (left ++ ' ' :: (spelling ++ ' ' :: right)).takeWhile (fun c => !isBlank c) = left := by
    rw [List.takeWhile_append_of_pos (by simpa [Solid] using solid)]
    simp [isBlank_space]
  obtain ⟨n, length⟩ := Nat.exists_eq_succ_of_ne_zero (mt List.length_eq_zero_iff.mp left_ne)
  have blank : ∀ c ∈ [' '], isBlank c = true := by simp [isBlank_space]
  obtain ⟨solid_spelling, ne⟩ := solid_of_mem_spellings mem
  have dropped := dropWhile_isBlank blank solid_spelling ne (' ' :: right)
  rw [comparison?, word, length, comparisonWithin?, ← Nat.succ_eq_add_one, ← length, List.drop_left,
    List.take_left]
  rw [List.append_assoc, List.singleton_append] at dropped
  rw [dropped, operatorAt?_spaced mem right_ne solid']

/-! ### Operands -/

theorem readInt?_eq_none {c : Char} (digit : Text.Decimal.digitValue? c = none) (minus : c ≠ '-')
    (plus : c ≠ '+') (cs : List Char) : Text.Decimal.readInt? (c :: cs) = none := by
  rw [Text.Decimal.readInt?.eq_3]
  · simp [Text.Decimal.read?, Text.Decimal.readFrom, digit]
  · intro rest h
    exact minus (List.cons.inj h).1
  · intro rest h
    exact plus (List.cons.inj h).1

def constants : List String := ["nil", "true", "false"]

theorem parse_eq_str {c : Char} (digit : Text.Decimal.digitValue? c = none) (minus : c ≠ '-')
    (plus : c ≠ '+') (cs : List Char) (other : String.ofList (c :: cs) ∉ constants) :
    Value.parse (String.ofList (c :: cs)) = .str (String.ofList (c :: cs)) := by
  simp only [constants, List.mem_cons, List.not_mem_nil, or_false, not_or] at other
  obtain ⟨notNil, notTrue, notFalse⟩ := other
  simp only [Value.parse, if_neg notNil, if_neg notTrue, if_neg notFalse, Value.parseIntegerOrText,
    String.toList_ofList, readInt?_eq_none digit minus plus]

theorem isNameStart_spec {c : Char} (h : isNameStart c = true) :
    Text.Decimal.digitValue? c = none ∧ c ≠ '-' ∧ c ≠ '+' ∧ c ≠ '"' := by
  have start : c.toNat = 95 ∨ 97 ≤ c.toNat := by
    simp only [isNameStart, Bool.or_eq_true, beq_iff_eq] at h
    rcases h with rfl | h
    · exact .inl rfl
    · delta Char.isLower at h
      simp only [Bool.and_eq_true, decide_eq_true_eq, UInt32.le_iff_toNat_le, ge_iff_le] at h
      exact .inr h.1
  refine ⟨?_, ?_, ?_, ?_⟩
  · rw [Text.Decimal.digitValue?, if_neg (by omega)]
  all_goals
    rintro rfl
    revert start
    decide

theorem isBlank_of_isNameChar {c : Char} (h : isNameChar c = true) : isBlank c = false := by
  have small : c.toNat < 0x80 ∧ 48 ≤ c.toNat := by
    simp only [isNameChar, Bool.or_eq_true, beq_iff_eq] at h
    rcases h with rfl | h
    · decide
    · delta Char.isAlphanum Char.isAlpha Char.isUpper Char.isLower Char.isDigit at h
      simp only [Bool.or_eq_true, Bool.and_eq_true, decide_eq_true_eq, UInt32.le_iff_toNat_le,
        ge_iff_le] at h
      change ((65 ≤ c.toNat ∧ c.toNat ≤ 90) ∨ (97 ≤ c.toNat ∧ c.toNat ≤ 122)) ∨
        (48 ≤ c.toNat ∧ c.toNat ≤ 57) at h
      omega
  simp only [isBlank, Bool.or_eq_false_iff, Bool.and_eq_false_iff, decide_eq_false_iff_not,
    beq_eq_false_iff_ne]
  omega

theorem operand_quoted (lookup? : String → Option Value) (content : List Char) :
    operand lookup? ('"' :: (content ++ ['"'])) = .ok (.str (String.ofList content)) := by
  simp [operand, quoted?]

theorem operand_malformed {lookup? : String → Option Value} {cs : List Char}
    (unquoted : quoted? cs = none) (parsed : Value.parse (String.ofList cs) = .str (String.ofList cs))
    (unnamed : isName cs = false) :
    operand lookup? cs = .error (.malformed (String.ofList cs)) := by
  simp only [operand, unquoted, parsed, unnamed, Bool.false_eq_true, if_false]

theorem operand_unclosed (lookup? : String → Option Value) {cs : List Char} (h : '"' ∉ cs) :
    operand lookup? ('"' :: cs) = .error (.malformed (String.ofList ('"' :: cs))) := by
  have unquoted : quoted? ('"' :: cs) = none := by
    rw [quoted?, if_neg]
    exact fun last => h (List.mem_of_getLast? last)
  have other : String.ofList ('"' :: cs) ∉ constants := by
    simp [constants, ← String.toList_inj]
  exact operand_malformed unquoted (parse_eq_str rfl (by decide) (by decide) cs other)
    (by simp [isName, isNameStart])

/-- A text that a condition reads as a variable. -/
def IsVariable (name : String) : Prop := isName name.toList = true ∧ name ∉ constants

theorem isName_spec {cs : List Char} (h : isName cs = true) :
    Solid cs ∧ ∃ c rest, cs = c :: rest ∧ isNameStart c = true := by
  cases cs with
  | nil => cases h
  | cons c rest =>
      simp only [isName, Bool.and_eq_true, List.all_eq_true] at h
      exact ⟨fun d hd => isBlank_of_isNameChar (h.2 d hd), c, rest, rfl, h.1⟩

theorem parse_variable {name : String} (h : IsVariable name) :
    quoted? name.toList = none ∧ Value.parse name = .str name := by
  obtain ⟨-, c, rest, eq, start⟩ := isName_spec h.1
  obtain ⟨digit, minus, plus, quote⟩ := isNameStart_spec start
  have whole : String.ofList (c :: rest) = name := by rw [← eq, String.ofList_toList]
  constructor
  · rw [eq, quoted?.eq_2]
    simpa using quote
  · rw [← whole]
    apply parse_eq_str digit minus plus rest
    rw [whole]
    exact h.2

theorem operand_variable {lookup? : String → Option Value} {name : String} {value : Value}
    (h : IsVariable name) (found : lookup? name = some value) :
    operand lookup? name.toList = .ok value := by
  obtain ⟨unquoted, parsed⟩ := parse_variable h
  simp only [operand, unquoted, String.ofList_toList, parsed, h.1, if_true, found]

/-! ### Conditions -/

def literal (text : String) : String := "\"" ++ text ++ "\""

def compared (left spelling right : String) : String := left ++ " " ++ spelling ++ " " ++ right

theorem toList_literal (text : String) : (literal text).toList = '"' :: (text.toList ++ ['"']) := by
  simp [literal]

theorem toList_compared (left spelling right : String) :
    (compared left spelling right).toList =
      left.toList ++ ' ' :: (spelling.toList ++ ' ' :: right.toList) := by
  simp [compared]

theorem solid_literal {text : String} : Solid (literal text).toList ↔ Solid text.toList := by
  rw [toList_literal, Text.solid_cons, Text.solid_append]
  simp [Solid, isBlank_quote]

theorem wordCount_literal_pos (text : String) : 0 < Text.wordCount (literal text).toList :=
  Text.wordCount_pos (c := '"') (by simp [toList_literal]) isBlank_quote

theorem one_lt_wordCount_literal {text : String} (h : ¬ Solid text.toList) :
    1 < Text.wordCount (literal text).toList := by
  simp only [Solid, not_forall, Bool.not_eq_false] at h
  obtain ⟨b, mem, blank⟩ := h
  obtain ⟨front, back, eq⟩ := List.append_of_mem mem
  have cut : (literal text).toList = ('"' :: front) ++ b :: (back ++ ['"']) := by
    simp [toList_literal, eq]
  have first : 0 < Text.wordCount ('"' :: front) :=
    Text.wordCount_pos List.mem_cons_self isBlank_quote
  have last : 0 < Text.wordCount (back ++ ['"']) :=
    Text.wordCount_pos (List.mem_append_right _ List.mem_cons_self) isBlank_quote
  rw [cut, Text.wordCount_append_cons blank]
  omega

theorem comparison?_compared_of_words {left spelling right : String} {relation : Relation}
    (mem : (relation, spelling.toList) ∈ Relation.spellings)
    (many : 2 < Text.wordCount left.toList + Text.wordCount right.toList) :
    comparison? (compared left spelling right).toList = none := by
  have middle : 0 < Text.wordCount spelling.toList := by
    obtain ⟨solid, ne⟩ := solid_of_mem_spellings mem
    obtain ⟨c, hc⟩ := List.exists_mem_of_ne_nil _ ne
    exact Text.wordCount_pos hc (solid c hc)
  refine comparison?_of_words ?_
  rw [toList_compared, Text.wordCount_append_cons isBlank_space,
    Text.wordCount_append_cons isBlank_space]
  omega

theorem evaluate_of_unsplit {lookup? : String → Option Value} {text : String}
    (trimmed : Text.trim text.toList = text.toList) (h : comparison? text.toList = none) :
    evaluate lookup? text = (operand lookup? text.toList).map Value.isTruthy := by
  simp only [evaluate, trimmed, h]

theorem evaluate_of_split {lookup? : String → Option Value} {text : String}
    (comparison : Comparison) (trimmed : Text.trim text.toList = text.toList)
    (h : comparison? text.toList = some comparison) :
    evaluate lookup? text = (do
      let left ← operand lookup? comparison.left
      let right ← operand lookup? comparison.right
      comparison.relation.holds left right) := by
  simp only [evaluate, trimmed, h]

theorem trim_literal (text : String) : Text.trim (literal text).toList = (literal text).toList :=
  Text.trim_of_ends isBlank_quote isBlank_quote (by simp [toList_literal])
    (by simp [toList_literal, List.getLast?_cons])

theorem trim_compared {left right : String} {a b : Char} (ha : isBlank a = false)
    (hb : isBlank b = false) (first : left.toList.head? = some a)
    (last : right.toList.getLast? = some b) (spelling : String) :
    Text.trim (compared left spelling right).toList = (compared left spelling right).toList :=
  Text.trim_of_ends ha hb (by simp [toList_compared, List.head?_append, first])
    (by simp [toList_compared, List.getLast?_append, List.getLast?_cons, last])

theorem head?_literal (text : String) : (literal text).toList.head? = some '"' := by
  simp [toList_literal]

theorem getLast?_literal (text : String) : (literal text).toList.getLast? = some '"' := by
  simp [toList_literal, List.getLast?_cons]

theorem evaluate_compared {lookup? : String → Option Value} {left spelling right : String}
    {relation : Relation} {a b : Char} (mem : (relation, spelling.toList) ∈ Relation.spellings)
    (first : left.toList.head? = some a) (last : right.toList.getLast? = some b)
    (solid : Solid left.toList) (solid' : Solid right.toList) :
    evaluate lookup? (compared left spelling right) = (do
      let l ← operand lookup? left.toList
      let r ← operand lookup? right.toList
      relation.holds l r) := by
  have mem_a : a ∈ left.toList := List.mem_of_mem_head? first
  have mem_b : b ∈ right.toList := List.mem_of_getLast? last
  refine evaluate_of_split ⟨left.toList, relation, right.toList⟩
    (trim_compared (solid a mem_a) (solid' b mem_b) first last spelling) ?_
  rw [toList_compared]
  exact comparison?_spaced mem (List.ne_nil_of_mem mem_a) solid (List.ne_nil_of_mem mem_b) solid'

theorem evaluate_compared_literals (lookup? : String → Option Value) (left right : String)
    (relation : Relation) {spelling : String}
    (mem : (relation, spelling.toList) ∈ Relation.spellings) :
    evaluate lookup? (compared (literal left) spelling (literal right)) =
      if Solid left.toList ∧ Solid right.toList then relation.holds (.str left) (.str right)
      else .ok true := by
  split
  · next solid =>
      rw [evaluate_compared mem (head?_literal left) (getLast?_literal right)
        (solid_literal.mpr solid.1) (solid_literal.mpr solid.2), toList_literal, toList_literal,
        operand_quoted, operand_quoted, String.ofList_toList, String.ofList_toList]
      rfl
  · next split =>
      have many : 2 < Text.wordCount (literal left).toList + Text.wordCount (literal right).toList := by
        have := wordCount_literal_pos left
        have := wordCount_literal_pos right
        rcases not_and_or.mp split with cut | cut <;> have := one_lt_wordCount_literal cut <;> omega
      rw [evaluate_of_unsplit
        (trim_compared isBlank_quote isBlank_quote (head?_literal left) (getLast?_literal right) _)
        (comparison?_compared_of_words mem many)]
      have whole : (compared (literal left) spelling (literal right)).toList = '"' :: ((left.toList ++
          ('"' :: ' ' :: (spelling.toList ++ ' ' :: '"' :: right.toList))) ++ ['"']) := by
        simp [toList_compared, toList_literal]
      rw [whole, operand_quoted]
      rfl

theorem evaluate_compared_variable {lookup? : String → Option Value} {name : String} {value : Value}
    (h : IsVariable name) (found : lookup? name = some value) (text : String) (relation : Relation)
    {spelling : String} (mem : (relation, spelling.toList) ∈ Relation.spellings) :
    evaluate lookup? (compared name spelling (literal text)) =
      if Solid text.toList then relation.holds value (.str text)
      else .error (.malformed (compared name spelling (literal text))) := by
  obtain ⟨solid, c, rest, eq, start⟩ := isName_spec h.1
  have first : name.toList.head? = some c := by rw [eq]; rfl
  have solid_c : isBlank c = false := solid c (by simp [eq])
  split
  · next solid' =>
      rw [evaluate_compared mem first (getLast?_literal text) solid (solid_literal.mpr solid'),
        operand_variable h found, toList_literal, operand_quoted, String.ofList_toList]
      rfl
  · next cut =>
      have many : 2 < Text.wordCount name.toList + Text.wordCount (literal text).toList := by
        have := Text.wordCount_pos (List.mem_of_mem_head? first) solid_c
        have := one_lt_wordCount_literal cut
        omega
      obtain ⟨digit, minus, plus, quote⟩ := isNameStart_spec start
      have whole : (compared name spelling (literal text)).toList =
          c :: (rest ++ ' ' :: (spelling.toList ++ ' ' :: (literal text).toList)) := by
        rw [toList_compared, eq]; rfl
      have unquoted : quoted? (compared name spelling (literal text)).toList = none := by
        rw [whole, quoted?.eq_2]; simpa using quote
      have space : ' ' ∈ (compared name spelling (literal text)).toList := by simp [toList_compared]
      have parsed := parse_eq_str digit minus plus
        (rest ++ ' ' :: (spelling.toList ++ ' ' :: (literal text).toList)) (by
          rw [← whole, String.ofList_toList]
          intro const
          have all : ∀ constant ∈ constants, ' ' ∉ constant.toList := by decide
          exact all _ const space)
      rw [← whole] at parsed
      have unnamed : isName (compared name spelling (literal text)).toList = false :=
        Bool.eq_false_iff.mpr fun named => absurd ((isName_spec named).1 _ space) (by decide)
      rw [evaluate_of_unsplit (trim_compared solid_c isBlank_quote first (getLast?_literal text) _)
        (comparison?_compared_of_words mem many), operand_malformed unquoted parsed unnamed,
        String.ofList_toList]
      rfl

/-- The text reads as a comparison whose operands may be empty. -/
def Divides (text : String) : Prop := ∃ left relation right, Reads left relation right text.toList

theorem isSome_comparison?_literal {text : String} :
    (comparison? (literal text).toList).isSome ↔ Divides text := by
  rw [isSome_comparison?, toList_literal]
  constructor
  · rintro ⟨left, relation, right, left_ne, right_ne, solid, solid', gap, spelling, gap', mem, blank,
      blank', eq⟩
    obtain ⟨c, left, rfl⟩ := List.exists_cons_of_ne_nil left_ne
    obtain ⟨right, d, rfl⟩ := (List.eq_nil_or_concat right).resolve_left right_ne
    rw [List.concat_eq_append] at solid' eq
    have inner : text.toList ++ ['"'] = (left ++ gap ++ spelling ++ gap' ++ right) ++ [d] := by
      simpa using (List.cons.inj eq).2
    exact ⟨left, relation, right, (Text.solid_cons.mp solid).2,
      (Text.solid_append.mp solid').1, gap, spelling, gap', mem, blank, blank',
      (List.append_inj' inner rfl).1⟩
  · rintro ⟨left, relation, right, solid, solid', gap, spelling, gap', mem, blank, blank', eq⟩
    refine ⟨'"' :: left, relation, right ++ ['"'], by simp, by simp,
      Text.solid_cons.mpr ⟨isBlank_quote, solid⟩,
      Text.solid_append.mpr ⟨solid', by simp [Solid, isBlank_quote]⟩, gap, spelling, gap', mem, blank,
      blank', ?_⟩
    simp [eq]

theorem evaluate_undivided (lookup? : String → Option Value) {text : String} (h : ¬ Divides text) :
    evaluate lookup? (literal text) = .ok true := by
  rw [← isSome_comparison?_literal, Option.not_isSome_iff_eq_none] at h
  rw [evaluate_of_unsplit (trim_literal text) h, toList_literal, operand_quoted]
  rfl

theorem evaluate_divided (lookup? : String → Option Value) {text : String} (plain : '"' ∉ text.toList)
    (h : Divides text) : ∃ part, evaluate lookup? (literal text) = .error (.malformed part) := by
  obtain ⟨comparison, split⟩ := Option.isSome_iff_exists.mp (isSome_comparison?_literal.mpr h)
  obtain ⟨left_ne, right_ne, -, -, gap, spelling, gap', -, -, -, eq⟩ := reads_of_comparison? split
  obtain ⟨c, left, left_eq⟩ := List.exists_cons_of_ne_nil left_ne
  obtain ⟨right, d, right_eq⟩ := (List.eq_nil_or_concat _).resolve_left right_ne
  rw [toList_literal, left_eq, right_eq, List.concat_eq_append] at eq
  have inner : text.toList ++ ['"'] = (left ++ gap ++ spelling ++ gap' ++ right) ++ [d] := by
    simpa using (List.cons.inj eq).2
  have opened : comparison.left = '"' :: left := by rw [left_eq, ← (List.cons.inj eq).1]
  have unclosed : '"' ∉ left := fun mem =>
    plain ((List.append_inj' inner rfl).1 ▸ by simp [mem])
  refine ⟨String.ofList ('"' :: left), ?_⟩
  rw [evaluate_of_split comparison (trim_literal text) split, opened, operand_unclosed lookup? unclosed]
  rfl

theorem holds_eq (left right : Value) : Relation.eq.holds left right = .ok (decide (left = right)) :=
  rfl

theorem holds_ne (left right : Value) : Relation.ne.holds left right = .ok (decide (left ≠ right)) :=
  congrArg Except.ok decide_not.symm

/-- What conditions made of string literals evaluate to: a literal holds unless its content reads as a
comparison; two literals are compared, and a variable with a literal, when there is no white space
inside; otherwise the comparison of literals holds and that of a variable is malformed. -/
theorem evaluate_literals (lookup? : String → Option Value) {s : String} (plain : '"' ∉ s.toList)
    (t : String) :
    (¬ Divides s → evaluate lookup? (literal s) = .ok true) ∧
    (Divides s → ∃ part, evaluate lookup? (literal s) = .error (.malformed part)) ∧
    evaluate lookup? (compared (literal s) "==" (literal t)) =
      .ok (decide (Solid s.toList ∧ Solid t.toList → s = t)) ∧
    evaluate lookup? (compared (literal s) "!=" (literal t)) =
      .ok (decide (Solid s.toList ∧ Solid t.toList → s ≠ t)) ∧
    ∀ x value, IsVariable x → lookup? x = some value →
      evaluate lookup? (compared x "==" (literal s)) =
        if Solid s.toList then .ok (decide (value = .str s))
        else .error (.malformed (compared x "==" (literal s))) := by
  refine ⟨evaluate_undivided lookup?, evaluate_divided lookup? plain, ?_, ?_, ?_⟩
  · rw [evaluate_compared_literals lookup? s t .eq (by decide), holds_eq]
    split <;> simp [*]
  · rw [evaluate_compared_literals lookup? s t .ne (by decide), holds_ne]
    split <;> simp [*]
  · intro x value variableName found
    rw [evaluate_compared_variable variableName found s .eq (by decide), holds_eq]

theorem evaluate_plain_literals :
    evaluate (fun _ => some (.str "a")) (literal "a") = .ok true ∧
    (∃ part, evaluate (fun _ => some (.str "a")) (literal "a<b") = .error (.malformed part)) ∧
    evaluate (fun _ => some (.str "a")) (compared (literal "a") "==" (literal "b")) = .ok false ∧
    evaluate (fun _ => some (.str "a")) (compared (literal "a") "!=" (literal "b")) = .ok true ∧
    evaluate (fun _ => some (.str "a")) (compared "x" "==" (literal "a")) = .ok true := by
  have undivided : ¬ Divides "a" := by
    rw [← isSome_comparison?_literal]
    decide
  have divided : Divides "a<b" := by
    rw [← isSome_comparison?_literal]
    decide
  obtain ⟨alone, -, eq, ne, variableEq⟩ :=
    evaluate_literals (fun _ => some (.str "a")) (s := "a") (by decide) "b"
  obtain ⟨-, cut, -, -, -⟩ :=
    evaluate_literals (fun _ => some (.str "a")) (s := "a<b") (by decide) "b"
  exact ⟨alone undivided, cut divided, eq, ne, variableEq "x" (.str "a") ⟨by decide, by decide⟩ rfl⟩

/-- White space inside a literal makes different ones equal, an operator inside cuts a literal in
two, and a variable is not found equal to the text it holds. -/
theorem literals_misread :
    "a b" ≠ "c" ∧
    evaluate (fun _ => none) (compared (literal "a b") "==" (literal "c")) = .ok true ∧
    evaluate (fun _ => none) (literal "a == b") = .error (.malformed "\"a") ∧
    evaluate (fun _ => some (.str "a b")) (compared "x" "==" (literal "a b")) =
      .error (.malformed "x == \"a b\"") := by
  decide +kernel

end Condition

end EventDebugger
