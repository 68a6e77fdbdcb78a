import EventDebugger.Text.Blank
import EventDebugger.Value

/-!
# Conditions

The guards of breakpoints: an operand, which holds when its value is truthy, or a comparison of two
operands. An operand is a string in double quotes, `nil`, `true`, `false`, an integer or a variable.

A text is split at an operator so that the left operand is as long as possible; the operands have no
white space inside. The two-character operators are tried before the one-character ones.
-/

namespace EventDebugger

/-- The comparisons that a condition can make. -/
inductive Relation where
  | eq | ne | le | ge | lt | gt
deriving DecidableEq, Repr

/-- Why a condition has no value. -/
inductive ConditionError where
  /-- The text of an operand is neither a literal nor a name. -/
  | malformed (text : String)
  | unboundVariable (name : String)
  /-- An ordering of values that are not both integers. -/
  | notComparable (left right : Value)
deriving DecidableEq, Repr

/-- What is reported to the user. -/
def ConditionError.message : ConditionError → String
  | .malformed text => "unsupported expression `" ++ text ++ "`"
  | .unboundVariable name => "undefined local variable `" ++ name ++ "`"
  | .notComparable left right =>
      "comparison of " ++ left.text ++ " with " ++ right.text ++ " failed"

namespace Relation

/-- The spellings of the relations, in the order in which they are tried. -/
def spellings : List (Relation × List Char) :=
  [(.eq, ['=', '=']), (.ne, ['!', '=']), (.le, ['<', '=']), (.ge, ['>', '=']), (.lt, ['<']),
    (.gt, ['>'])]

/-- Compares two values: any two for equality, integers only for order. -/
def holds : Relation → Value → Value → Except ConditionError Bool
  | .eq, l, r => .ok (l == r)
  | .ne, l, r => .ok (l != r)
  | .le, .int l, .int r => .ok (decide (l ≤ r))
  | .ge, .int l, .int r => .ok (decide (r ≤ l))
  | .lt, .int l, .int r => .ok (decide (l < r))
  | .gt, .int l, .int r => .ok (decide (r < l))
  | _, l, r => .error (.notComparable l r)

end Relation

namespace Condition

/-- A comparison as it is written. -/
structure Comparison where
  left : List Char
  relation : Relation
  right : List Char
deriving DecidableEq, Repr

/-- The right operand of a comparison: all of the text, without white space inside. -/
def rightOperand? (cs : List Char) : Option (List Char) :=
  let operand := cs.dropWhile Text.isBlank
  if operand ≠ [] ∧ operand.all (fun c => !Text.isBlank c) then some operand else none

/-- The operator at the start of a text, with the right operand after it. -/
def operatorAt? (cs : List Char) : Option (Relation × List Char) :=
  Relation.spellings.findSome? fun (relation, spelling) =>
    if spelling.isPrefixOf cs then
      (rightOperand? (cs.drop spelling.length)).map fun right => (relation, right)
    else none

/-- The comparison whose left operand has at most `n` characters, and as many of these as possible. -/
def comparisonWithin? (cs : List Char) : Nat → Option Comparison
  | 0 => none
  | n + 1 =>
      match operatorAt? ((cs.drop (n + 1)).dropWhile Text.isBlank) with
      | some (relation, right) => some ⟨cs.take (n + 1), relation, right⟩
      | none => comparisonWithin? cs n

/-- Splits a text into the parts of a comparison. -/
def comparison? (cs : List Char) : Option Comparison :=
  comparisonWithin? cs (cs.takeWhile fun c => !Text.isBlank c).length

/-- The content of a text in double quotes. -/
def quoted? : List Char → Option (List Char)
  | '"' :: rest => if rest.getLast? = some '"' then some rest.dropLast else none
  | _ => none

/-- A character that can start a name: an underscore or a lower case ASCII letter. -/
def isNameStart (c : Char) : Bool := c == '_' || c.isLower

/-- A character inside a name: an underscore, an ASCII letter or digit. -/
def isNameChar (c : Char) : Bool := c == '_' || c.isAlphanum

/-- A name of a variable. -/
def isName : List Char → Bool
  | [] => false
  | c :: cs => isNameStart c && (c :: cs).all isNameChar

/-- The value of an operand. -/
def operand (lookup? : String → Option Value) (cs : List Char) : Except ConditionError Value :=
  match quoted? cs with
  | some content => .ok (.str (String.ofList content))
  | none =>
      match Value.parse (String.ofList cs) with
      | .str text =>
          if isName cs then
            match lookup? text with
            | some value => .ok value
            | none => .error (.unboundVariable text)
          else .error (.malformed text)
      | literal => .ok literal

/-- Whether a condition holds where variables have the given values. -/
def evaluate (lookup? : String → Option Value) (condition : String) : Except ConditionError Bool :=
  let cs := Text.trim condition.toList
  match comparison? cs with
  | none => (operand lookup? cs).map Value.isTruthy
  | some comparison => do
      let left ← operand lookup? comparison.left
      let right ← operand lookup? comparison.right
      comparison.relation.holds left right

end Condition

end EventDebugger
