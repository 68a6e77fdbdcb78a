import EventDebugger.Text.Decimal

/-!
# Values

The objects that a debugged program handles: what its variables hold and what it raises. A value has
a text, and a text is read as a value: `nil`, `true`, `false` and the 64-bit integers are recognised,
every other text is a string.
-/

namespace EventDebugger

/-- An object of the debugged program. -/
inductive Value where
  | nil
  | bool (b : Bool)
  | int (n : Int)
  | str (text : String)
  /-- An instance of a class. -/
  | object (className : String)
  /-- A raised exception; `id` tells one raise from another. -/
  | exception (className : String) (id : Nat)
deriving DecidableEq, Repr, Inhabited

namespace Value

/-- Whether a whole number is a signed 64-bit integer. -/
def isInteger64 (n : Int) : Bool :=
  decide (-9223372036854775808 ≤ n) && decide (n ≤ 9223372036854775807)

/-- The value of a text other than `nil`, `true` and `false`. -/
def parseIntegerOrText (text : String) : Value :=
  match Text.Decimal.readInt? text.toList with
  | some n => if isInteger64 n then .int n else .str text
  | none => .str text

/-- The value that a text denotes. -/
def parse (text : String) : Value :=
  if text = "nil" then .nil
  else if text = "true" then .bool true
  else if text = "false" then .bool false
  else parseIntegerOrText text

/-- The text of a value. Instances are written `#<Class>`, exceptions `#<Class:id>`. -/
def text : Value → String
  | .nil => "nil"
  | .bool true => "true"
  | .bool false => "false"
  | .int n => String.ofList (Text.Decimal.renderInt n)
  | .str text => text
  | .object className => "#<" ++ className ++ ">"
  | .exception className id =>
      "#<" ++ className ++ ":" ++ String.ofList (Text.Decimal.render id) ++ ">"

/-- Everything but `nil` and `false` counts as true. -/
def isTruthy : Value → Bool
  | .nil | .bool false => false
  | _ => true

end Value

end EventDebugger
