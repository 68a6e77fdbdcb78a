import EventDebugger.Kdl.Document
import EventDebugger.Text.Decimal

/-!
# Writing documents

The written form of the second version of the language: a node on a line of its own, four blanks of
indentation for each level, children in braces. A text is written bare where it can be read back as
a text, else in quotes.
-/

namespace EventDebugger.Kdl.Writer

/-- A character that forces a text into quotes. -/
def needsQuotes (c : Char) : Bool :=
  let n := c.toNat
  "\\/()\x7b\x7d;[]\"#=".toList.contains c || n ≤ 0x20 || n == 0x85 || n == 0xA0 || n == 0x1680 ||
    (0x2000 ≤ n && n ≤ 0x200A) || n == 0x200E || n == 0x200F || (0x2028 ≤ n && n ≤ 0x202F) ||
    n == 0x205F || (0x2066 ≤ n && n ≤ 0x2069) || n == 0x3000 || n == 0xFEFF

/-- Whether a text starts like a number. -/
def startsLikeNumber : List Char → Bool
  | s :: c :: _ => s.isDigit || ((s == '.' || s == '-' || s == '+') && c.isDigit)
  | [c] => c.isDigit
  | [] => false

/-- The words that are no texts when they are written bare. -/
def reservedWords : List String := ["inf", "-inf", "nan", "true", "false", "null"]

/-- Whether a text can be written bare. -/
def canBeBare (s : String) : Bool :=
  s != "" && !s.toList.any needsQuotes && !startsLikeNumber s.toList && !reservedWords.contains s

/-- A character inside quotes. -/
def escape : Char → List Char
  | '\\' => ['\\', '\\']
  | '"' => ['\\', '"']
  | '\n' => ['\\', 'n']
  | '\r' => ['\\', 'r']
  | '\t' => ['\\', 't']
  | '\x08' => ['\\', 'b']
  | '\x0c' => ['\\', 'f']
  | c => [c]

/-- A text, bare or in quotes. -/
def writeText (s : String) : String :=
  if canBeBare s then s else "\"" ++ String.ofList (s.toList.flatMap escape) ++ "\""

/-- A value without tag. -/
def writeLiteral : Literal → String
  | .text s => writeText s
  | .integer negative magnitude =>
      (if negative then "-" else "") ++ String.ofList (Text.Decimal.render magnitude)
  | .decimal written => written
  | .bool true => "#true"
  | .bool false => "#false"
  | .null => "#null"

/-- A value with its tag. -/
def writeValue (value : Value) : String :=
  match value.tag with
  | some tag => "(" ++ writeText tag ++ ")" ++ writeLiteral value.literal
  | none => writeLiteral value.literal

/-- An argument, or a property after its name. -/
def writeEntry (entry : Entry) : String :=
  match entry.name with
  | some name => writeText name ++ "=" ++ writeValue entry.value
  | none => writeValue entry.value

/-- The start of a node: its tag, its name and its entries. -/
def writeHead (tag : Option String) (name : String) (entries : List Entry) : String :=
  let tag := match tag with
    | some tag => "(" ++ writeText tag ++ ")"
    | none => ""
  entries.foldl (fun text entry => text ++ " " ++ writeEntry entry) (tag ++ writeText name)

/-- The indentation of a level. -/
def indentation (level : Nat) : String := String.ofList (List.replicate (4 * level) ' ')

mutual

/-- A node at a level of indentation. -/
def writeNode (level : Nat) : Node → String
  | .mk tag name entries children =>
      let head := indentation level ++ writeHead tag name entries
      match children with
      | [] => head ++ "\n"
      | child :: rest =>
          head ++ " \x7b\n" ++ writeNodes (level + 1) (child :: rest) ++ indentation level ++ "\x7d\n"

/-- Nodes at a level of indentation, one after the other. -/
def writeNodes (level : Nat) : List Node → String
  | [] => ""
  | node :: nodes => writeNode level node ++ writeNodes level nodes

end

/-- A document. -/
def writeDocument (document : Document) : String := writeNodes 0 document

end EventDebugger.Kdl.Writer
