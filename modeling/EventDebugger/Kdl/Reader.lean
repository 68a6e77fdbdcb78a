import EventDebugger.Kdl.Document

/-!
# Reading documents

The reader of the first version of the language. A node ends with a newline, a semicolon, a line
comment or the end of the text; a closing brace does not end it. Slash-dash drops the node, entry or
children that follow it.

A reader takes the first alternative that fits and does not come back to it. It yields what it read
with the rest of the text. Readers that repeat or nest something carry a second text as fuel and take a
character of it for each part. They start with the text that they read, of which every part takes a
character at least.
-/

namespace EventDebugger.Kdl.Reader

/-- Reads something from the start of a text and yields the rest of the text. -/
abbrev Reading (α : Type) := Option (α × List Char)

/-! ## Blanks and comments -/

/-- A blank inside a line. -/
def isBlank (c : Char) : Bool :=
  let n := c.toNat
  n == 0x9 || n == 0x20 || n == 0xA0 || n == 0x1680 || (0x2000 ≤ n && n ≤ 0x200A) || n == 0x202F ||
    n == 0x205F || n == 0x3000 || n == 0xFEFF

/-- A character that ends a line. -/
def isNewline (c : Char) : Bool :=
  let n := c.toNat
  n == 0xA || n == 0xC || n == 0xD || n == 0x85 || n == 0x2028 || n == 0x2029

/-- The text after a newline. A carriage return and a line feed are one newline. -/
def newline? : List Char → Option (List Char)
  | '\r' :: '\n' :: cs => some cs
  | c :: cs => if isNewline c then some cs else none
  | [] => none

/-- The text after a block comment whose opening was read. Block comments nest; an inner opening that
is never closed is ordinary text. -/
def blockComment? : List Char → List Char → Option (List Char)
  | [], _ => none
  | _ :: fuel, '/' :: '*' :: cs =>
      match blockComment? fuel cs with
      | some rest => blockComment? fuel rest
      | none => blockComment? fuel ('*' :: cs)
  | _ :: _, '*' :: '/' :: cs => some cs
  | _ :: fuel, _ :: cs => blockComment? fuel cs
  | _ :: _, [] => none

/-- The text after a run of blanks or a block comment. -/
def blank? : List Char → Option (List Char)
  | '/' :: '*' :: cs => blockComment? cs cs
  | c :: cs => if isBlank c then some (cs.dropWhile isBlank) else none
  | [] => none

/-- The text after a line comment and the newline that ends it. -/
def lineComment? : List Char → Option (List Char)
  | '/' :: '/' :: cs =>
      let rest := cs.dropWhile fun c => !isNewline c
      some ((newline? rest).getD rest)
  | _ => none

/-- Skips what `skip?` skips, as often as it does. -/
def skipMany (skip? : List Char → Option (List Char)) : List Char → List Char → List Char
  | [], cs => cs
  | _ :: fuel, cs =>
      match skip? cs with
      | some rest => skipMany skip? fuel rest
      | none => cs

/-- Skips runs of blanks and block comments. -/
def skipBlanks (cs : List Char) : List Char := skipMany blank? cs cs

/-- The text after the mark that continues a line on the next one. -/
def continuation? : List Char → Option (List Char)
  | '\\' :: cs =>
      let rest := skipBlanks cs
      (lineComment? rest).or (newline? rest)
  | _ => none

/-- The text after something that separates the parts of a node. -/
def nodeSpace? (cs : List Char) : Option (List Char) := (blank? cs).or (continuation? cs)

/-- Skips what separates the parts of a node. -/
def skipNodeSpace (cs : List Char) : List Char := skipMany nodeSpace? cs cs

/-- Skips what separates nodes. -/
def skipLineSpace (cs : List Char) : List Char :=
  skipMany (fun cs => ((newline? cs).or (blank? cs)).or (lineComment? cs)) cs cs

/-- The text after the end of a node. -/
def terminator? (cs : List Char) : Option (List Char) :=
  match cs with
  | [] => some []
  | ';' :: rest => some rest
  | _ => (newline? cs).or (lineComment? cs)

/-! ## Names -/

/-- A character that can stand in a bare name. -/
def isNameChar (c : Char) : Bool :=
  let n := c.toNat
  !(n ≤ 0x21 || "\\/()\x7b\x7d<>;[]=,\"".toList.contains c || isBlank c && n != 0xFEFF ||
    isNewline c)

/-- A character that can start a bare name after a sign. -/
def startsAfterSign (c : Char) : Bool := (isNameChar c || c == '!') && !c.isDigit

/-- A character that can start a bare name. -/
def startsName (c : Char) : Bool := startsAfterSign c && c != '+' && c != '-'

/-- Reads a bare name. -/
def bareName? (cs : List Char) : Reading String :=
  let named : Reading String := match cs with
    | s :: c :: rest =>
        if s == '+' || s == '-' then
          if startsAfterSign c then
            some (String.ofList (s :: c :: rest.takeWhile isNameChar), rest.dropWhile isNameChar)
          else some (String.singleton s, c :: rest)
        else if startsName s then
          some (String.ofList (s :: (c :: rest).takeWhile isNameChar),
            (c :: rest).dropWhile isNameChar)
        else none
    | [c] => if c == '+' || c == '-' || startsName c then some (String.singleton c, []) else none
    | [] => none
  match named with
  | some (name, rest) =>
      if name = "true" ∨ name = "false" ∨ name = "null" then none else some (name, rest)
  | none => none

/-! ## Strings -/

/-- The value of a hexadecimal digit. -/
def hexValue? (c : Char) : Option Nat :=
  let n := c.toNat
  if 48 ≤ n ∧ n ≤ 57 then some (n - 48)
  else if 97 ≤ n ∧ n ≤ 102 then some (n - 87)
  else if 65 ≤ n ∧ n ≤ 70 then some (n - 55)
  else none

/-- Reads the number of a character in braces: one to six hexadecimal digits. -/
def escapedScalar? (cs : List Char) : Reading Char :=
  match cs with
  | '\x7b' :: cs =>
      let digits := (cs.takeWhile fun c => (hexValue? c).isSome).take 6
      let n := digits.foldl (fun n c => n * 16 + (hexValue? c).getD 0) 0
      match cs.drop digits.length with
      | '\x7d' :: rest =>
          if h : digits ≠ [] ∧ n.isValidChar then some (Char.ofNatAux n h.2, rest) else none
      | _ => none
  | _ => none

/-- Reads what follows a backslash in a string. -/
def escape? : List Char → Reading Char
  | '"' :: cs => some ('"', cs)
  | '\\' :: cs => some ('\\', cs)
  | '/' :: cs => some ('/', cs)
  | 'b' :: cs => some ('\x08', cs)
  | 'f' :: cs => some ('\x0c', cs)
  | 'n' :: cs => some ('\n', cs)
  | 'r' :: cs => some ('\r', cs)
  | 't' :: cs => some ('\t', cs)
  | 'u' :: cs => escapedScalar? cs
  | _ => none

/-- Reads the rest of a quoted string, up to and with the closing quote. -/
def quotedRest? : List Char → List Char → Option (List Char × List Char)
  | [], _ => none
  | _ :: _, [] => none
  | _ :: _, '"' :: cs => some ([], cs)
  | _ :: fuel, '\\' :: cs => do
      let (c, rest) ← escape? cs
      let (content, rest) ← quotedRest? fuel rest
      return (c :: content, rest)
  | _ :: fuel, c :: cs => do
      let (content, rest) ← quotedRest? fuel cs
      return (c :: content, rest)

/-- Reads the rest of a raw string, up to and with a quote that `marks` hash signs follow. -/
def rawRest? (marks : Nat) : List Char → Reading (List Char)
  | [] => none
  | c :: cs =>
      if c == '"' && (cs.take marks).length == marks && (cs.take marks).all (· == '#') then
        some ([], cs.drop marks)
      else
        match rawRest? marks cs with
        | some (content, rest) => some (c :: content, rest)
        | none => none

/-- Reads a raw string. -/
def rawString? (cs : List Char) : Reading String :=
  match cs with
  | 'r' :: cs =>
      let marks := (cs.takeWhile (· == '#')).length
      match cs.drop marks with
      | '"' :: rest => (rawRest? marks rest).map fun (content, rest) => (String.ofList content, rest)
      | _ => none
  | _ => none

/-- Reads a quoted string. -/
def quotedString? (cs : List Char) : Reading String :=
  match cs with
  | '"' :: rest =>
      (quotedRest? rest rest).map fun (content, rest) => (String.ofList content, rest)
  | _ => none

/-- Reads a string of either kind. -/
def string? (cs : List Char) : Reading String := (rawString? cs).or (quotedString? cs)

/-! ## Numbers -/

/-- The value of a digit in a base of at most sixteen. -/
def digitValue? (base : Nat) (c : Char) : Option Nat := (hexValue? c).filter (· < base)

/-- Reads digits of a base, at least one; underscores may stand after the first digit. -/
def digits? (base : Nat) (cs : List Char) : Reading Nat :=
  let inside := fun c => c == '_' || (digitValue? base c).isSome
  match cs with
  | c :: _ =>
      if (digitValue? base c).isSome then
        some ((cs.takeWhile inside).foldl
          (fun n c => match digitValue? base c with | some d => n * base + d | none => n) 0,
          cs.dropWhile inside)
      else none
  | [] => none

/-- Reads an optional sign; yields whether it is a minus. -/
def sign : List Char → Bool × List Char
  | '-' :: cs => (true, cs)
  | '+' :: cs => (false, cs)
  | cs => (false, cs)

/-- Reads an integer with a mark for its base. -/
def basedNumber? (cs : List Char) : Reading Literal :=
  let (negative, cs) := sign cs
  let read (base : Nat) (cs : List Char) : Reading Literal :=
    (digits? base cs).map fun (n, rest) => (.integer negative n, rest)
  match cs with
  | '0' :: 'b' :: cs => read 2 cs
  | '0' :: 'o' :: cs => read 8 cs
  | '0' :: 'x' :: cs => read 16 cs
  | _ => none

/-- The text after the places of a number, if it has any. -/
def fraction? : List Char → Option (List Char)
  | '.' :: cs => (digits? 10 cs).map (·.2)
  | _ => none

/-- The text after the exponent of a number, if it has one. -/
def exponent? : List Char → Option (List Char)
  | c :: cs =>
      if c == 'e' || c == 'E' then
        some ((sign cs).2.dropWhile fun c => c == '_' || c.isDigit)
      else none
  | [] => none

/-- Reads a decimal number. -/
def decimalNumber? (start : List Char) : Reading Literal :=
  let (negative, cs) := sign start
  match digits? 10 cs with
  | none => none
  | some (n, rest) =>
      let fraction := fraction? rest
      let exponent := exponent? (fraction.getD rest)
      match exponent.or fraction with
      | none => some (.integer negative n, rest)
      | some rest =>
          let written := (start.take (start.length - rest.length)).filter (· != '_')
          some (.decimal (String.ofList written), rest)

/-- Reads a number. -/
def number? (cs : List Char) : Reading Literal := (basedNumber? cs).or (decimalNumber? cs)

/-! ## Values -/

/-- The text after a word. -/
def word? (word : String) (cs : List Char) : Option (List Char) :=
  if word.toList.isPrefixOf cs then some (cs.drop word.length) else none

/-- Reads a keyword. -/
def keyword? (cs : List Char) : Reading Literal :=
  ((word? "null" cs).map ((.null, ·))).or
    (((word? "true" cs).map ((.bool true, ·))).or ((word? "false" cs).map ((.bool false, ·))))

/-- Reads a string, a keyword or a number. -/
def literal? (cs : List Char) : Reading Literal :=
  ((string? cs).map fun (s, rest) => (.text s, rest)).or ((keyword? cs).or (number? cs))

/-- Reads the name of a node or a type: a bare name or a string that does not start like a number. -/
def name? (cs : List Char) : Reading String :=
  match number? cs with
  | some _ => none
  | none => (bareName? cs).or (string? cs)

/-- Reads a type tag. -/
def tag? (cs : List Char) : Reading String :=
  match cs with
  | '(' :: cs =>
      match name? cs with
      | some (name, ')' :: rest) => some (name, rest)
      | _ => none
  | _ => none

/-- Reads a tagged value. -/
def taggedValue? (cs : List Char) : Option (Value × List Char) := do
  let (tag, rest) ← tag? cs
  let (literal, rest) ← literal? rest
  return (⟨some tag, literal⟩, rest)

/-- Reads a value. -/
def value? (cs : List Char) : Reading Value :=
  (taggedValue? cs).or ((literal? cs).map fun (literal, rest) => (⟨none, literal⟩, rest))

/-- Reads the value of a property, after the equals sign. -/
def assigned? (cs : List Char) : Reading Value :=
  match cs with
  | '=' :: rest => value? rest
  | _ => none

/-- Reads an argument or a property. Bare names are no arguments, and only names and strings name
properties. -/
def readEntry (cs : List Char) : Reading Entry :=
  match literal? cs with
  | some (literal, rest) =>
      match assigned? rest with
      | none => some (⟨none, ⟨none, literal⟩⟩, rest)
      | some (value, rest) =>
          match literal with
          | .text name => some (⟨some name, value⟩, rest)
          | _ => none
  | none =>
      match bareName? cs with
      | some (name, rest) =>
          (assigned? rest).map fun (value, rest) => (⟨some name, value⟩, rest)
      | none => (taggedValue? cs).map fun (value, rest) => (⟨none, value⟩, rest)

/-- The text after a slash-dash and what separates it from what it drops. -/
def slashDash? : List Char → Option (List Char)
  | '/' :: '-' :: cs => some (skipNodeSpace cs)
  | _ => none

/-- Reads an entry and drops it after a slash-dash. -/
def readKeptEntry (cs : List Char) : Reading (Option Entry) :=
  match (slashDash? cs).bind readEntry with
  | some (_, rest) => some (none, rest)
  | none => (readEntry cs).map fun (entry, rest) => (some entry, rest)

/-- Reads the entries of a node. Each is separated from what comes before. -/
def entries : List Char → List Char → List Entry × List Char
  | [], cs => ([], cs)
  | _ :: fuel, cs =>
      match nodeSpace? cs with
      | none => ([], cs)
      | some rest =>
          match readKeptEntry (skipNodeSpace rest) with
          | none => ([], cs)
          | some (entry, rest) =>
              let (more, rest) := entries fuel rest
              (entry.toList ++ more, rest)

/-- The start of the children of a node, and whether they are dropped. -/
def openChildren? (cs : List Char) : Reading Bool :=
  let start := skipNodeSpace cs
  let (dropped, start) := match slashDash? start with
    | some rest => (true, rest)
    | none => (false, start)
  match start with
  | '\x7b' :: rest => some (dropped, rest)
  | _ => none

/-- Reads a node with the reader of its children, up to and with its end. -/
def nodeWith? (nodes : List Char → List Node × List Char) (cs : List Char) : Reading Node :=
  let (tag, cs) := match tag? cs with
    | some (tag, rest) => (some tag, rest)
    | none => (none, cs)
  match name? cs with
  | none => none
  | some (name, cs) =>
      let (entries, cs) := entries cs cs
      let children : Reading (List Node) := match openChildren? cs with
        | none => none
        | some (dropped, rest) =>
            match nodes rest with
            | (children, '\x7d' :: rest) => some (if dropped then [] else children, rest)
            | _ => none
      let (children, cs) := children.getD ([], cs)
      (terminator? (skipNodeSpace cs)).map fun rest =>
        (.mk tag name entries children, rest)

/-- Reads as many nodes as there are, and skips what separates them. A node after a slash-dash is
dropped. -/
def nodes : List Char → List Char → List Node × List Char
  | [], cs => ([], cs)
  | _ :: fuel, cs =>
      let cs := skipLineSpace cs
      let (dropped, start) := match slashDash? cs with
        | some rest => (true, rest)
        | none => (false, cs)
      match nodeWith? (nodes fuel) start with
      | none => ([], cs)
      | some (node, rest) =>
          let (more, rest) := nodes fuel rest
          (if dropped then more else node :: more, rest)

/-- Reads a document. -/
def document? (text : String) : Option Document :=
  let cs := text.toList
  match nodes cs cs with
  | (document, []) => some document
  | _ => none

end EventDebugger.Kdl.Reader
