/-!
# Matching of file names

A breakpoint names a file by a path that may be shorter or longer than the one an event carries. Two
paths match when they agree from their ends up to the start of the shorter one, or up to a dot of
either one after a separator was passed: a leading `./` or `../` is then taken to fit. The slash is the only
separator, as it is on every platform but Windows, where the backslash is a second one.
-/

namespace EventDebugger.FileName

/-- Compares two reversed paths; `crossed` tells whether a separator was passed. -/
def agree (crossed : Bool) : List Char → List Char → Bool
  | a :: as, b :: bs =>
      if crossed && (a == '.' || b == '.') then true
      else if a = b then agree (crossed || a == '/') as bs
      else false
  | _, _ => true

/-- Whether a path given for a breakpoint and one given by an event are taken for the same file. -/
def matches? (source file : String) : Bool :=
  agree false source.toList.reverse file.toList.reverse

end EventDebugger.FileName
