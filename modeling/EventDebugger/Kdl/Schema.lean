import EventDebugger.Kdl.Document

/-!
# Schemas

What a program expects of the nodes of a document: the types of arguments and properties, and that
there are no others. The tag of a value has to name the type that is expected, and a node of a record
has no tag. A node that stands for a single value or for its presence may have any tag.
-/

namespace EventDebugger.Kdl

namespace Value

/-- A text. -/
def text? (value : Value) : Option String :=
  match value.tag, value.literal with
  | none, .text s => some s
  | _, _ => none

/-- Whether a tag names a type or is not there. -/
def isOfType (value : Value) (type : String) : Bool :=
  value.tag == none || value.tag == some type

/-- A natural number of so many bits, without a minus sign. -/
def natural? (bits : Nat) (value : Value) : Option Nat :=
  match value.literal with
  | .integer false n =>
      if value.isOfType ("u" ++ toString bits) ∧ n < Nat.pow 2 bits then some n else none
  | _ => none

end Value

/-- The value of an optional property: absent or `null`, or of a type. -/
def optional {α : Type} (read? : Value → Option α) (value : Option Value) : Option (Option α) :=
  match value with
  | none => some none
  | some ⟨none, .null⟩ => some none
  | some value => (read? value).map some

namespace Node

/-- An optional text property. -/
def optionalText (node : Node) (name : String) : Option (Option String) :=
  optional Value.text? (node.property? name)

/-- An optional natural number as a property. -/
def optionalNatural (bits : Nat) (node : Node) (name : String) : Option (Option Nat) :=
  match node.property? name with
  | some ⟨some tag, .null⟩ =>
      if tag = "u" ++ toString bits then some none else none
  | value => optional (Value.natural? bits) value

/-- Whether a node has no tag and no properties but the named ones. -/
def hasOnly (node : Node) (properties : List String) : Bool :=
  node.tag.isNone && node.propertyNames.all properties.contains

/-- Whether a node has nothing but its name and its tag. -/
def isFlag (node : Node) : Bool := node.entries.isEmpty && node.children.isEmpty

/-- The only argument of a node without properties and children. -/
def soleArgument? (node : Node) : Option Value :=
  if node.propertyNames.isEmpty && node.children.isEmpty then
    match node.arguments with
    | [value] => some value
    | _ => none
  else none

end Node

end EventDebugger.Kdl
