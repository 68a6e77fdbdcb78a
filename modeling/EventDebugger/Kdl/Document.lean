/-!
# Documents

A document is a list of nodes. A node has a name, entries and child nodes; an entry is an argument or
a named property. Nodes and values can carry a type tag.
-/

namespace EventDebugger.Kdl

/-- A value without tag. A negative integer keeps its sign even where its magnitude is zero. -/
inductive Literal where
  | text (s : String)
  | integer (negative : Bool) (magnitude : Nat)
  /-- A number that is no integer, as it is written. -/
  | decimal (written : String)
  | bool (b : Bool)
  | null
deriving DecidableEq, Repr

/-- A value with its type tag. -/
structure Value where
  tag : Option String
  literal : Literal
deriving DecidableEq, Repr

/-- An argument, or a property if it has a name. -/
structure Entry where
  name : Option String
  value : Value
deriving DecidableEq, Repr

/-- A node with its entries and children. -/
inductive Node where
  | mk (tag : Option String) (name : String) (entries : List Entry) (children : List Node)
deriving Repr, Inhabited

/-- The nodes of the top level. -/
abbrev Document := List Node

/-- An argument that is a text. -/
def Entry.textArgument (s : String) : Entry := ⟨none, ⟨none, .text s⟩⟩

/-- An argument that is a natural number. -/
def Entry.natArgument (n : Nat) : Entry := ⟨none, ⟨none, .integer false n⟩⟩

/-- A property that is a text. -/
def Entry.textProperty (name s : String) : Entry := ⟨some name, ⟨none, .text s⟩⟩

/-- A property that is a natural number. -/
def Entry.natProperty (name : String) (n : Nat) : Entry := ⟨some name, ⟨none, .integer false n⟩⟩

namespace Node

/-- The type tag of a node. -/
def tag : Node → Option String
  | .mk tag _ _ _ => tag

/-- The name of a node. -/
def name : Node → String
  | .mk _ name _ _ => name

/-- The arguments and properties of a node, in order. -/
def entries : Node → List Entry
  | .mk _ _ entries _ => entries

/-- The nodes inside a node. -/
def children : Node → List Node
  | .mk _ _ _ children => children

/-- The arguments of a node, in order. -/
def arguments (node : Node) : List Value :=
  (node.entries.filter fun entry => entry.name.isNone).map (·.value)

/-- The names of the properties of a node. -/
def propertyNames (node : Node) : List String := node.entries.filterMap (·.name)

/-- The value of a property: the last one that was given. -/
def property? (node : Node) (name : String) : Option Value :=
  (node.entries.reverse.find? fun entry => entry.name == some name).map (·.value)

end Node

end EventDebugger.Kdl
