/-!
# References to types

A type is known by its name. Two forms of names stand for types without a name of their own: the
singleton type of `X` is written `#<Class:X>`, and the wrapper through which a module `M` is included
is written `#<include:M>`.
-/

namespace EventDebugger

/-- A reference to a type, by name. -/
structure TypeRef where
  name : String
deriving DecidableEq, Repr, Inhabited

/-- What kind of type a reference stands for. -/
inductive TypeShape where
  | plainClass
  | plainModule
  | includedModule (module : TypeRef)
  | singleton (attached : TypeRef)
  | other
deriving DecidableEq, Repr

namespace TypeRef

/-- What stands between an opening text and a closing `>`. -/
def wrapped? (opening : List Char) (name : String) : Option String :=
  let cs := name.toList
  if opening.isPrefixOf cs then
    let rest := cs.drop opening.length
    if rest.getLast? = some '>' then some (String.ofList rest.dropLast) else none
  else none

/-- The type that a singleton type is attached to. -/
def singletonOf? (type : TypeRef) : Option TypeRef :=
  (wrapped? "#<Class:".toList type.name).map TypeRef.mk

/-- The module behind an inclusion wrapper. -/
def includedModule? (type : TypeRef) : Option TypeRef :=
  (wrapped? "#<include:".toList type.name).map TypeRef.mk

/-- The shape of a type, where `modules` are the names of modules. -/
def shape (modules : List String) (type : TypeRef) : TypeShape :=
  match type.singletonOf? with
  | some attached => .singleton attached
  | none =>
      match type.includedModule? with
      | some module => .includedModule module
      | none =>
          if type.name = "" then .other
          else if modules.contains type.name then .plainModule
          else .plainClass

/-- The type itself, or the one that a singleton type or an inclusion wrapper stands for. -/
def unwrap (type : TypeRef) : TypeRef :=
  match type.singletonOf? with
  | some attached => attached
  | none => type.includedModule?.getD type

/-- Whether a type is a plain class or module. -/
def isNamespace (type : TypeRef) : Bool :=
  type.singletonOf?.isNone && type.includedModule?.isNone && type.name != ""

/-- The name of a type that has one. -/
def ownName? (type : TypeRef) : Option String :=
  if type.name = "" ∨ "#<".toList.isPrefixOf type.name.toList then none else some type.name

end TypeRef

end EventDebugger
