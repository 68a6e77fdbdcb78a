import EventDebugger.Host
import Mathlib.Data.List.Chain
import Mathlib.Data.List.Nodup
import Mathlib.Logic.Relation
import Mathlib.Order.WellFounded

/-!
# Ancestors of exceptions

From the class of an exception a walk follows the declared parents until there is none, or one that it passed
before: declarations may overwrite each other, name classes that are not there, and form cycles. Each round passes
an entry of the table of parents or is the last one.

* `Host.Round.left_lt`: every walk ends.
* `Host.walk_chain`: what it passed are the ancestors.
* `Host.Lineage.of_walk`: what it passed is a line of declared parents.
-/

namespace EventDebugger.Host

/-! ### Declarations -/

/-- The parent that programs, declared one after the other, give an exception class: that of its latest
declaration, which is `StandardError` if it names none, else that of the class that every program knows. -/
def declaredParent? (programs : List Program) (className : String) : Option String :=
  match (programs.flatMap (·.exceptions)).reverse.find? (·.name == className) with
  | some decl => some (decl.parent.getD "StandardError")
  | none => (builtinExceptions.lookup className).join

def parentEntry (decl : ExceptionDecl) : String × Option String :=
  (decl.name, some (decl.parent.getD "StandardError"))

theorem parents_declare (host : Host) (program : Program) :
    (host.declare program).parents = (program.exceptions.map parentEntry).reverse ++ host.parents := by
  have types (decls : List TypeDecl) (host : Host) : (decls.foldl declareType host).parents = host.parents := by
    induction decls generalizing host with
    | nil => rfl
    | cons decl decls ih =>
        rw [List.foldl_cons, ih, declareType]
        split <;> rfl
  have exceptions (decls : List ExceptionDecl) (host : Host) :
      (decls.foldl declareException host).parents = (decls.map parentEntry).reverse ++ host.parents := by
    induction decls generalizing host with
    | nil => rfl
    | cons decl decls ih => simp [ih, declareException, parentEntry]
  rw [declare, exceptions, types]

theorem parents_declared (host : Host) (programs : List Program) :
    (programs.foldl declare host).parents =
      ((programs.flatMap (·.exceptions)).map parentEntry).reverse ++ host.parents := by
  induction programs generalizing host with
  | nil => rfl
  | cons program programs ih => simp [ih, parents_declare]

theorem lookup_parentEntry (decls : List ExceptionDecl) (className : String) :
    (decls.map parentEntry).lookup className =
      (decls.find? (·.name == className)).map fun decl => some (decl.parent.getD "StandardError") := by
  induction decls with
  | nil => rfl
  | cons decl decls ih =>
      by_cases same : decl.name = className
      · simp [parentEntry, same]
      · have other : (className == decl.name) = false := beq_eq_false_iff_ne.mpr (Ne.symm same)
        simp [parentEntry, List.lookup_cons, same, other, ih]

theorem parent?_declared (programs : List Program) (className : String) :
    (programs.foldl declare initial).parent? className = declaredParent? programs className := by
  rw [parent?, parents_declared, List.lookup_append, ← List.map_reverse, lookup_parentEntry, declaredParent?]
  cases (programs.flatMap (·.exceptions)).reverse.find? (·.name == className) <;> rfl

/-! ### Walks -/

theorem chain_eq {a b : Host} (parents : b.parents = a.parents) (seen : List String) (className : String) (n : Nat) :
    b.chain seen className n = a.chain seen className n := by
  induction n generalizing seen className with
  | zero => rfl
  | succ n ih =>
      unfold chain parent?
      simp only [parents, ih]

theorem ancestors_eq {a b : Host} (parents : b.parents = a.parents) (exception : Value) :
    b.ancestors exception = a.ancestors exception := by
  unfold ancestors
  simp only [chain_eq parents, parents]

variable {host : Host} {className : String}

/-- How far the walk along the parents got: the classes passed, in their order, and the one that comes next. -/
structure Walk where
  passed : List String
  next : Option String

/-- A round passes the next class, if it was not passed before. -/
inductive Round (host : Host) : Walk → Walk → Prop
  | pass {passed : List String} {className : String} (new : className ∉ passed) :
      Round host ⟨passed, some className⟩ ⟨passed ++ [className], host.parent? className⟩

/-- There is no next class, or it was passed before. -/
def Walk.Over (w : Walk) : Prop := ∀ className ∈ w.next, className ∈ w.passed

abbrev Rounds (host : Host) : Walk → Walk → Prop := Relation.ReflTransGen (Round host)

def Walk.left (host : Host) (w : Walk) : Nat :=
  (host.parents.filter fun entry => entry.1 ∉ w.passed).length + w.next.toList.length

theorem mem_of_parent? {parent : String} (declared : host.parent? className = some parent) :
    ∃ entry ∈ host.parents, entry.1 = className := by
  obtain ⟨parent', found, -⟩ : ∃ parent', host.parents.lookup className = some parent' ∧ parent' = some parent := by
    simpa [parent?, Option.join_eq_some_iff] using declared
  obtain ⟨before, after, split, -⟩ := List.lookup_eq_some_iff.mp found
  exact ⟨(className, parent'), by simp [split], rfl⟩

theorem Round.left_lt {w w' : Walk} (round : Round host w w') : w'.left host < w.left host := by
  cases round with
  | @pass passed className new =>
      have fewer : (host.parents.filter fun entry => entry.1 ∉ passed ++ [className]) =
          (host.parents.filter fun entry => entry.1 ∉ passed).filter fun entry => entry.1 ≠ className := by
        rw [List.filter_filter]
        congr 1
        funext entry
        simp [and_comm]
      simp only [Walk.left, fewer, Option.toList_some, List.length_singleton]
      cases declared : host.parent? className with
      | none => exact Nat.lt_succ_of_le (List.length_filter_le _ _)
      | some parent =>
          obtain ⟨entry, mem, key⟩ := mem_of_parent? declared
          apply Nat.add_lt_add_right
          apply List.length_filter_lt_length_iff_exists.mpr
          exact ⟨entry, List.mem_filter.mpr ⟨mem, by simpa [key] using new⟩, by simp [key]⟩

theorem wellFounded_round (host : Host) : WellFounded fun w' w => Round host w w' :=
  Subrelation.wf Round.left_lt (measure (Walk.left host)).wf

theorem walk_chain {n : Nat} {seen passed : List String} (same : ∀ c, c ∈ seen ↔ c ∈ passed)
    (enough : Walk.left host ⟨passed, some className⟩ ≤ n) :
    ∃ last, Rounds host ⟨passed, some className⟩ last ∧ last.Over ∧
      last.passed = passed ++ host.chain seen className n := by
  induction n generalizing seen passed className with
  | zero => simp [Walk.left] at enough
  | succ n ih =>
      by_cases old : className ∈ passed
      · have known : className ∈ seen := (same className).mpr old
        exact ⟨⟨passed, some className⟩, .refl, by simpa [Walk.Over] using old, by simp [chain, known]⟩
      · have new : className ∉ seen := fun known => old ((same className).mp known)
        have round : Round host ⟨passed, some className⟩ ⟨passed ++ [className], host.parent? className⟩ := .pass old
        have less := round.left_lt
        cases declared : host.parent? className with
        | none =>
            rw [declared] at round
            exact ⟨⟨passed ++ [className], none⟩, .single round, by simp [Walk.Over], by simp [chain, new, declared]⟩
        | some parent =>
            rw [declared] at round less
            have grown (c : String) : c ∈ className :: seen ↔ c ∈ passed ++ [className] := by
              simp [same, or_comm]
            obtain ⟨last, rounds, ended, passed'⟩ := ih grown (Nat.le_of_lt_succ (Nat.lt_of_lt_of_le less enough))
            exact ⟨last, .head round rounds, ended, by simp [chain, new, declared, passed']⟩

/-! ### Lines of parents -/

/-- The classes from one on, each of which is the declared parent of the one before, none of them twice, up to a
class without a parent or whose parent is among them. -/
structure Lineage (parent? : String → Option String) (className : String) (chain : List String) : Prop where
  starts : chain.head? = some className
  linked : chain.IsChain fun c parent => parent? c = some parent
  distinct : chain.Nodup
  ends : ∀ last ∈ chain.getLast?, ∀ parent ∈ parent? last, parent ∈ chain

structure Walk.Along (host : Host) (className : String) (w : Walk) : Prop where
  starts : (w.passed ++ w.next.toList).head? = some className
  linked : w.passed.IsChain fun c parent => host.parent? c = some parent
  distinct : w.passed.Nodup
  onward : ∀ last ∈ w.passed.getLast?, host.parent? last = w.next

theorem Round.along {w w' : Walk} (round : Round host w w') (along : w.Along host className) :
    w'.Along host className := by
  obtain ⟨starts, linked, distinct, onward⟩ := along
  cases round with
  | @pass passed next new =>
      refine ⟨?_, ?_, ?_, by simp⟩
      · simpa [List.head?_append] using starts
      · refine List.isChain_append.mpr ⟨linked, List.isChain_singleton _, ?_⟩
        simpa using onward
      · exact List.Nodup.append distinct (List.nodup_singleton next) (by simpa using new)

theorem Rounds.along {w w' : Walk} (rounds : Rounds host w w') (along : w.Along host className) :
    w'.Along host className := by
  induction rounds with
  | refl => exact along
  | tail _ round ih => exact round.along ih

theorem Lineage.of_walk {last : Walk} (rounds : Rounds host ⟨[], some className⟩ last) (ended : last.Over) :
    Lineage host.parent? className last.passed := by
  have first : Walk.Along host className ⟨[], some className⟩ := ⟨rfl, .nil, List.nodup_nil, by simp⟩
  obtain ⟨starts, linked, distinct, onward⟩ := rounds.along first
  refine ⟨?_, linked, distinct, fun final mem parent declared => ?_⟩
  · cases passed : last.passed with
    | nil =>
        rw [passed, List.nil_append] at starts
        cases next : last.next with
        | none => simp [next] at starts
        | some c => simpa [passed] using ended c next
    | cons first rest => simpa [passed] using starts
  · rw [onward final mem] at declared
    exact ended parent declared

theorem ancestors_walk (host : Host) (className : String) :
    ∃ last, Rounds host ⟨[], some className⟩ last ∧ last.Over ∧
      ∀ number, host.ancestors (.exception className number) = last.passed ++ rootAncestors := by
  have enough : Walk.left host ⟨[], some className⟩ ≤ host.parents.length + 1 := by simp [Walk.left]
  have none_seen : ∀ c, c ∈ ([] : List String) ↔ c ∈ ([] : List String) := fun _ => Iff.rfl
  obtain ⟨last, rounds, ended, passed⟩ := walk_chain none_seen enough
  refine ⟨last, rounds, ended, fun number => ?_⟩
  rw [passed, List.nil_append]
  rfl

end EventDebugger.Host
