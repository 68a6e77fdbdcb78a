import EventDebugger.CallStack
import EventDebugger.Condition
import EventDebugger.Proofs.Scope.Histories
import Mathlib.Data.List.Induction

/-!
# Conditions in copies of scopes

A copy of a scope leaves out the variables that are not shown to the user. A condition mentions names of ASCII
letters, digits and underscores only, all of which are shown, so it cannot tell the copy from the scope.

* `Scopes.get?_copyVisible`: the variables of a copy.
* `Condition.evaluate_congr`: the variables that a condition can read.
* `Condition.evaluate_copied`: conditions in a scope and in a copy of it.
-/

namespace EventDebugger

namespace Vars

theorem get?_ofAssignments (slots : List (String × Value)) (name : String) :
    (ofAssignments slots).get? name = get? slots.reverse name := by
  induction slots using List.reverseRecOn with
  | nil => rfl
  | append_singleton slots slot ih =>
      obtain ⟨n, v⟩ := slot
      have step : ofAssignments (slots ++ [(n, v)]) = (ofAssignments slots).assign n v := by
        rw [ofAssignments, List.foldl_concat]
        rfl
      rw [step, List.reverse_concat]
      by_cases same : name = n
      · rw [same, get?_assign_self]
        simp [get?]
      · rw [get?_assign_of_ne _ _ same, ih]
        simp [get?, List.lookup_cons, beq_eq_false_iff_ne.mpr same]

theorem Distinct.get?_reverse {vars : Vars} (h : vars.Distinct) (name : String) :
    get? vars.reverse name = vars.get? name := by
  induction vars with
  | nil => rfl
  | cons slot rest ih =>
      obtain ⟨n, v⟩ := slot
      obtain ⟨new, distinct⟩ := List.nodup_cons.mp h
      have appended : get? (rest.reverse ++ [(n, v)]) name = (get? rest name).or (get? [(n, v)] name) := by
        rw [get?, List.lookup_append]
        exact congrArg (Option.or · _) (ih distinct)
      rw [List.reverse_cons, appended]
      by_cases same : name = n
      · have unknown : get? rest name = none := by
          rw [get?, List.lookup_eq_none_iff]
          intro slot mem
          rw [bne_iff_ne, same]
          intro eq
          have listed : slot.1 ∈ rest.map Prod.fst := List.mem_map_of_mem mem
          exact new (eq ▸ listed)
        rw [unknown]
        simp [get?, same]
      · simp [get?, List.lookup_cons, beq_eq_false_iff_ne.mpr same]

end Vars

namespace Scopes

theorem get?_copyVisible {scopes : Scopes} (distinct : ∀ cell, (scopes.read cell).Distinct) (scope : Scope)
    {name : String} (shown : isUserVisible name = true) :
    (scopes.copyVisible scope).get? name = scopes.lookup? scope name := by
  have method : (scopes.methodVars scope).Distinct := distinct _
  have block : (scopes.blockVars scope).Distinct := by
    unfold blockVars
    split
    · exact distinct _
    · exact List.nodup_nil
  rw [copyVisible, Vars.get?_ofAssignments, ← List.filter_reverse, Vars.get?, lookup_filter, if_pos shown,
    List.reverse_append, List.lookup_append]
  exact congrArg₂ Option.or (block.get?_reverse name) (method.get?_reverse name)

end Scopes

namespace Condition

theorem eq_of_parse_eq_str {text content : String} (h : Value.parse text = .str content) : content = text := by
  simp only [Value.parse, Value.parseIntegerOrText] at h
  repeat' split at h
  all_goals cases h
  -- an integer of more than 64 bits, and what is no integer
  · rfl
  · rfl

theorem operand_congr {f g : String → Option Value} (same : ∀ name, isName name.toList = true → f name = g name)
    (cs : List Char) : operand f cs = operand g cs := by
  unfold operand
  split
  · rfl
  · split
    · next text parsed =>
        split
        · next named =>
            rw [same text]
            rw [eq_of_parse_eq_str parsed, String.toList_ofList]
            exact named
        · rfl
    · rfl

theorem evaluate_congr {f g : String → Option Value} (same : ∀ name, isName name.toList = true → f name = g name)
    (condition : String) : evaluate f condition = evaluate g condition := by
  simp only [evaluate, operand_congr same]

theorem isUserVisible_of_isName {name : String} (h : isName name.toList = true) : isUserVisible name = true := by
  unfold isUserVisible
  cases chars : name.toList with
  | nil => rw [chars] at h; cases h
  | cons c cs =>
      rw [chars] at h
      simp only [isName, isNameStart, isNameChar, Bool.and_eq_true, Bool.or_eq_true, List.all_eq_true] at h ⊢
      exact ⟨h.1.imp_right Text.isLowercase_of_isLower,
        fun d mem => (h.2 d mem).imp_right Text.isAlphanumeric_of_isAlphanum⟩

/-- A condition has the same result, or the same error, in a scope and in a copy of it, whatever becomes of
the scope after the copy was made. -/
theorem evaluate_copied (ops : List ScopeOp) (scope : Scope) (receiver : Value) (condition : String)
    (later : Scopes) :
    let scopes := (ScopeTable.empty.after ops).scopes
    evaluate ((⟨receiver, .copied (scopes.copyVisible scope)⟩ : Binding).lookup? later) condition =
      evaluate ((⟨receiver, .live scope⟩ : Binding).lookup? scopes) condition := by
  apply evaluate_congr
  intro name named
  have sound := ScopeTable.sound_after ScopeTable.sound_empty ops
  exact Scopes.get?_copyVisible sound.distinct scope (isUserVisible_of_isName named)

end Condition

end EventDebugger
