import EventDebugger.Value

/-!
# Variables

A list of named values in the order in which the names were first assigned. Assigning a name again
changes its value and not its place.
-/

namespace EventDebugger

/-- A list of which only some keys are kept holds their entries and no others. -/
theorem lookup_filter {α β : Type} [BEq α] [LawfulBEq α] (entries : List (α × β)) (kept : α → Bool) (key : α) :
    (entries.filter fun entry => kept entry.1).lookup key = if kept key then entries.lookup key else none := by
  induction entries with
  | nil => simp
  | cons entry rest ih =>
      obtain ⟨k, value⟩ := entry
      by_cases here : kept k
      · by_cases same : key = k
        · simp [← same, same ▸ here]
        · simpa [here, List.lookup_cons, beq_eq_false_iff_ne.mpr same] using ih
      · by_cases same : key = k
        · simpa [here, same] using ih
        · simpa [here, List.lookup_cons, beq_eq_false_iff_ne.mpr same] using ih

/-- Named values in the order of their first assignment. -/
abbrev Vars := List (String × Value)

namespace Vars

/-- The value of a name. -/
def get? (vars : Vars) (name : String) : Option Value := vars.lookup name

/-- Gives a name a value: in its place if it has one, else at the end. -/
def assign : Vars → String → Value → Vars
  | [], name, value => [(name, value)]
  | (n, v) :: rest, name, value =>
      if n = name then (n, value) :: rest else (n, v) :: assign rest name value

/-- The variables after the assignments of a list, made in order. -/
def ofAssignments (slots : List (String × Value)) : Vars :=
  slots.foldl (fun vars slot => assign vars slot.1 slot.2) []

theorem get?_assign_self (vars : Vars) (name : String) (value : Value) :
    (vars.assign name value).get? name = some value := by
  induction vars with
  | nil => simp [assign, get?]
  | cons slot rest ih =>
      obtain ⟨n, v⟩ := slot
      by_cases h : n = name
      · simp [assign, get?, h]
      · have h' : (name == n) = false := by simpa using fun e => h e.symm
        simpa [assign, get?, h, List.lookup_cons, h'] using ih

theorem get?_assign_of_ne (vars : Vars) {name other : String} (value : Value) (h : other ≠ name) :
    (vars.assign name value).get? other = vars.get? other := by
  induction vars with
  | nil => simp [assign, get?, List.lookup_cons, beq_eq_false_iff_ne.mpr h]
  | cons slot rest ih =>
      obtain ⟨n, v⟩ := slot
      by_cases hn : n = name
      · simp [assign, get?, hn, List.lookup_cons, beq_eq_false_iff_ne.mpr h]
      · simp only [assign, hn, if_false, get?, List.lookup_cons] at ih ⊢
        rw [ih]

end Vars

end EventDebugger
