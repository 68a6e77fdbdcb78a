import EventDebugger.Context

/-!
# The table of contexts

Which context belongs to which thread, in the order of insertion, with the entry that was looked up
last kept aside.
-/

namespace EventDebugger

/-- The address of a context among all contexts of a debugger. -/
abbrev ContextId := Nat

/-- The contexts of the threads that were seen. -/
structure ThreadTable where
  entries : List (Thread × ContextId)
  recent : Option (Thread × ContextId)
deriving DecidableEq, Repr, Inhabited

namespace ThreadTable

/-- The table without contexts. -/
def empty : ThreadTable := ⟨[], none⟩

/-- The context of a thread among the entries. -/
def stored? (table : ThreadTable) (thread : Thread) : Option ContextId :=
  table.entries.lookup thread

/-- The context of a thread; the recent entry is asked first. -/
def find? (table : ThreadTable) (thread : Thread) : Option ContextId :=
  match table.recent with
  | some (t, id) => if t = thread then some id else table.stored? thread
  | none => table.stored? thread

/-- Keeps an entry aside. -/
def remember (table : ThreadTable) (thread : Thread) (id : ContextId) : ThreadTable :=
  { table with recent := some (thread, id) }

/-- Adds an entry for a thread that has none, and keeps it aside. -/
def insert (table : ThreadTable) (thread : Thread) (id : ContextId) : ThreadTable :=
  ⟨table.entries ++ [(thread, id)], some (thread, id)⟩

/-- The table with other entries. The recent one is forgotten if its thread has no entry. -/
def replace (table : ThreadTable) (entries : List (Thread × ContextId)) : ThreadTable :=
  ⟨entries, table.recent.filter fun recent => entries.any fun entry => entry.1 == recent.1⟩

/-- Removes the entries of the threads that are not alive. -/
def prune (table : ThreadTable) (isAlive : Thread → Bool) : ThreadTable :=
  table.replace (table.entries.filter fun entry => isAlive entry.1)

end ThreadTable

end EventDebugger
