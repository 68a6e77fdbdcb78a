import EventDebugger.FileName
import Mathlib.Data.List.Infix

/-!
# Which file names match

Two names match if one is a suffix of the other as a text, or if they have a common suffix with a separator in
front of which one of them has a dot.

* `FileName.matches?_iff`: exactly these names match.
* `FileName.matches_paths_below`: a relative path matches the paths that end with it below a directory, with any
  `./` and `../` in front of it.
-/

namespace EventDebugger.FileName

def MeetsDot (crossed : Bool) (as bs common : List Char) : Prop :=
  (crossed = true ∨ '/' ∈ common) ∧ common <+: as ∧ common <+: bs ∧
    (common ++ ['.'] <+: as ∨ common ++ ['.'] <+: bs)

theorem meetsDot_nil {crossed : Bool} {a b : Char} {as bs : List Char} :
    MeetsDot crossed (a :: as) (b :: bs) [] ↔ crossed = true ∧ (a = '.' ∨ b = '.') := by
  simp [MeetsDot, eq_comm]

theorem meetsDot_cons {crossed : Bool} {a b c : Char} {as bs common : List Char} :
    MeetsDot crossed (a :: as) (b :: bs) (c :: common) ↔
      a = b ∧ c = a ∧ MeetsDot (crossed || a == '/') as bs common := by
  simp only [MeetsDot, List.cons_prefix_cons, List.mem_cons, List.cons_append, Bool.or_eq_true, beq_iff_eq]
  constructor
  · rintro ⟨passed, ⟨rfl, in_a⟩, ⟨rfl, in_b⟩, dot⟩
    refine ⟨rfl, rfl, ?_, in_a, in_b, by simpa using dot⟩
    rcases passed with passed | here | later
    · exact .inl (.inl passed)
    · exact .inl (.inr here.symm)
    · exact .inr later
  · rintro ⟨rfl, rfl, passed, in_a, in_b, dot⟩
    refine ⟨?_, ⟨rfl, in_a⟩, ⟨rfl, in_b⟩, by simpa using dot⟩
    rcases passed with (passed | here) | later
    · exact .inl passed
    · exact .inr (.inl here.symm)
    · exact .inr (.inr later)

theorem exists_meetsDot_cons {crossed : Bool} {a b : Char} {as bs : List Char}
    (unmet : ¬ MeetsDot crossed (a :: as) (b :: bs) []) :
    (∃ common, MeetsDot crossed (a :: as) (b :: bs) common) ↔
      a = b ∧ ∃ common, MeetsDot (crossed || a == '/') as bs common := by
  constructor
  · rintro ⟨_ | ⟨c, common⟩, meets⟩
    · exact (unmet meets).elim
    · obtain ⟨same, -, meets⟩ := meetsDot_cons.mp meets
      exact ⟨same, common, meets⟩
  · rintro ⟨same, common, meets⟩
    exact ⟨a :: common, meetsDot_cons.mpr ⟨same, rfl, meets⟩⟩

theorem agree_iff (crossed : Bool) (as bs : List Char) :
    agree crossed as bs = true ↔ as <+: bs ∨ bs <+: as ∨ ∃ common, MeetsDot crossed as bs common := by
  induction as generalizing crossed bs with
  | nil => simp [agree]
  | cons a as ih =>
      cases bs with
      | nil => simp [agree]
      | cons b bs =>
          by_cases dot : crossed = true ∧ (a = '.' ∨ b = '.')
          · have accepts : agree crossed (a :: as) (b :: bs) = true := by simp [agree, dot]
            simp only [accepts, true_iff]
            exact .inr (.inr ⟨[], meetsDot_nil.mpr dot⟩)
          · have unmet : ¬ MeetsDot crossed (a :: as) (b :: bs) [] := fun meets => dot (meetsDot_nil.mp meets)
            by_cases same : a = b
            · subst same
              have goes_on : agree crossed (a :: as) (a :: bs) = agree (crossed || a == '/') as bs := by
                rw [agree, if_neg (by simpa using dot), if_pos rfl]
              rw [goes_on, ih]
              simp [exists_meetsDot_cons unmet]
            · have rejects : agree crossed (a :: as) (b :: bs) = false := by
                rw [agree, if_neg (by simpa using dot), if_neg same]
              simp [rejects, exists_meetsDot_cons unmet, same, Ne.symm same]

def DotBehindSeparator (source file : List Char) : Prop :=
  ∃ tail, '/' ∈ tail ∧ tail <:+ source ∧ tail <:+ file ∧ ('.' :: tail <:+ source ∨ '.' :: tail <:+ file)

theorem exists_meetsDot_reverse (source file : List Char) :
    (∃ common, MeetsDot false source.reverse file.reverse common) ↔ DotBehindSeparator source file := by
  constructor
  · rintro ⟨common, passed, in_source, in_file, dot⟩
    refine ⟨common.reverse, by simpa using passed, ?_, ?_, ?_⟩
    · simpa using List.reverse_suffix.mpr in_source
    · simpa using List.reverse_suffix.mpr in_file
    · rw [← List.reverse_concat, ← List.reverse_prefix, ← List.reverse_prefix]
      simpa using dot
  · rintro ⟨tail, passed, in_source, in_file, dot⟩
    refine ⟨tail.reverse, .inr (by simpa using passed), ?_, ?_, ?_⟩
    · exact List.reverse_prefix.mpr in_source
    · exact List.reverse_prefix.mpr in_file
    · rw [← List.reverse_cons, List.reverse_prefix, List.reverse_prefix]
      exact dot

theorem matches?_iff (source file : String) :
    matches? source file = true ↔ source.toList <:+ file.toList ∨ file.toList <:+ source.toList ∨
      DotBehindSeparator source.toList file.toList := by
  rw [matches?, agree_iff, exists_meetsDot_reverse, List.reverse_prefix, List.reverse_prefix]

theorem dotBehindSeparator_comm {source file : List Char} :
    DotBehindSeparator source file ↔ DotBehindSeparator file source := by
  constructor <;>
    · rintro ⟨tail, passed, here, there, dot⟩
      exact ⟨tail, passed, there, here, dot.symm⟩

theorem matches?_comm (source file : String) : matches? source file = matches? file source := by
  rw [Bool.eq_iff_iff, matches?_iff, matches?_iff, dotBehindSeparator_comm]
  tauto

/-! ### Relative components -/

/-- A component that stays in a directory, or leaves it. -/
inductive Hop where
  | here
  | up

def Hop.text : Hop → String
  | .here => "./"
  | .up => "../"

def relative (hops : List Hop) (path : String) : String := hops.foldr (fun hop rest => hop.text ++ rest) path

def below (directory path : String) : String := directory ++ "/" ++ path

theorem dot_slash_suffix (hop : Hop) : ['.', '/'] <:+ hop.text.toList := by
  cases hop
  · exact ⟨[], rfl⟩
  · exact ⟨['.'], rfl⟩

theorem suffix_relative (hop : Hop) (hops : List Hop) (path : String) :
    '.' :: '/' :: path.toList <:+ (relative (hop :: hops) path).toList := by
  induction hops generalizing hop with
  | nil =>
      obtain ⟨front, text⟩ := dot_slash_suffix hop
      exact ⟨front, by simp [relative, ← text]⟩
  | cons next hops ih =>
      have step : (relative (hop :: next :: hops) path).toList =
          hop.text.toList ++ (relative (next :: hops) path).toList := by simp [relative]
      rw [step]
      exact (ih next).trans (List.suffix_append ..)

theorem suffix_below (directory path : String) : '/' :: path.toList <:+ (below directory path).toList :=
  ⟨directory.toList, by simp [below]⟩

theorem matches?_relative_below (hops : List Hop) (directory path : String) :
    matches? (relative hops path) (below directory path) = true := by
  rw [matches?_iff]
  have ends := suffix_below directory path
  cases hops with
  | nil => exact .inl ((List.suffix_cons ..).trans ends)
  | cons hop hops =>
      have dot := suffix_relative hop hops path
      exact .inr (.inr ⟨'/' :: path.toList, List.mem_cons_self, (List.suffix_cons ..).trans dot, ends, .inl dot⟩)

/-- A path matches itself and the path of that name in any directory, also behind any relative components, and
it does not matter which of two names is the one of a breakpoint. -/
theorem matches_paths_below (path directory : String) (hops : List Hop) :
    (matches? path (below directory path) = true ∧ matches? (below directory path) path = true) ∧
    matches? path path = true ∧
    (matches? (relative hops path) (below directory path) = true ∧
      matches? (below directory path) (relative hops path) = true) ∧
    ∀ source file, matches? source file = matches? file source := by
  have plain : matches? path (below directory path) = true := matches?_relative_below [] directory path
  have hopping := matches?_relative_below hops directory path
  refine ⟨⟨plain, ?_⟩, ?_, ⟨hopping, ?_⟩, matches?_comm⟩
  · rw [matches?_comm]
    exact plain
  · rw [matches?_iff]
    exact .inl (List.suffix_refl _)
  · rw [matches?_comm]
    exact hopping

end EventDebugger.FileName
