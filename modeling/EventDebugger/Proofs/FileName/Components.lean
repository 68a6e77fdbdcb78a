import EventDebugger.Proofs.FileName.Matching
import Mathlib.Data.List.Basic

/-!
# Matching, component by component

The names that match have the same last components up to the place where the comparison stops. This is the first
component of one of the names, of which only the ending counts, or a dot in front of a common ending of two
components behind which others were passed.

* `FileName.suffix_iff_components`: the components of a suffix.
* `FileName.matches?_by_components`: where two names that match stop to be compared.
-/

namespace EventDebugger.FileName

variable {name tail c : List Char} {common : List (List Char)}

def components (name : List Char) : List (List Char) := name.splitOn '/'

theorem components_ne_nil (name : List Char) : components name ≠ [] := List.splitOn_ne_nil _ _

def baseName (name : List Char) : List Char := (components name).getLast (components_ne_nil name)

theorem components_slash (name : List Char) : components ('/' :: name) = [] :: components name :=
  List.splitOn_append_cons_self [] name

theorem components_cons {a : Char} (ne : a ≠ '/') (name : List Char) :
    components (a :: name) = (components name).modifyHead (List.cons a) := by
  rw [components, List.splitOn_cons_eq_if_modifyHead, if_neg (by simpa using ne)]
  rfl

theorem not_mem_of_mem_components {component : List Char} (mem : component ∈ components name) : '/' ∉ component := by
  induction name generalizing component with
  | nil =>
      obtain rfl : component = [] := by simpa [components] using mem
      exact List.not_mem_nil
  | cons a name ih =>
      by_cases slash : a = '/'
      · rw [slash, components_slash] at mem
        rcases List.mem_cons.mp mem with rfl | mem
        · exact List.not_mem_nil
        · exact ih mem
      · rw [components_cons slash] at mem
        obtain ⟨first, rest, eq⟩ := List.exists_cons_of_ne_nil (components_ne_nil name)
        rw [eq] at mem ih
        rcases List.mem_cons.mp mem with rfl | mem
        · simpa [Ne.symm slash] using ih List.mem_cons_self
        · exact ih (List.mem_cons_of_mem _ mem)

theorem components_intercalate {parts : List (List Char)} (whole : ∀ part ∈ parts, '/' ∉ part) (ne : parts ≠ []) :
    components (['/'].intercalate parts) = parts := List.splitOn_intercalate '/' whole ne

theorem intercalate_components (name : List Char) : ['/'].intercalate (components name) = name :=
  List.intercalate_splitOn '/'

theorem eq_of_components (single : components name = [c]) : name = c := by
  have joined := intercalate_components name
  simpa [single] using joined.symm

theorem mem_iff_of_components (split : components name = c :: common) : '/' ∈ name ↔ common ≠ [] := by
  constructor
  · rintro mem rfl
    obtain ⟨front, back, rfl, -⟩ := List.eq_append_cons_of_mem mem
    have both : components front ++ components back = [c] :=
      (List.splitOn_append_cons_self front back).symm.trans split
    have := List.length_pos_iff.mpr (components_ne_nil front)
    have := List.length_pos_iff.mpr (components_ne_nil back)
    have := congrArg List.length both
    simp at this
    omega
  · intro more
    by_contra absent
    have single : components name = [name] := List.splitOn_eq_singleton absent
    simp_all

/-! ### Suffixes -/

theorem components_of_suffix (split : components tail = c :: common) (suffix : tail <:+ name) :
    ∃ rest c', components name = rest ++ c' :: common ∧ c <:+ c' := by
  induction name with
  | nil =>
      rw [List.suffix_nil.mp suffix] at split
      exact ⟨[], c, split, List.suffix_refl c⟩
  | cons a name ih =>
      rcases List.suffix_cons_iff.mp suffix with rfl | suffix
      · exact ⟨[], c, split, List.suffix_refl c⟩
      · obtain ⟨rest, c', split', ending⟩ := ih suffix
        by_cases slash : a = '/'
        · subst slash
          exact ⟨[] :: rest, c', by rw [components_slash, split', List.cons_append], ending⟩
        · rw [components_cons slash, split']
          cases rest with
          | nil => exact ⟨[], a :: c', rfl, ending.trans (List.suffix_cons a c')⟩
          | cons first rest => exact ⟨(a :: first) :: rest, c', rfl, ending⟩

theorem intercalate_suffix_append (front : List (List Char)) (back : List (List Char)) (ne : back ≠ []) :
    ['/'].intercalate back <:+ ['/'].intercalate (front ++ back) := by
  induction front with
  | nil => exact List.suffix_refl _
  | cons first front ih =>
      obtain ⟨next, more, eq⟩ := List.exists_cons_of_ne_nil (List.append_ne_nil_of_right_ne_nil front ne)
      rw [List.cons_append, eq, List.intercalate_cons_cons, ← eq]
      exact List.suffix_append_of_suffix ih

theorem intercalate_suffix_cons {c' : List Char} (ending : c <:+ c') (common : List (List Char)) :
    ['/'].intercalate (c :: common) <:+ ['/'].intercalate (c' :: common) := by
  obtain ⟨front, rfl⟩ := ending
  refine ⟨front, ?_⟩
  cases common <;> simp [List.intercalate_cons_cons]

theorem suffix_iff_components (split : components tail = c :: common) :
    tail <:+ name ↔ ∃ rest c', components name = rest ++ c' :: common ∧ c <:+ c' := by
  constructor
  · exact components_of_suffix split
  · rintro ⟨rest, c', split', ending⟩
    rw [← intercalate_components tail, ← intercalate_components name, split, split']
    exact (intercalate_suffix_cons ending common).trans
      (intercalate_suffix_append rest (c' :: common) (List.cons_ne_nil _ _))

/-! ### Where the comparison stops -/

/-- The components of one name are the last ones of the other, except that of the first one only the ending
counts. -/
def EndsIn (short long : List (List Char)) : Prop :=
  ∃ c common rest c', short = c :: common ∧ long = rest ++ c' :: common ∧ c <:+ c'

/-- The names have the same last components, one at least, and in front of them components with a common ending
in front of which one of the two has a dot. -/
def StopsAtDot (source file : List (List Char)) : Prop :=
  ∃ rest c rest' c' common, source = rest ++ c :: common ∧ file = rest' ++ c' :: common ∧ common ≠ [] ∧
    ∃ tail, tail <:+ c ∧ tail <:+ c' ∧ ('.' :: tail <:+ c ∨ '.' :: tail <:+ c')

theorem suffix_iff_endsIn (short long : List Char) : short <:+ long ↔ EndsIn (components short) (components long) := by
  obtain ⟨c, common, split⟩ := List.exists_cons_of_ne_nil (components_ne_nil short)
  rw [suffix_iff_components split, EndsIn, split]
  constructor
  · rintro ⟨rest, c', split', ending⟩
    exact ⟨c, common, rest, c', rfl, split', ending⟩
  · rintro ⟨_, _, rest, c', eq, split', ending⟩
    cases eq
    exact ⟨rest, c', split', ending⟩

theorem components_dot (split : components tail = c :: common) : components ('.' :: tail) = ('.' :: c) :: common := by
  rw [components_cons (by decide), split]
  rfl

theorem ending_of_suffix {rest : List (List Char)} {longer c' : List Char}
    (split : components longer = c :: common) (suffix : longer <:+ name)
    (split' : components name = rest ++ c' :: common) : c <:+ c' := by
  obtain ⟨rest', c'', split'', ending⟩ := components_of_suffix split suffix
  have same := List.append_inj' (split'.symm.trans split'') rfl
  simp_all

theorem dotBehindSeparator_iff (source file : List Char) :
    DotBehindSeparator source file ↔ StopsAtDot (components source) (components file) := by
  constructor
  · rintro ⟨tail, passed, in_source, in_file, dot⟩
    obtain ⟨ending, common, split⟩ := List.exists_cons_of_ne_nil (components_ne_nil tail)
    obtain ⟨rest, c, source_split, in_c⟩ := components_of_suffix split in_source
    obtain ⟨rest', c', file_split, in_c'⟩ := components_of_suffix split in_file
    refine ⟨rest, c, rest', c', common, source_split, file_split, (mem_iff_of_components split).mp passed, ending,
      in_c, in_c', ?_⟩
    have split := components_dot split
    exact dot.imp (fun dot => ending_of_suffix split dot source_split)
      (fun dot => ending_of_suffix split dot file_split)
  · rintro ⟨rest, c, rest', c', common, source_split, file_split, passed, ending, in_c, in_c', dot⟩
    have whole : ∀ part ∈ ending :: common, '/' ∉ part := by
      intro part mem
      have component {part : List Char} (mem : part ∈ c :: common) : '/' ∉ part :=
        not_mem_of_mem_components (source_split ▸ List.mem_append_right rest mem)
      rcases List.mem_cons.mp mem with rfl | mem
      · exact fun slash => component List.mem_cons_self (in_c.mem slash)
      · exact component (List.mem_cons_of_mem c mem)
    have split := components_intercalate whole (List.cons_ne_nil ending common)
    refine ⟨['/'].intercalate (ending :: common), (mem_iff_of_components split).mpr passed, ?_, ?_, ?_⟩
    · exact (suffix_iff_components split).mpr ⟨rest, c, source_split, in_c⟩
    · exact (suffix_iff_components split).mpr ⟨rest', c', file_split, in_c'⟩
    · have split := components_dot split
      exact dot.imp (fun dot => (suffix_iff_components split).mpr ⟨rest, c, source_split, dot⟩)
        (fun dot => (suffix_iff_components split).mpr ⟨rest', c', file_split, dot⟩)

/-! ### Base names and absolute names -/

theorem getLast_eq_of_append {parts : List (List Char)} (rest : List (List Char)) (ne : parts ≠ [])
    (eq : parts = rest ++ c :: common) :
    parts.getLast ne = (c :: common).getLast (List.cons_ne_nil c common) := by
  subst eq
  exact List.getLast_append_right _

theorem baseName_of_endsIn {short long : List Char} (ends : EndsIn (components short) (components long)) :
    baseName short = baseName long ∨ '/' ∉ short ∧ short <:+ baseName long := by
  obtain ⟨c, common, rest, c', split, split', ending⟩ := ends
  have last : baseName short = (c :: common).getLast (List.cons_ne_nil c common) :=
    getLast_eq_of_append [] _ split
  have last' : baseName long = (c' :: common).getLast (List.cons_ne_nil c' common) := getLast_eq_of_append _ _ split'
  cases common with
  | nil =>
      right
      rw [mem_iff_of_components split, eq_of_components split, last']
      exact ⟨fun more => more rfl, ending⟩
  | cons next common =>
      left
      rw [last, last', List.getLast_cons_cons, List.getLast_cons_cons]

theorem baseName_of_stopsAtDot {source file : List Char}
    (stops : StopsAtDot (components source) (components file)) : baseName source = baseName file := by
  obtain ⟨rest, c, rest', c', common, split, split', passed, -⟩ := stops
  have last : baseName source = (c :: common).getLast _ := getLast_eq_of_append _ _ split
  have last' : baseName file = (c' :: common).getLast _ := getLast_eq_of_append _ _ split'
  rw [last, last', List.getLast_cons passed, List.getLast_cons passed]

theorem components_suffix_of_endsIn {short long : List Char}
    (ends : EndsIn (components ('/' :: short)) (components ('/' :: long))) : components short <:+ components long := by
  rw [components_slash, components_slash] at ends
  obtain ⟨c, common, rest, c', split, split', -⟩ := ends
  rw [(List.cons.inj split).2]
  cases rest with
  | nil =>
      rw [(List.cons.inj split').2]
  | cons first rest =>
      rw [(List.cons.inj split').2]
      exact List.suffix_append_of_suffix (List.suffix_cons c' common)

/-- Two names match exactly if all components of one of them, but for the front of the first, are the last ones
of the other, or if a dot behind a separator ends their comparison. So their base names are the same, unless one of
them is a text without separators with which the base name of the other ends; and if both are absolute, the
components behind the separator of the one are the last ones of the other, up to such a dot. -/
theorem matches?_by_components (source file : String) :
    (matches? source file = true ↔
      EndsIn (components source.toList) (components file.toList) ∨
      EndsIn (components file.toList) (components source.toList) ∨
      StopsAtDot (components source.toList) (components file.toList)) ∧
    (matches? source file = true → baseName source.toList = baseName file.toList ∨
      ('/' ∉ source.toList ∧ source.toList <:+ baseName file.toList) ∨
      ('/' ∉ file.toList ∧ file.toList <:+ baseName source.toList)) ∧
    (∀ path path', source.toList = '/' :: path → file.toList = '/' :: path' → matches? source file = true →
      components path <:+ components path' ∨ components path' <:+ components path ∨
      StopsAtDot (components source.toList) (components file.toList)) := by
  have split : matches? source file = true ↔
      EndsIn (components source.toList) (components file.toList) ∨
      EndsIn (components file.toList) (components source.toList) ∨
      StopsAtDot (components source.toList) (components file.toList) := by
    rw [matches?_iff, suffix_iff_endsIn, suffix_iff_endsIn, dotBehindSeparator_iff]
  refine ⟨split, fun matched => ?_, fun path path' absolute absolute' matched => ?_⟩
  · rcases split.mp matched with ends | ends | stops
    · exact (baseName_of_endsIn ends).imp_right .inl
    · exact (baseName_of_endsIn ends).imp Eq.symm .inr
    · exact .inl (baseName_of_stopsAtDot stops)
  · simp only [absolute, absolute'] at split ⊢
    rcases split.mp matched with ends | ends | stops
    · exact .inl (components_suffix_of_endsIn ends)
    · exact .inr (.inl (components_suffix_of_endsIn ends))
    · exact .inr (.inr stops)

theorem matches_deeper_file :
    let source := "/lib/a.src"
    let file := "/home/lib/a.src"
    (source.toList = '/' :: "lib/a.src".toList ∧ file.toList = '/' :: "home/lib/a.src".toList ∧
      matches? source file = true) ∧
    (components "lib/a.src".toList <:+ components "home/lib/a.src".toList ∨
      components "home/lib/a.src".toList <:+ components "lib/a.src".toList ∨
      StopsAtDot (components source.toList) (components file.toList)) := by
  intro source file
  obtain ⟨split, -, absolute⟩ := matches?_by_components source file
  have ends : EndsIn (components source.toList) (components file.toList) :=
    ⟨[], ["lib".toList, "a.src".toList], [[]], "home".toList, by decide, by decide, List.nil_suffix⟩
  have matched : matches? source file = true := split.mpr (.inl ends)
  have slash : source.toList = '/' :: "lib/a.src".toList := by decide
  have slash' : file.toList = '/' :: "home/lib/a.src".toList := by decide
  exact ⟨⟨slash, slash', matched⟩, absolute _ _ slash slash' matched⟩

/-- A bare name matches a longer one that ends with it, an absolute name one in a directory, and two absolute
names match whose directories have the same extension; none of them has relative components. -/
theorem matches_beyond_components :
    (matches? "a.src" "/p/ba.src" = true ∧ ¬ components "a.src".toList <:+ components "/p/ba.src".toList ∧
      baseName "a.src".toList ≠ baseName "/p/ba.src".toList) ∧
    (matches? "/a.src" "/p/a.src" = true ∧ ¬ components "/a.src".toList <:+ components "/p/a.src".toList) ∧
    (matches? "/b.d/a.src" "/c.d/a.src" = true ∧
      ¬ components "/b.d/a.src".toList <:+ components "/c.d/a.src".toList) ∧
    ∀ name ∈ ["a.src", "/p/ba.src", "/a.src", "/p/a.src", "/b.d/a.src", "/c.d/a.src"],
      ['.'] ∉ components name.toList ∧ ['.', '.'] ∉ components name.toList := by
  decide

end EventDebugger.FileName
