import EventDebugger.Proofs.FileName.Matching

/-!
# Matching, byte by byte

Names are compared by their characters. Their UTF-8 bytes, compared in the same way, give the same answer: dots and
separators are single bytes that no other character contains, and no character ends with all bytes of another one.

* `FileName.matches?_eq_bytes`: the two comparisons agree on all names.
-/

namespace EventDebugger.FileName

def agreeBytes (crossed : Bool) : List UInt8 → List UInt8 → Bool
  | s :: ss, f :: fs =>
      if crossed && (s == 46 || f == 46) then true
      else if s = f then agreeBytes (crossed || s == 47) ss fs
      else false
  | _, _ => true

/-! ### Bytes of characters -/

def reversedBytes (c : Char) : List UInt8 := (String.utf8EncodeChar c).reverse

theorem reversedBytes_ascii {c : Char} (ascii : c.toNat < 128) : reversedBytes c = [UInt8.ofNat c.toNat] := by
  have small : c.val.toNat ≤ 127 := Nat.le_of_lt_succ ascii
  simp only [reversedBytes, String.utf8EncodeChar, if_pos small]
  rfl

theorem ofNat_eq_iff {a b : Char} (ascii : a.toNat < 128) (ascii' : b.toNat < 128) :
    UInt8.ofNat a.toNat = UInt8.ofNat b.toNat ↔ a = b := by
  rw [← UInt8.toNat_inj, UInt8.toNat_ofNat', UInt8.toNat_ofNat', Nat.mod_eq_of_lt (by omega),
    Nat.mod_eq_of_lt (by omega), Char.toNat_inj]

theorem beq_ofNat {a b : Char} (ascii : a.toNat < 128) (ascii' : b.toNat < 128) :
    (UInt8.ofNat a.toNat == UInt8.ofNat b.toNat) = (a == b) := by
  rw [Bool.eq_iff_iff, beq_iff_eq, beq_iff_eq, ofNat_eq_iff ascii ascii']

theorem reversedBytes_ne_nil (c : Char) : reversedBytes c ≠ [] := by simp [reversedBytes]

theorem le_of_mem_reversedBytes {c : Char} (wide : 128 ≤ c.toNat) {byte : UInt8} (mem : byte ∈ reversedBytes c) :
    128 ≤ byte.toNat := by
  have large : ¬ c.val.toNat ≤ 127 := Nat.not_le_of_lt wide
  simp only [reversedBytes, String.utf8EncodeChar, if_neg large, List.mem_reverse] at mem
  split at mem
  · simp only [List.mem_cons, List.not_mem_nil, or_false] at mem
    rcases mem with rfl | rfl <;> simp only [UInt8.toNat_ofNat'] <;> omega
  · split at mem
    · simp only [List.mem_cons, List.not_mem_nil, or_false] at mem
      rcases mem with rfl | rfl | rfl <;> simp only [UInt8.toNat_ofNat'] <;> omega
    · simp only [List.mem_cons, List.not_mem_nil, or_false] at mem
      rcases mem with rfl | rfl | rfl | rfl <;> simp only [UInt8.toNat_ofNat'] <;> omega

theorem eq_of_utf8EncodeChar_eq {a b : Char} (same : String.utf8EncodeChar a = String.utf8EncodeChar b) : a = b := by
  have decoded := List.utf8DecodeChar?_utf8Encode_singleton (c := a)
  rw [List.utf8Encode_singleton, same, ← List.utf8Encode_singleton,
    List.utf8DecodeChar?_utf8Encode_singleton] at decoded
  exact (Option.some.inj decoded).symm

-- Only the first byte of a character is one that a character may start with.
theorem eq_of_common_ending {a b : Char} (ending : reversedBytes a <+: reversedBytes b) : a = b := by
  obtain ⟨front, split⟩ := List.reverse_prefix.mp ending
  have nonempty : 0 < (String.utf8EncodeChar a).length :=
    List.length_pos_of_ne_nil String.utf8EncodeChar_ne_nil
  have first : (String.utf8EncodeChar a)[0].IsUTF8FirstByte := UInt8.isUTF8FirstByte_getElem_utf8EncodeChar.mpr rfl
  have bound : front.length < (String.utf8EncodeChar b).length := by
    rw [← split, List.length_append]
    omega
  have there : (String.utf8EncodeChar b)[front.length] = (String.utf8EncodeChar a)[0] := by
    simp [← split]
  have start : front.length = 0 := UInt8.isUTF8FirstByte_getElem_utf8EncodeChar.mp (there ▸ first)
  rw [List.eq_nil_of_length_eq_zero start, List.nil_append] at split
  exact eq_of_utf8EncodeChar_eq split

/-! ### Comparisons -/

theorem agreeBytes_nil (crossed : Bool) (bytes : List UInt8) : agreeBytes crossed bytes [] = true := by
  cases bytes <;> rfl

theorem agreeBytes_comm (crossed : Bool) (ss fs : List UInt8) :
    agreeBytes crossed ss fs = agreeBytes crossed fs ss := by
  induction ss generalizing crossed fs with
  | nil => exact (agreeBytes_nil crossed fs).symm
  | cons s ss ih =>
      cases fs with
      | nil => rfl
      | cons f fs =>
          by_cases same : s = f
          · subst same
            simp only [agreeBytes, if_pos, ih]
          · simp only [agreeBytes, if_neg same, if_neg (Ne.symm same), Bool.or_comm]

theorem beq_of_large {byte ascii : UInt8} (large : 128 ≤ byte.toNat) (small : ascii.toNat < 128) :
    (byte == ascii) = false := by
  rw [beq_eq_false_iff_ne]
  rintro rfl
  omega

theorem agreeBytes_common {crossed : Bool} {bytes : List UInt8} (large : ∀ byte ∈ bytes, 128 ≤ byte.toNat)
    (ss fs : List UInt8) : agreeBytes crossed (bytes ++ ss) (bytes ++ fs) = agreeBytes crossed ss fs := by
  induction bytes with
  | nil => rfl
  | cons byte bytes ih =>
      obtain ⟨here, behind⟩ := List.forall_mem_cons.mp large
      have no_dot : (byte == 46) = false := beq_of_large here (by decide)
      have no_slash : (byte == 47) = false := beq_of_large here (by decide)
      simpa [agreeBytes, no_dot, no_slash] using ih behind

-- The bytes differ before one of the characters ends, and no byte of them is a dot.
theorem agreeBytes_apart {crossed : Bool} {p q : List UInt8} (large : ∀ byte ∈ p, 128 ≤ byte.toNat)
    (large' : ∀ byte ∈ q, 128 ≤ byte.toNat) (longer : ¬ p <+: q) (shorter : ¬ q <+: p) (ss fs : List UInt8) :
    agreeBytes crossed (p ++ ss) (q ++ fs) = false := by
  induction p generalizing q with
  | nil => exact (longer List.nil_prefix).elim
  | cons s p ih =>
      cases q with
      | nil => exact (shorter List.nil_prefix).elim
      | cons f q =>
          obtain ⟨here, behind⟩ := List.forall_mem_cons.mp large
          obtain ⟨here', behind'⟩ := List.forall_mem_cons.mp large'
          have no_dot : (s == 46) = false := beq_of_large here (by decide)
          have no_dot' : (f == 46) = false := beq_of_large here' (by decide)
          have no_slash : (s == 47) = false := beq_of_large here (by decide)
          by_cases same : s = f
          · subst same
            simp only [List.cons_prefix_cons, true_and] at longer shorter
            simpa [agreeBytes, no_dot, no_slash] using ih behind behind' longer shorter
          · simp [agreeBytes, no_dot, no_dot', same]

theorem agreeBytes_ascii_wide {crossed : Bool} {a b : Char} (ascii : a.toNat < 128) (wide : 128 ≤ b.toNat)
    (ss fs : List UInt8) :
    agreeBytes crossed (reversedBytes a ++ ss) (reversedBytes b ++ fs) = (crossed && a == '.') := by
  obtain ⟨f, rest, split⟩ := List.exists_cons_of_ne_nil (reversedBytes_ne_nil b)
  have large : 128 ≤ f.toNat := le_of_mem_reversedBytes wide (split ▸ List.mem_cons_self)
  have no_dot : (f == 46) = false := beq_of_large large (by decide)
  have differ : UInt8.ofNat a.toNat ≠ f := by
    rintro rfl
    rw [UInt8.toNat_ofNat'] at large
    omega
  have dot : (UInt8.ofNat a.toNat == 46) = (a == '.') := beq_ofNat (b := '.') ascii (by decide)
  rw [reversedBytes_ascii ascii, split]
  simp only [List.cons_append, List.nil_append, agreeBytes, dot, no_dot, Bool.or_false, if_neg differ]
  split <;> simp_all

theorem agreeBytes_step (crossed : Bool) (a b : Char) (ss fs : List UInt8) :
    agreeBytes crossed (reversedBytes a ++ ss) (reversedBytes b ++ fs) =
      if crossed && (a == '.' || b == '.') then true
      else if a = b then agreeBytes (crossed || a == '/') ss fs
      else false := by
  have other {a b : Char} (ascii : a.toNat < 128) (wide : 128 ≤ b.toNat) : (b == a) = false := by
    rw [beq_eq_false_iff_ne]
    rintro rfl
    omega
  by_cases ascii : a.toNat < 128 <;> by_cases ascii' : b.toNat < 128
  · have dot : (UInt8.ofNat a.toNat == 46) = (a == '.') := beq_ofNat (b := '.') ascii (by decide)
    have dot' : (UInt8.ofNat b.toNat == 46) = (b == '.') := beq_ofNat (b := '.') ascii' (by decide)
    have slash : (UInt8.ofNat a.toNat == 47) = (a == '/') := beq_ofNat (b := '/') ascii (by decide)
    rw [reversedBytes_ascii ascii, reversedBytes_ascii ascii']
    simp only [List.cons_append, List.nil_append, agreeBytes, dot, dot', slash, ofNat_eq_iff ascii ascii']
  · have wide := Nat.le_of_not_lt ascii'
    have differ : a ≠ b := by rintro rfl; exact ascii' ascii
    have no_dot : (b == '.') = false := other (by decide) wide
    rw [agreeBytes_ascii_wide ascii wide, no_dot, Bool.or_false, if_neg differ]
    split <;> simp_all
  · have wide := Nat.le_of_not_lt ascii
    have differ : a ≠ b := by rintro rfl; exact ascii ascii'
    have no_dot : (a == '.') = false := other (by decide) wide
    rw [agreeBytes_comm, agreeBytes_ascii_wide ascii' wide, no_dot, Bool.false_or, if_neg differ]
    split <;> simp_all
  · have wide := Nat.le_of_not_lt ascii
    have wide' := Nat.le_of_not_lt ascii'
    have dot : (a == '.') = false := other (by decide) wide
    have dot' : (b == '.') = false := other (by decide) wide'
    have slash : (a == '/') = false := other (by decide) wide
    by_cases same : a = b
    · subst same
      rw [agreeBytes_common fun _ => le_of_mem_reversedBytes wide]
      simp [dot, slash]
    · rw [agreeBytes_apart (fun _ => le_of_mem_reversedBytes wide) (fun _ => le_of_mem_reversedBytes wide')
        (fun ending => same (eq_of_common_ending ending))
        (fun ending => same (eq_of_common_ending ending).symm)]
      simp [dot, dot', same]

theorem agreeBytes_flatMap (crossed : Bool) (as bs : List Char) :
    agreeBytes crossed (as.flatMap reversedBytes) (bs.flatMap reversedBytes) = agree crossed as bs := by
  induction as generalizing crossed bs with
  | nil => rfl
  | cons a as ih =>
      cases bs with
      | nil => exact agreeBytes_nil crossed _
      | cons b bs =>
          rw [List.flatMap_cons, List.flatMap_cons, agreeBytes_step, agree]
          simp only [ih]

theorem reverse_toUTF8 (name : String) :
    name.toUTF8.data.toList.reverse = name.toList.reverse.flatMap reversedBytes := by
  rw [String.toUTF8_eq_toByteArray, ← String.utf8Encode_toList, List.utf8Encode, List.data_toByteArray,
    List.reverse_flatMap]
  rfl

theorem matches?_eq_bytes (source file : String) :
    matches? source file = agreeBytes false source.toUTF8.data.toList.reverse file.toUTF8.data.toList.reverse := by
  rw [reverse_toUTF8, reverse_toUTF8, agreeBytes_flatMap, matches?]

end EventDebugger.FileName
