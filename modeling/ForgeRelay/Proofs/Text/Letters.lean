/-!
# Letters in either case

Core's classes of letters and its maps between them know ASCII letters only.  Here they are told by
the codes of the characters, so that a question about the case of a letter is one of arithmetic.

* `isUpper_iff`, `isLower_iff`         the codes of capitals and of small letters;
* `toNat_toLower`, `toNat_toUpper`     the code of a letter in the other case.
-/

namespace ForgeRelay

theorem isUpper_iff {c : Char} : c.isUpper = true ↔ 65 ≤ c.toNat ∧ c.toNat ≤ 90 := by
  show decide _ = true ↔ _
  rw [decide_eq_true_eq, ge_iff_le, UInt32.le_iff_toNat_le, UInt32.le_iff_toNat_le]
  exact Iff.rfl

theorem isLower_iff {c : Char} : c.isLower = true ↔ 97 ≤ c.toNat ∧ c.toNat ≤ 122 := by
  show (decide _ && decide _) = true ↔ _
  rw [Bool.and_eq_true, decide_eq_true_eq, decide_eq_true_eq, ge_iff_le,
    UInt32.le_iff_toNat_le, UInt32.le_iff_toNat_le]
  exact Iff.rfl

theorem toNat_toLower (c : Char) :
    c.toLower.toNat = if 65 ≤ c.toNat ∧ c.toNat ≤ 90 then c.toNat + 32 else c.toNat := by
  unfold Char.toLower
  split
  · rename_i h
    have hrange : 65 ≤ c.toNat ∧ c.toNat ≤ 90 :=
      ⟨UInt32.le_iff_toNat_le.1 h.1, UInt32.le_iff_toNat_le.1 h.2⟩
    have hstep : (c.val + 32).toNat = (c.toNat + 32) % 4294967296 := UInt32.toNat_add c.val 32
    rw [if_pos hrange]
    show (c.val + 32).toNat = c.toNat + 32
    omega
  · rename_i h
    rw [if_neg fun hrange =>
      h ⟨UInt32.le_iff_toNat_le.2 hrange.1, UInt32.le_iff_toNat_le.2 hrange.2⟩]

theorem toNat_toUpper (c : Char) :
    c.toUpper.toNat = if 97 ≤ c.toNat ∧ c.toNat ≤ 122 then c.toNat - 32 else c.toNat := by
  unfold Char.toUpper
  split
  · rename_i h
    have hrange : 97 ≤ c.toNat ∧ c.toNat ≤ 122 :=
      ⟨UInt32.le_iff_toNat_le.1 h.1, UInt32.le_iff_toNat_le.1 h.2⟩
    -- the step down wraps around
    have hstep : (c.val + ('A'.val - 'a'.val)).toNat = (c.toNat + 4294967264) % 4294967296 :=
      UInt32.toNat_add c.val _
    rw [if_pos hrange]
    show (c.val + ('A'.val - 'a'.val)).toNat = c.toNat - 32
    omega
  · rename_i h
    rw [if_neg fun hrange =>
      h ⟨UInt32.le_iff_toNat_le.2 hrange.1, UInt32.le_iff_toNat_le.2 hrange.2⟩]

end ForgeRelay
