import AdaptiveFrame.Proofs.Number.Sums

/-!
# The next number

Numbers without a sign are ordered as their bits are (`lt_iff_magnitude`), so below every one of them that is not
infinite `nextUp` is the least number above it: whatever is above the one is at least the other (`nextUp_le`).
-/

namespace AdaptiveFrame.Binary32

open Float.Model (Format UnpackedFloat)
open Float.Model.UnpackedFloat

variable {a b : Float32} {m n : Nat}

/-- The bits of a number without its sign, read as a whole number. -/
def magnitude (a : Float32) : Nat := a.toBits.toNat % 2 ^ 31

/-- What a number without a sign compares by, from its bits. -/
def magnitudeKey (n : Nat) : Int × Int × Int :=
  if n = 0 then (0, 0, 0) else if n = 0x7f800000 then (2, 0, 0) else bitsKey n

theorem below_magnitudeKey (hn : n ≤ 0x7f800000) (h : m < n) : Below (magnitudeKey m) (magnitudeKey n) := by
  unfold magnitudeKey bitsKey Below
  repeat' split
  all_goals dsimp only
  all_goals omega

theorem not_below_self (k : Int × Int × Int) : ¬ Below k k := by
  unfold Below
  omega

/-- A word with a sign that compares as zero is the zero with that sign. -/
theorem eq_of_key_zero {w : BitVec Format.binary32.numBits} (h : key (unpack .binary32 w) = some (0, 0, 0)) :
    w.toNat % 2 ^ 31 = 0 := by
  have hexponent : (unpackExponent w).toNat = w.toNat / 2 ^ 23 % 2 ^ 8 := by
    rw [unpackExponent, BitVec.toNat_cast, BitVec.extractLsb_toNat, Nat.shiftRight_eq_div_pow]
    rfl
  have hmantissa : (unpackMantissa w).toNat = w.toNat % 2 ^ 23 := by
    rw [unpackMantissa, BitVec.toNat_cast, BitVec.extractLsb_toNat, Nat.shiftRight_zero]
    rfl
  unfold unpack at h
  dsimp only at h
  split at h
  · split at h
    · cases hs : Sign.ofBitVec (unpackSign w) <;> rw [hs] at h <;> cases h
    · cases h
  · split at h
    · rename_i hexp
      split at h
      · rename_i hmant
        rw [hexp] at hexponent
        rw [hmant] at hmantissa
        have hexponent : 0 = w.toNat / 2 ^ 23 % 2 ^ 8 := hexponent
        have hmantissa : 0 = w.toNat % 2 ^ 23 := hmantissa
        omega
      · cases hs : Sign.ofBitVec (unpackSign w) <;> rw [hs] at h <;> cases h
    · cases hs : Sign.ofBitVec (unpackSign w) <;> rw [hs] at h <;> cases h

/-- A number without a sign is read off its bits. -/
theorem keyOf_of_nonneg (h : 0 ≤ a) : magnitude a ≤ 0x7f800000 ∧ keyOf a = some (magnitudeKey (magnitude a)) := by
  obtain ⟨z, k, hz, hk, hnot⟩ := le_iff.1 h
  rw [keyOf_zero] at hz
  cases hz
  have hkey : key (unpack .binary32 a.toBits.toBitVec) = some k := hk
  have hmag : magnitude a = a.toBits.toBitVec.toNat % 2 ^ 31 := rfl
  rw [hk, hmag]
  generalize a.toBits.toBitVec = w at hkey
  have hlt : w.toNat < 2 ^ 32 := w.isLt
  unfold magnitudeKey
  rcases Nat.lt_or_ge w.toNat (2 ^ 31) with hw | hw
  · rw [Nat.mod_eq_of_lt hw]
    rcases Nat.lt_trichotomy w.toNat 0x7f800000 with hfin | hinf | hnan
    · refine ⟨Nat.le_of_lt hfin, ?_⟩
      rcases Nat.eq_zero_or_pos w.toNat with h0 | h0
      · obtain rfl : w = 0#32 := BitVec.eq_of_toNat_eq h0
        exact congrArg some (Option.some.inj hkey).symm
      · rw [if_neg (Nat.ne_of_gt h0), if_neg (Nat.ne_of_lt hfin), ← hkey]
        exact (unpack_of_pos h0 hfin).1
    · obtain rfl : w = 0x7f800000#32 := BitVec.eq_of_toNat_eq hinf
      exact ⟨Nat.le_refl _, congrArg some (Option.some.inj hkey).symm⟩
    · rw [key_of_nan hnan hw] at hkey
      cases hkey
  · -- The only word with a sign that is not below zero is the other zero.
    have hk0 : k = (0, 0, 0) := by
      have hsign := not_below_of_sign hw hkey
      obtain ⟨rank, e, m⟩ := k
      simp only [Below] at hsign hnot
      simp only [Prod.mk.injEq]
      omega
    subst hk0
    have hbits := eq_of_key_zero hkey
    rw [hbits]
    exact ⟨Nat.zero_le _, rfl⟩

/-- Numbers without a sign are ordered as their bits are. -/
theorem lt_iff_magnitude (ha : 0 ≤ a) (hb : 0 ≤ b) : a < b ↔ magnitude a < magnitude b := by
  obtain ⟨hna, hka⟩ := keyOf_of_nonneg ha
  obtain ⟨hnb, hkb⟩ := keyOf_of_nonneg hb
  have hlt : a < b ↔ Below (magnitudeKey (magnitude a)) (magnitudeKey (magnitude b)) := by
    rw [lt_iff, hka, hkb]
    simp
  rw [hlt]
  refine ⟨fun h => ?_, below_magnitudeKey hnb⟩
  rcases Nat.lt_trichotomy (magnitude a) (magnitude b) with hlt | heq | hgt
  · exact hlt
  · rw [heq] at h
    exact absurd h (not_below_self _)
  · have hgt := below_magnitudeKey hna hgt
    unfold Below at h hgt
    omega

/-! ## Below infinity -/

theorem toBits_ofBits {w : UInt32} (h0 : 0 < w.toNat) (h : w.toNat ≤ 0x7f800000) : (Float32.ofBits w).toBits = w := by
  rcases Nat.lt_or_eq_of_le h with hlt | heq
  · exact UInt32.toNat_inj.1 (congrArg BitVec.toNat (unpack_of_pos (w := w.toBitVec) h0 hlt).2)
  · obtain rfl : w = 0x7f800000 := UInt32.toNat_inj.1 heq
    rfl

theorem magnitude_ofBits {w : UInt32} (h0 : 0 < w.toNat) (h : w.toNat ≤ 0x7f800000) :
    magnitude (.ofBits w) = w.toNat := by
  rw [magnitude, toBits_ofBits h0 h]
  exact Nat.mod_eq_of_lt (by omega)

theorem magnitude_zero : magnitude 0 = 0 := rfl

theorem ofBits_nonneg {w : UInt32} (h0 : 0 < w.toNat) (h : w.toNat ≤ 0x7f800000) : 0 ≤ Float32.ofBits w := by
  rcases Nat.lt_or_eq_of_le h with hlt | heq
  · refine le_iff.2 ⟨_, _, keyOf_zero, keyOf_ofBits h0 hlt, ?_⟩
    unfold bitsKey Below
    split <;> dsimp only <;> omega
  · obtain rfl : w = 0x7f800000 := UInt32.toNat_inj.1 heq
    decide

/-- A number without a sign below another one is not infinite. -/
theorem magnitude_lt_of_lt (ha : 0 ≤ a) (h : a < b) : magnitude a < 0x7f800000 := by
  have hb : 0 ≤ b := le_of_lt (lt_of_le_of_lt ha h)
  exact Nat.lt_of_lt_of_le ((lt_iff_magnitude ha hb).1 h) (keyOf_of_nonneg hb).1

theorem pos_iff_magnitude (ha : 0 ≤ a) : 0 < a ↔ 0 < magnitude a := by
  rw [lt_iff_magnitude (by decide) ha, magnitude_zero]

theorem toBits_of_magnitude (ha : 0 ≤ a) (h0 : 0 < magnitude a) : a.toBits.toNat = magnitude a := by
  have hpos := (pos_iff_magnitude ha).2 h0
  rcases lt_posInf_or_eq ha with hlt | rfl
  · have hbits := (toBits_of_pos hpos hlt).2
    exact (Nat.mod_eq_of_lt (by omega)).symm
  · rfl

theorem eq_of_magnitude (ha : 0 ≤ a) (hb : 0 ≤ b) (h0 : 0 < magnitude a) (h : magnitude a = magnitude b) : a = b := by
  refine eq_of_toBits ?_
  rw [toBits_of_magnitude ha h0, h, toBits_of_magnitude hb (h ▸ h0)]

theorem nextUp_of_zero (ha : ¬ a.isNaN = true) (h : magnitude a = 0) : nextUp a = .ofBits 1 := by
  have hinf : (a.toBits == 0x7f800000) = false := by
    rw [beq_eq_false_iff_ne]
    intro heq
    rw [magnitude, heq] at h
    exact absurd h (by decide)
  have hmag : (a.toBits &&& 0x7fffffff == 0) = true := by
    rw [beq_iff_eq, ← UInt32.toNat_inj, UInt32.toNat_and]
    show a.toBits.toNat &&& (2 ^ 31 - 1) = 0
    rw [Nat.and_two_pow_sub_one_eq_mod]
    exact h
  unfold nextUp
  dsimp only
  rw [if_neg (by rw [hinf, Bool.or_false]; exact ha), if_pos hmag]

theorem nextUp_of_pos (hnan : ¬ a.isNaN = true) (hlo : 0 < a.toBits.toNat)
    (hhi : a.toBits.toNat < 0x7f800000) : nextUp a = .ofBits (a.toBits + 1) := by
  have hinf : (a.toBits == 0x7f800000) = false := by
    rw [beq_eq_false_iff_ne, ne_eq, ← UInt32.toNat_inj]
    exact Nat.ne_of_lt hhi
  have hmag : (a.toBits &&& 0x7fffffff == 0) = false := by
    rw [beq_eq_false_iff_ne, ne_eq, ← UInt32.toNat_inj, UInt32.toNat_and]
    show ¬ a.toBits.toNat &&& (2 ^ 31 - 1) = 0
    rw [Nat.and_two_pow_sub_one_eq_mod]
    omega
  have hsign : a.toBits < 0x80000000 := by
    rw [UInt32.lt_iff_toNat_lt]
    exact Nat.lt_trans hhi (by decide)
  have hfinite : ¬ (a.isNaN || a.toBits == 0x7f800000) = true := by
    rw [hinf, Bool.or_false]
    exact hnan
  unfold nextUp
  dsimp only
  rw [if_neg hfinite, if_neg (Bool.eq_false_iff.1 hmag), if_pos hsign]

theorem not_isNaN_of_nonneg (ha : 0 ≤ a) : ¬ a.isNaN = true := by
  rw [isNaN_iff, (keyOf_of_nonneg ha).2]
  simp

/-- The next number has no sign either, and its bits are the next ones. -/
theorem magnitude_nextUp (ha : 0 ≤ a) (hfin : magnitude a < 0x7f800000) :
    0 ≤ nextUp a ∧ magnitude (nextUp a) = magnitude a + 1 := by
  have hnan := not_isNaN_of_nonneg ha
  rcases Nat.eq_zero_or_pos (magnitude a) with h0 | h0
  · rw [nextUp_of_zero hnan h0, h0]
    decide
  · have hbits := toBits_of_magnitude ha h0
    have hnext : (a.toBits + 1).toNat = magnitude a + 1 := by
      rw [UInt32.toNat_add, hbits]
      exact Nat.mod_eq_of_lt (by show magnitude a + 1 < 2 ^ 32; omega)
    rw [nextUp_of_pos hnan (by omega) (by omega)]
    refine ⟨ofBits_nonneg (by omega) (by omega), ?_⟩
    rw [magnitude_ofBits (by omega) (by omega), hnext]

/-! ## The least number above another -/

theorem lt_nextUp (ha : 0 ≤ a) (h : a < b) : a < nextUp a := by
  obtain ⟨hnonneg, hmag⟩ := magnitude_nextUp ha (magnitude_lt_of_lt ha h)
  rw [lt_iff_magnitude ha hnonneg]
  omega

/-- Whatever is above a number is the next one, or above that too. -/
theorem nextUp_le (ha : 0 ≤ a) (h : a < b) : b = nextUp a ∨ nextUp a < b := by
  have hb : 0 ≤ b := le_of_lt (lt_of_le_of_lt ha h)
  obtain ⟨hnonneg, hmag⟩ := magnitude_nextUp ha (magnitude_lt_of_lt ha h)
  have hlt := (lt_iff_magnitude ha hb).1 h
  rcases Nat.lt_or_ge (magnitude (nextUp a)) (magnitude b) with habove | hle
  · exact .inr ((lt_iff_magnitude hnonneg hb).2 habove)
  · exact .inl (eq_of_magnitude hb hnonneg (by omega) (by omega))

theorem not_lt_iff (ha : ¬ a.isNaN = true) : ¬ a < b ↔ b ≤ a ∨ b.isNaN = true := by
  constructor
  · intro h
    by_contra hnot
    obtain ⟨hle, hb⟩ := not_or.1 hnot
    exact h (lt_of_not_le hb ha hle)
  · rintro (hle | hb) hlt
    · exact not_lt_of_le hle hlt
    · exact not_isNaN_of_lt hlt hb

/-- What is above a number stays when it is raised to the next one. -/
theorem maxNum_nextUp_of_lt (ha : 0 ≤ a) (h : a < b) : maxNum b (nextUp a) = b := by
  rcases nextUp_le ha h with rfl | hlt
  · exact (maxNum_eq _ _).elim id id
  · unfold maxNum
    refine if_neg ?_
    rw [Bool.or_eq_true, decide_eq_true_eq]
    rintro (hnan | hle)
    · exact not_isNaN_of_lt h hnan
    · exact not_lt_of_le hle hlt

/-- What is not above a number becomes the next one when it is raised to it. -/
theorem maxNum_nextUp_of_not_lt {c : Float32} (ha : 0 ≤ a) (hb : a < b) (hc : ¬ a < c) :
    maxNum c (nextUp a) = nextUp a := by
  unfold maxNum
  refine if_pos ?_
  rw [Bool.or_eq_true, decide_eq_true_eq]
  rcases (not_lt_iff (not_isNaN_of_nonneg ha)).1 hc with hle | hnan
  · exact .inr (le_of_lt (lt_of_le_of_lt hle (lt_nextUp ha hb)))
  · exact .inl hnan

end AdaptiveFrame.Binary32
