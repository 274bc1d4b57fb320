import AdaptiveFrame.Proofs.Number.Order

/-!
# Sums of numbers without a sign

Numbers that are not below zero (`Unsigned`) add up to such numbers, and infinity absorbs all of them. Divided by
a count it stays infinite: the number that a count of 64 bits is rounded to is finite (`Within`).
-/

namespace AdaptiveFrame.Binary32

open Float.Model (Format UnpackedFloat totalExponent)
open Float.Model.UnpackedFloat

variable {u v : UnpackedFloat} {a b : Float32} {e : Int} {m k : Nat} {T : Int} {acc : Accuracy}

/-! ## Numbers without a sign -/

/-- A zero, or a number above it. -/
def Unsigned : UnpackedFloat → Prop
  | .zero _ | .infinity .positive | .finite .positive .. => True
  | _ => False

theorem unsigned_iff (u : UnpackedFloat) : Unsigned u ↔ ∃ k, key u = some k ∧ ¬ Below k (0, 0, 0) := by
  cases u with
  | notANumber => simp [Unsigned, key]
  | infinity s => cases s <;> simp [Unsigned, key, Below]
  | zero s => simp [Unsigned, key, Below]
  | finite s m e h => cases s <;> simp [Unsigned, key, Below]

/-- A zero without a sign, or a finite number above it whose first digit stands at most at a place. -/
def Within (T : Int) : UnpackedFloat → Prop
  | .zero .positive => True
  | .finite .positive m e _ => totalExponent m e ≤ T
  | _ => False

theorem Within.mono {T' : Int} (h : Within T u) (hT : T ≤ T') : Within T' u := by
  cases u with
  | notANumber => exact h
  | infinity s => exact h
  | zero s => cases s <;> exact h
  | finite s m e hm => cases s with
    | negative => exact h
    | positive => exact Int.le_trans h hT

theorem Within.unsigned (h : Within T u) : Unsigned u := by
  cases u with
  | notANumber => exact h
  | infinity s => exact h.elim
  | zero s => exact trivial
  | finite s m e hm => cases s with
    | negative => exact h
    | positive => exact trivial

theorem within_word {e m : Nat} (he : e < 255) (hm : m < 2 ^ 23) : Within (e - 126) (unpack .binary32 (word e m)) := by
  rcases Nat.eq_zero_or_pos e with rfl | hpos
  · rcases Nat.eq_zero_or_pos m with rfl | hmpos
    · exact trivial
    · rw [unpack_subnormal hm hmpos]
      have hlog : m.log2 < 23 := (Nat.log2_lt (by omega)).2 hm
      show (m.log2 + 1 + -149 : Int) ≤ _
      omega
  · rw [unpack_normal he hpos hm]
    have hlog : (2 ^ 23 + m).log2 < 24 := (Nat.log2_lt (by omega)).2 (by omega)
    show ((2 ^ 23 + m).log2 + 1 + (e - 150) : Int) ≤ _
    omega

/-- A finite number without a sign is packed to infinity, or into a word of small exponent. -/
theorem pack_finite (h : 0 < m) :
    104 < e ∧ pack .binary32 (.finite .positive m e h) = packedInfinity .binary32 .positive ∨
    e ≤ 104 ∧ ∃ e', e' ≤ (e + 150).toNat ∧ pack .binary32 (.finite .positive m e h) = word e' (m % 2 ^ 23) := by
  have hmant : BitVec.ofNat 23 m = BitVec.ofNat 23 (m % 2 ^ 23) := by
    rw [← BitVec.toNat_inj, BitVec.toNat_ofNat, BitVec.toNat_ofNat, Nat.mod_mod]
  have hexp : (e + (Format.binary32.exponentBias : Nat) + (23 : Nat)).toNat = (e + 150).toNat := by
    show (e + 127 + 23).toNat = _
    omega
  unfold pack
  dsimp only
  rw [hexp]
  by_cases hbig : 2 ^ Format.binary32.exponentBits ≤ (e + 150).toNat + 1
  · have hbig' : 256 ≤ (e + 150).toNat + 1 := hbig
    exact .inl ⟨by omega, if_pos hbig⟩
  · have hsmall : (e + 150).toNat + 1 < 256 := Nat.lt_of_not_le hbig
    rw [if_neg hbig]
    refine .inr ⟨by omega, ?_⟩
    by_cases hnormal : m.log2 + 1 = Format.binary32.mantissaBits
    · exact ⟨_, Nat.le_refl _, by rw [if_pos hnormal, hmant]; rfl⟩
    · exact ⟨0, Nat.zero_le _, by rw [if_neg hnormal, hmant]; rfl⟩

theorem unsigned_repack (hu : Unsigned u) : Unsigned (unpack .binary32 (pack .binary32 u)) := by
  cases u with
  | notANumber => exact hu.elim
  | zero s => cases s <;> exact trivial
  | infinity s => cases s with
    | positive => exact trivial
    | negative => exact hu.elim
  | finite s m e h => cases s with
    | negative => exact hu.elim
    | positive =>
      obtain ⟨-, heq⟩ | ⟨hsmall, e', he', heq⟩ := pack_finite h
      · rw [heq]
        exact trivial
      · rw [heq]
        exact (within_word (by omega) (Nat.mod_lt _ (by decide))).unsigned

theorem unsigned_round (m : Nat) (e : Int) (acc : Accuracy) :
    Unsigned (roundWithAccuracy .binary32 .positive m e acc) := by
  unfold roundWithAccuracy
  dsimp only
  split <;> exact trivial

theorem unsigned_normalize (hm : 0 < m) (e : Int) : Unsigned (UnpackedFloat.normalize .binary32 m e .positive) := by
  have hcompare : compare (m : Int) 0 = .gt := Int.compare_eq_gt.2 (by omega)
  unfold UnpackedFloat.normalize
  rw [hcompare]
  exact unsigned_round ..

theorem shiftRight_mantissa (em : ExtendedMantissa) (k : Nat) : (em >>> k).mantissa = em.mantissa / 2 ^ k := by
  induction k with
  | zero => exact (Nat.div_one _).symm
  | succ k ih =>
    show (em >>> k).mantissa / 2 = _
    rw [ih, Nat.div_div_eq_div_mul, Nat.pow_succ]

theorem mantissa_ofMantissaAndAccuracy (m : Nat) (acc : Accuracy) :
    (ExtendedMantissa.ofMantissaAndAccuracy m acc).mantissa = m := by
  cases acc with
  | exact => rfl
  | inexact o => cases o <;> rfl

theorem roundedMantissa_le (em : ExtendedMantissa) : em.roundedMantissa ≤ em.mantissa + 1 := by
  obtain ⟨m, r, s⟩ := em
  show Accuracy.roundToNearestEven m _ ≤ m + 1
  cases r <;> cases s <;> simp [ExtendedMantissa.accuracy, Accuracy.roundToNearestEven]
  omega

theorem log2_mul_two_pow {n : Nat} (hn : 0 < n) (k : Nat) : (n * 2 ^ k).log2 = n.log2 + k := by
  induction k with
  | zero => rw [Nat.pow_zero, Nat.mul_one, Nat.add_zero]
  | succ k ih =>
    rw [Nat.pow_succ, ← Nat.mul_assoc, Nat.mul_comm, Nat.log2_two_mul (by positivity), ih, Nat.add_assoc]

theorem ofScientific_zero {n : Nat} (hn : 0 < n) : UnpackedFloat.ofScientific .binary32 n 0 =
    roundWithAccuracy .binary32 .positive (n * 2 ^ 24) (-24) .exact := by
  have hexp : ¬ (0 : Int) < -((2 ^ Format.binary32.exponentBits : Int) + n.log2) := by
    show ¬ (0 : Int) < -((2 ^ 8 : Int) + n.log2)
    omega
  unfold UnpackedFloat.ofScientific
  rw [dif_neg (Nat.ne_of_gt hn), if_neg (by decide), if_neg hexp, if_pos (Int.le_refl 0)]
  simp only [UnpackedFloat.mul, Nat.shiftLeft_eq, Int.toNat_zero, Nat.pow_zero, Nat.mul_one]
  rfl

theorem nonneg_iff : 0 ≤ a ↔ Unsigned a.toModel.unpack := by
  rw [le_iff, keyOf_zero, unsigned_iff]
  constructor
  · rintro ⟨k, l, hk, hl, h⟩
    cases hk
    exact ⟨l, hl, h⟩
  · rintro ⟨l, hl, h⟩
    exact ⟨_, l, rfl, hl, h⟩

/-- Only the infinite word is read as infinity. -/
theorem toNat_of_key_infinity {w : BitVec Format.binary32.numBits} (h : key (unpack .binary32 w) = some (2, 0, 0)) :
    w.toNat = 0x7f800000 := by
  rcases Nat.lt_or_ge w.toNat (2 ^ 31) with hw | hw
  · by_contra hne
    rcases Nat.lt_or_gt_of_ne hne with hlt | hgt
    · rcases Nat.eq_zero_or_pos w.toNat with h0 | h0
      · obtain rfl : w = 0#32 := BitVec.eq_of_toNat_eq h0
        exact absurd h (by decide)
      · rw [(unpack_of_pos h0 hlt).1] at h
        unfold bitsKey at h
        split at h <;> cases h
    · rw [key_of_nan hgt hw] at h
      cases h
  · exact absurd (by simp [Below]) (not_below_of_sign hw h)

theorem eq_posInf_of_keyOf (h : keyOf a = some (2, 0, 0)) : a = posInf := by
  obtain ⟨⟨bits, hvalid⟩⟩ := a
  have hbits : bits.toBitVec.toNat = 0x7f800000 := toNat_of_key_infinity h
  have hword : bits = 0x7f800000 := UInt32.toNat_inj.1 hbits
  subst hword
  rfl

theorem keyOf_posInf : keyOf posInf = some (2, 0, 0) := rfl

/-- Below infinity lies every other number without a sign. -/
theorem lt_posInf_or_eq (h : 0 ≤ a) : a < posInf ∨ a = posInf := by
  obtain ⟨-, k, -, hk, -⟩ := le_iff.1 h
  by_cases hbelow : Below k (2, 0, 0)
  · exact .inl (lt_iff.2 ⟨k, _, hk, keyOf_posInf, hbelow⟩)
  · refine .inr (eq_posInf_of_keyOf ?_)
    have hnot := not_below_infinity hk
    obtain ⟨rank, e, m⟩ := k
    simp only [Below] at hbelow hnot
    obtain ⟨rfl, rfl, rfl⟩ : rank = 2 ∧ e = 0 ∧ m = 0 := by omega
    exact hk

end AdaptiveFrame.Binary32
