import AdaptiveFrame.Proofs.Number.Moving

/-!
# The nearest number

A size is rounded to the number of single precision nearest to it (`Nearest`). Of two that are as near that is the one
with even bits, and infinity takes over halfway between the largest number and 2^128. Rounding keeps track of where in
a mantissa the size lies (`Locates`), so what it makes of the mantissa is nearest to the size (`round_nearest`). Exact
products and quotients are rounded once, and with them the numbers that are written in digits (`ofScientific_nearest`).
-/

namespace AdaptiveFrame.Binary32

open Float.Model (Format UnpackedFloat totalExponent)
open Float.Model.UnpackedFloat

variable {e f : Int} {m n r k i j : Nat} {q y : ℚ} {em : ExtendedMantissa}

/-! ## Sizes -/

/-- The size of a finite number from its bits below the sign: 23 digits of mantissa, and the exponent above them. The
leading digit of the mantissa is left out unless the exponent is the least. -/
def bitsSize (n : Nat) : ℚ :=
  if n < 2 ^ 23 then n * 2 ^ (-149 : Int) else (2 ^ 23 + n % 2 ^ 23 : Nat) * 2 ^ ((n / 2 ^ 23 : Nat) - 150 : Int)

/-- The bits below the sign of the number nearest to a size. -/
def Nearest (q : ℚ) (n : Nat) : Prop :=
  if 2 ^ 128 - 2 ^ 103 ≤ q then n = 0x7f800000
  else n < 0x7f800000 ∧ ∀ k, k < 0x7f800000 → k ≠ n → |q - bitsSize n| < |q - bitsSize k| ∨
    |q - bitsSize n| = |q - bitsSize k| ∧ n % 2 = 0 ∧ k % 2 = 1

theorem Nearest.le (h : Nearest q n) : n ≤ 0x7f800000 := by
  unfold Nearest at h
  split at h
  · exact h.le
  · exact h.1.le

theorem Nearest.unique (h : Nearest q m) (h' : Nearest q n) : m = n := by
  unfold Nearest at h h'
  split at h
  · rw [if_pos ‹_›] at h'
    rw [h, h']
  · rw [if_neg ‹_›] at h'
    by_contra hne
    rcases h.2 n h'.1 (Ne.symm hne) with hlt | ⟨heq, heven, hodd⟩
    · rcases h'.2 m h.1 hne with hlt' | ⟨heq, -⟩
      · exact lt_asymm hlt hlt'
      · exact hlt.ne heq.symm
    · rcases h'.2 m h.1 hne with hlt' | ⟨-, heven', -⟩
      · exact hlt'.ne heq.symm
      · omega

/-- Bits give a mantissa and a count of steps above the least exponent. -/
theorem bitsSize_place (hr : r ≤ 2 ^ 24) (hfull : 2 ^ 23 ≤ r ∨ k = 0) :
    bitsSize (k * 2 ^ 23 + r) = r * 2 ^ ((k : Int) - 149) := by
  unfold bitsSize
  by_cases hsmall : k * 2 ^ 23 + r < 2 ^ 23
  · obtain rfl : k = 0 := by omega
    rw [if_pos hsmall]
    simp
  · rw [if_neg hsmall]
    rcases Nat.lt_or_eq_of_le hr with hlt | rfl
    · have hquotient : (k * 2 ^ 23 + r) / 2 ^ 23 = k + 1 := by omega
      have hrest : 2 ^ 23 + (k * 2 ^ 23 + r) % 2 ^ 23 = r := by omega
      rw [hquotient, hrest]
      congr 2
      push_cast
      ring
    · have hquotient : (k * 2 ^ 23 + 2 ^ 24) / 2 ^ 23 = k + 2 := by omega
      have hrest : 2 ^ 23 + (k * 2 ^ 23 + 2 ^ 24) % 2 ^ 23 = 2 ^ 23 := by omega
      have hexp : ((k + 2 : Nat) : Int) - 150 = (k - 149) + 1 := by
        push_cast
        ring
      rw [hquotient, hrest, hexp, zpow_add_one₀ two_ne_zero]
      push_cast
      ring

theorem exists_place (n : Nat) : ∃ k r, n = k * 2 ^ 23 + r ∧ r < 2 ^ 24 ∧ (2 ^ 23 ≤ r ∨ k = 0) :=
  ⟨n / 2 ^ 23 - 1, n - (n / 2 ^ 23 - 1) * 2 ^ 23, by omega, by omega, by omega⟩

theorem bitsSize_strictMono : StrictMono bitsSize := by
  refine strictMono_nat_of_lt_succ fun n => ?_
  obtain ⟨k, r, rfl, hr, hfull⟩ := exists_place n
  rw [Nat.add_assoc, bitsSize_place hr.le hfull, bitsSize_place hr (by omega)]
  gcongr
  exact Nat.lt_succ_self r

theorem bitsSize_largest : bitsSize 0x7f7fffff = 2 ^ 128 - 2 ^ 104 := by
  rw [show 0x7f7fffff = 253 * 2 ^ 23 + (2 ^ 24 - 1) from rfl, bitsSize_place (by decide) (by decide)]
  norm_num

theorem bitsSize_infinity : bitsSize 0x7f800000 = 2 ^ 128 := by
  rw [show 0x7f800000 = 253 * 2 ^ 23 + 2 ^ 24 from rfl, bitsSize_place (by decide) (by decide)]
  norm_num

section Between

variable (hlo : bitsSize i ≤ q) (hhi : q < bitsSize (i + 1))

include hlo in
theorem abs_sub_lower : |q - bitsSize i| = q - bitsSize i := abs_of_nonneg (sub_nonneg.2 hlo)

include hhi in
theorem abs_sub_upper : |q - bitsSize (i + 1)| = bitsSize (i + 1) - q := by
  rw [abs_sub_comm]
  exact abs_of_nonneg (sub_nonneg.2 hhi.le)

theorem lt_abs_sub_below (h : k < i) : q - bitsSize i < |q - bitsSize k| :=
  (sub_lt_sub_left (bitsSize_strictMono h) q).trans_le (le_abs_self _)

theorem lt_abs_sub_above (h : i + 1 < k) : bitsSize (i + 1) - q < |q - bitsSize k| := by
  rw [abs_sub_comm]
  exact (sub_lt_sub_right (bitsSize_strictMono h) q).trans_le (le_abs_self _)

include hlo hhi

/-- Of two neighbors the lower one is nearest if it is nearer, or as near with even bits. -/
theorem nearest_lower (hq : q < 2 ^ 128 - 2 ^ 103) (hi : i < 0x7f800000)
    (hnear : 2 * q ≤ bitsSize i + bitsSize (i + 1)) (heven : 2 * q = bitsSize i + bitsSize (i + 1) → i % 2 = 0) :
    Nearest q i := by
  rw [Nearest, if_neg (not_le.2 hq), abs_sub_lower hlo]
  refine ⟨hi, fun k _ hk => ?_⟩
  rcases Nat.lt_trichotomy k (i + 1) with hlt | rfl | hgt
  · exact .inl (lt_abs_sub_below (by omega))
  · rw [abs_sub_upper hhi]
    rcases hnear.lt_or_eq with hlt | heq
    · exact .inl (by linarith)
    · have heven := heven heq
      exact .inr ⟨by linarith, heven, by omega⟩
  · exact .inl (by linarith [lt_abs_sub_above (q := q) hgt])

/-- Likewise the upper one. -/
theorem nearest_upper (hq : q < 2 ^ 128 - 2 ^ 103) (hi : i + 1 < 0x7f800000)
    (hnear : bitsSize i + bitsSize (i + 1) ≤ 2 * q) (hodd : 2 * q = bitsSize i + bitsSize (i + 1) → i % 2 = 1) :
    Nearest q (i + 1) := by
  rw [Nearest, if_neg (not_le.2 hq), abs_sub_upper hhi]
  refine ⟨hi, fun k _ hk => ?_⟩
  rcases Nat.lt_trichotomy k i with hlt | rfl | hgt
  · exact .inl (by linarith [lt_abs_sub_below (q := q) hlt])
  · rw [abs_sub_lower hlo]
    rcases hnear.lt_or_eq with hlt | heq
    · exact .inl (by linarith)
    · have hodd := hodd heq.symm
      exact .inr ⟨by linarith, by omega, hodd⟩
  · exact .inl (lt_abs_sub_above (by omega))

/-- Between two sizes the nearer one is nearest, and halfway the one with even bits. -/
theorem nearest_of_between (hbelow : 2 * q < bitsSize i + bitsSize (i + 1) → j = i)
    (habove : bitsSize i + bitsSize (i + 1) < 2 * q → j = i + 1)
    (hhalf : 2 * q = bitsSize i + bitsSize (i + 1) → j = i + i % 2) : Nearest q (min j 0x7f800000) := by
  have hj : j = i ∨ j = i + 1 := by
    rcases lt_trichotomy (2 * q) (bitsSize i + bitsSize (i + 1)) with hlt | heq | hgt
    · exact .inl (hbelow hlt)
    · have htie := hhalf heq
      omega
    · exact .inr (habove hgt)
  rcases le_or_gt (2 ^ 128 - 2 ^ 103) q with hbig | hq
  · -- Halfway to infinity the largest number is the lower neighbor, or both are beyond it.
    have hi : 0x7f7fffff ≤ i := by
      by_contra hsmall
      have hle := bitsSize_strictMono.monotone (show i + 1 ≤ 0x7f7fffff by omega)
      rw [bitsSize_largest] at hle
      linarith
    rw [Nearest, if_pos hbig]
    rcases Nat.lt_or_eq_of_le hi with hlt | rfl
    · omega
    · rw [bitsSize_largest, bitsSize_infinity] at habove hhalf
      rcases lt_or_eq_of_le (show 2 ^ 128 - 2 ^ 104 + 2 ^ 128 ≤ 2 * q by linarith) with hlt | heq
      · rw [habove hlt]
        rfl
      · rw [hhalf heq.symm]
        rfl
  · have hi : i ≤ 0x7f7fffff := by
      by_contra hbig
      have hle := bitsSize_strictMono.monotone (show 0x7f800000 ≤ i by omega)
      rw [bitsSize_infinity] at hle
      linarith
    have hj' : j < 0x7f800000 := by
      rcases Nat.lt_or_eq_of_le hi with hlt | rfl
      · omega
      · rw [bitsSize_largest, bitsSize_infinity] at hbelow
        rw [hbelow (by linarith)]
        decide
    rw [min_eq_left hj'.le]
    rcases hj with rfl | rfl
    · refine nearest_lower hlo hhi hq hj' (not_lt.1 fun hlt => by simpa using habove hlt) fun heq => ?_
      have htie := hhalf heq
      omega
    · refine nearest_upper hlo hhi hq hj' (not_lt.1 fun hlt => by simpa using hbelow hlt) fun heq => ?_
      have htie := hhalf heq
      omega

end Between

theorem nearest_zero (h0 : 0 ≤ q) (h : q < 2 ^ (-150 : Int)) : Nearest q 0 := by
  have hzero : bitsSize 0 = 0 := by simp [bitsSize]
  have hone : bitsSize (0 + 1) = 2 * 2 ^ (-150 : Int) := by norm_num [bitsSize]
  have hstep : (0 : ℚ) < 2 ^ (-150 : Int) := by positivity
  refine nearest_of_between (i := 0) (j := 0) (by rwa [hzero]) (by rw [hone]; linarith) (fun _ => rfl) ?_ (fun _ => rfl)
  rw [hzero, hone]
  intro hgt
  linarith

theorem nearest_infinity (h : 2 ^ 128 ≤ q) : Nearest q 0x7f800000 := by
  have hhalf : 2 ^ 128 - 2 ^ 103 ≤ q := le_trans (by norm_num) h
  rw [Nearest, if_pos hhalf]

/-! ## Rounding a mantissa -/

/-- Where a size lies from the digit of the mantissa on: before or behind the half, and whether at neither end. -/
structure Locates (em : ExtendedMantissa) (y : ℚ) : Prop where
  le : em.mantissa ≤ y
  lt : y < em.mantissa + 1
  half : em.roundBit = true ↔ em.mantissa + 1 / 2 ≤ y
  inside : em.stickyBit = true ↔ y ≠ em.mantissa ∧ y ≠ em.mantissa + 1 / 2

theorem Locates.inexact_iff (h : Locates em y) : (em.roundBit || em.stickyBit) = true ↔ y ≠ em.mantissa := by
  rw [Bool.or_eq_true, h.half, h.inside]
  constructor
  · rintro (hhalf | hinside)
    · exact ne_of_gt (by linarith)
    · exact hinside.1
  · intro hne
    by_cases hhalf : y = em.mantissa + 1 / 2
    · exact .inl hhalf.ge
    · exact .inr ⟨hne, hhalf⟩

/-- A size is kept track of when a digit is dropped. -/
theorem Locates.shiftRightOne (h : Locates em y) : Locates em.shiftRightOne (y / 2) := by
  have hinexact := h.inexact_iff
  obtain ⟨m, b, s⟩ := em
  obtain ⟨hle, hlt, -, -⟩ := h
  dsimp only at hle hlt hinexact
  rcases Nat.even_or_odd' m with ⟨c, rfl | rfl⟩
  · have hquotient : 2 * c / 2 = c := by omega
    have hbit : (2 * c % 2 != 0) = false := by simp
    push_cast at hle hlt hinexact
    constructor <;> simp only [ExtendedMantissa.shiftRightOne, hquotient, hbit, hinexact]
    · linarith
    · linarith
    · simp only [Bool.false_eq_true, false_iff]
      linarith
    · exact ⟨fun hne => ⟨fun heq => hne (by linarith), ne_of_lt (by linarith)⟩, fun hne heq => hne.1 (by linarith)⟩
  · have hquotient : (2 * c + 1) / 2 = c := by omega
    have hbit : ((2 * c + 1) % 2 != 0) = true := by simp
    push_cast at hle hlt hinexact
    constructor <;> simp only [ExtendedMantissa.shiftRightOne, hquotient, hbit, hinexact]
    · linarith
    · linarith
    · simp only [true_iff]
      linarith
    · exact ⟨fun hne => ⟨ne_of_gt (by linarith), fun heq => hne (by linarith)⟩, fun hne heq => hne.2 (by linarith)⟩

theorem Locates.shiftRight (h : Locates em y) (k : Nat) : Locates (em >>> k) (y / 2 ^ k) := by
  induction k with
  | zero => rwa [pow_zero, div_one]
  | succ k ih =>
    have hstep := ih.shiftRightOne
    rwa [div_div, ← pow_succ] at hstep

/-- A mantissa is rounded to the nearer end, and from the half to the even one. -/
theorem Locates.rounded (h : Locates em y) :
    (2 * y < em.mantissa + (em.mantissa + 1) → em.roundedMantissa = em.mantissa) ∧
    (em.mantissa + (em.mantissa + 1) < 2 * y → em.roundedMantissa = em.mantissa + 1) ∧
    (2 * y = em.mantissa + (em.mantissa + 1) → em.roundedMantissa = em.mantissa + em.mantissa % 2) := by
  obtain ⟨m, b, s⟩ := em
  obtain ⟨-, -, hhalf, hinside⟩ := h
  dsimp only at hhalf hinside ⊢
  refine ⟨fun hlt => ?_, fun hgt => ?_, fun heq => ?_⟩
  · have hb : b = false := Bool.eq_false_iff.2 fun hb => by linarith [hhalf.1 hb]
    rw [hb]
    cases s <;> rfl
  · have hb : b = true := hhalf.2 (by linarith)
    have hs : s = true := hinside.2 ⟨ne_of_gt (by linarith), ne_of_gt (by linarith)⟩
    rw [hb, hs]
    rfl
  · have hb : b = true := hhalf.2 (by linarith)
    have hs : s = false := Bool.eq_false_iff.2 fun hs => (hinside.1 hs).2 (by linarith)
    rw [hb, hs]
    rfl

theorem locates_exact (n : Nat) : Locates (.ofMantissaAndAccuracy n .exact) n := by
  constructor <;> simp [ExtendedMantissa.ofMantissaAndAccuracy]

theorem half_cmp (r : Nat) (hn : 0 < n) : ((r : ℚ) / n < 1 / 2 ↔ 2 * r < n) ∧ (1 / 2 < (r : ℚ) / n ↔ n < 2 * r) := by
  have hn' : (0 : ℚ) < n := by exact_mod_cast hn
  rw [div_lt_div_iff₀ hn' two_pos, div_lt_div_iff₀ two_pos hn', one_mul, mul_comm]
  exact ⟨by exact_mod_cast Iff.rfl, by exact_mod_cast Iff.rfl⟩

/-- A whole number and a fraction lie behind the whole number, as the fraction says. -/
theorem locates_fraction (m : Nat) (hr : r < n) :
    Locates (.ofMantissaAndAccuracy m (accuracyOfFraction r n)) (m + r / n) := by
  have hn : 0 < n := Nat.zero_lt_of_lt hr
  have hn' : (0 : ℚ) < n := by exact_mod_cast hn
  have hlt_one : (r : ℚ) / n < 1 := (div_lt_one hn').2 (by exact_mod_cast hr)
  obtain ⟨hlt_iff, hgt_iff⟩ := half_cmp r hn
  unfold accuracyOfFraction
  rcases Nat.eq_zero_or_pos r with rfl | hpos
  · rw [if_pos rfl, Nat.cast_zero, zero_div, add_zero]
    exact locates_exact _
  · have hpos' : 0 < (r : ℚ) / n := div_pos (by exact_mod_cast hpos) hn'
    rw [if_neg hpos.ne']
    generalize (r : ℚ) / n = x at *
    rcases Nat.lt_trichotomy (2 * r) n with hlt | heq | hgt
    · have hx := hlt_iff.2 hlt
      rw [Nat.compare_eq_lt.2 hlt]
      constructor <;> simp only [ExtendedMantissa.ofMantissaAndAccuracy, Bool.false_eq_true, false_iff, true_iff]
      · linarith
      · linarith
      · linarith
      · exact ⟨ne_of_gt (by linarith), ne_of_lt (by linarith)⟩
    · obtain rfl : x = 1 / 2 :=
        le_antisymm (not_lt.1 fun h => (hgt_iff.1 h).ne' heq) (not_lt.1 fun h => (hlt_iff.1 h).ne heq)
      rw [Nat.compare_eq_eq.2 heq]
      constructor <;> simp [ExtendedMantissa.ofMantissaAndAccuracy]
      linarith
    · have hx := hgt_iff.2 hgt
      rw [Nat.compare_eq_gt.2 hgt]
      constructor <;> simp only [ExtendedMantissa.ofMantissaAndAccuracy, true_iff]
      · linarith
      · linarith
      · linarith
      · exact ⟨ne_of_gt (by linarith), ne_of_gt (by linarith)⟩

/-- A quotient of whole numbers lies behind its whole part, as the remainder says. -/
theorem locates_quotient (m : Nat) (hn : 0 < n) :
    Locates (.ofMantissaAndAccuracy (m / n) (accuracyOfFraction (m % n) n)) (m / n) := by
  have hn' : (n : ℚ) ≠ 0 := Nat.cast_ne_zero.2 hn.ne'
  have hvalue : (m : ℚ) / n = (m / n : Nat) + (m % n : Nat) / n := by
    rw [div_eq_iff hn', add_mul, div_mul_cancel₀ _ hn']
    exact_mod_cast (Nat.div_add_mod' m n).symm
  rw [hvalue]
  exact locates_fraction _ (Nat.mod_lt m hn)

/-! ## Packed bits -/

/-- Numbers that are kept are packed in the order of their sizes, up to infinity. -/
theorem Kept.toNat_pack (h : Kept m (k - 149 : Int)) :
    (pack .binary32 (.finite .positive m (k - 149) h.pos)).toNat = min (k * 2 ^ 23 + m) 0x7f800000 := by
  obtain ⟨hpos, hlt, hlow, hfull⟩ := h
  by_cases hbig : 253 < k
  · obtain ⟨-, heq⟩ | ⟨hsmall, -⟩ := pack_finite (e := k - 149) hpos
    · rw [heq, min_eq_right (by omega)]
      rfl
    · omega
  · rw [min_eq_left (by omega)]
    by_cases hm : m < 2 ^ 23
    · obtain rfl : k = 0 := by omega
      exact (congrArg BitVec.toNat (pack_subnormal hm hpos)).trans (toNat_word (by decide) hm)
    · obtain ⟨l, rfl⟩ := Nat.exists_eq_add_of_le (Nat.le_of_not_lt hm)
      have hexp : (k - 149 : Int) = (k + 1 : Nat) - 150 := by omega
      simp only [hexp]
      rw [pack_normal (by omega) (by omega) (by omega), toNat_word (by omega) (by omega)]
      omega

theorem toNat_pack_carried (hr : r ≤ 2 ^ 24) (hfull : 2 ^ 23 ≤ r ∨ k = 0) :
    (pack .binary32 (carried .positive r (k - 149))).toNat = min (k * 2 ^ 23 + r) 0x7f800000 := by
  rcases carried_cases .positive (t := k - 149) hr (by omega) (by omega) with
    ⟨rfl, heq⟩ | ⟨rfl, hkept, heq⟩ | ⟨hkept, heq⟩
  · obtain rfl : k = 0 := by omega
    rw [heq]
    rfl
  · have hexp : (k - 149 + 1 : Int) = (k + 1 : Nat) - 149 := by omega
    simp only [hexp] at hkept heq
    rw [heq, hkept.toNat_pack]
    omega
  · rw [heq, hkept.toNat_pack]

/-! ## Rounding a size -/

/-- What a mantissa is rounded to is nearest to the size that it locates, in steps of its exponent. -/
theorem Locates.nearest (h : Locates em y) (hlt : em.mantissa < 2 ^ 24) (hfull : 2 ^ 23 ≤ em.mantissa ∨ k = 0) :
    Nearest (y * 2 ^ ((k : Int) - 149)) (min (k * 2 ^ 23 + em.roundedMantissa) 0x7f800000) := by
  obtain ⟨hbelow, habove, hhalf⟩ := h.rounded
  have hstep : (0 : ℚ) < 2 ^ ((k : Int) - 149) := by positivity
  have hsize := bitsSize_place hlt.le hfull
  have hsucc : bitsSize (k * 2 ^ 23 + em.mantissa + 1) = (em.mantissa + 1) * 2 ^ ((k : Int) - 149) := by
    rw [Nat.add_assoc, bitsSize_place hlt (by omega), Nat.cast_add_one]
  have hsum : bitsSize (k * 2 ^ 23 + em.mantissa) + bitsSize (k * 2 ^ 23 + em.mantissa + 1) =
      (em.mantissa + (em.mantissa + 1)) * 2 ^ ((k : Int) - 149) := by
    rw [hsize, hsucc]
    ring
  refine nearest_of_between (i := k * 2 ^ 23 + em.mantissa) ?_ ?_ ?_ ?_ ?_
  · rw [hsize]
    exact mul_le_mul_of_nonneg_right h.le hstep.le
  · rw [hsucc]
    exact mul_lt_mul_of_pos_right h.lt hstep
  · rw [hsum, ← mul_assoc, mul_lt_mul_iff_left₀ hstep]
    exact fun h => by rw [hbelow h]
  · rw [hsum, ← mul_assoc, mul_lt_mul_iff_left₀ hstep]
    exact fun h => by rw [habove h, Nat.add_assoc]
  · rw [hsum, ← mul_assoc, mul_left_inj' hstep.ne']
    exact fun h => by rw [hhalf h]; omega

/-- A mantissa that is shifted to the exponent it is rounded at has 24 digits, unless the exponent is the least. -/
theorem shifted_bounds {s : Nat} (hk : max ((n.log2 : Int) + e - 23) (-149) = k - 149) (hs : (k - 149 : Int) = e + s) :
    n / 2 ^ s < 2 ^ 24 ∧ (2 ^ 23 ≤ n / 2 ^ s ∨ k = 0) := by
  constructor
  · rw [Nat.div_lt_iff_lt_mul (Nat.two_pow_pos s), ← Nat.pow_add]
    exact Nat.lt_log2_self.trans_le (Nat.pow_le_pow_right two_pos (by omega))
  · rcases Nat.eq_zero_or_pos k with h0 | hpos
    · exact .inr h0
    · have hn : n ≠ 0 := fun h0 => by simp [h0] at hk; omega
      rw [Nat.le_div_iff_mul_le (Nat.two_pow_pos s), ← Nat.pow_add, ← Nat.le_log2 hn]
      exact .inl (by omega)

/-- A mantissa with enough digits is rounded to the number nearest to the size that it locates. -/
theorem round_nearest {acc : Accuracy} (hloc : Locates (.ofMantissaAndAccuracy n acc) (q / 2 ^ e))
    (hfit : e ≤ max ((n.log2 : Int) + e - 23) (-149)) :
    Nearest q (pack .binary32 (roundWithAccuracy .binary32 .positive n e acc)).toNat := by
  obtain ⟨k, hk⟩ : ∃ k : Nat, max ((n.log2 : Int) + e - 23) (-149) = k - 149 :=
    ⟨(max ((n.log2 : Int) + e - 23) (-149) + 149).toNat, by omega⟩
  obtain ⟨s, hs⟩ : ∃ s : Nat, (k - 149 : Int) = e + s := ⟨(k - 149 - e).toNat, by omega⟩
  have hshift : ((k - 149 : Int) - e).toNat = s := by omega
  have hround : ∀ r, (ExtendedMantissa.ofMantissaAndAccuracy n acc >>> s).roundedMantissa = r → r ≤ 2 ^ 24 →
      roundWithAccuracy .binary32 .positive n e acc = carried .positive r (k - 149) := fun r hr hle =>
    roundWithAccuracy_eq .positive n e (by rw [hshift, hr]) hle (by rw [targetExponent_eq, hk]) (by omega) (by omega)
  have hvalue : q = q / 2 ^ e / 2 ^ s * 2 ^ ((k : Int) - 149) := by
    rw [hs, zpow_add₀ two_ne_zero, zpow_natCast]
    field_simp
  have hmantissa := shiftRight_mantissa (ExtendedMantissa.ofMantissaAndAccuracy n acc) s
  obtain ⟨hlt, hfull⟩ := shifted_bounds hk hs
  rw [← mantissa_ofMantissaAndAccuracy n acc, ← hmantissa] at hlt hfull
  have hnearest := (hloc.shiftRight s).nearest hlt hfull
  have hge := le_roundedMantissa (ExtendedMantissa.ofMantissaAndAccuracy n acc >>> s)
  have hle := roundedMantissa_le (ExtendedMantissa.ofMantissaAndAccuracy n acc >>> s)
  rw [hround _ rfl (by omega), toNat_pack_carried (by omega) (by omega), hvalue]
  exact hnearest

/-- A product of whole numbers times a power of two is rounded once. -/
theorem mul_nearest (hm : 0 < m) (hn : 0 < n) (hfit : 23 ≤ (m * n).log2) :
    Nearest (m * 2 ^ e * (n * 2 ^ f))
      (pack .binary32 (UnpackedFloat.mul .binary32 (.finite .positive m e hm) (.finite .positive n f hn))).toNat := by
  refine round_nearest (n := m * n) (e := e + f) ?_ (by omega)
  have hvalue : (m : ℚ) * 2 ^ e * (n * 2 ^ f) / 2 ^ (e + f) = (m * n : Nat) := by
    rw [zpow_add₀ two_ne_zero]
    push_cast
    field_simp
  rw [hvalue]
  exact locates_exact _

/-- A quotient is taken to enough digits, and rounded once. -/
theorem div_nearest (hm : 0 < m) (hn : 0 < n) :
    Nearest (m * 2 ^ e / (n * 2 ^ f))
      (pack .binary32 (UnpackedFloat.div .binary32 (.finite .positive m e hm) (.finite .positive n f hn))).toNat := by
  obtain ⟨t, ht⟩ : ∃ t, t = min (e - f) (max ((m.log2 : Int) + e - (n.log2 + f) - 24) (-149)) := ⟨_, rfl⟩
  obtain ⟨s, hs⟩ : ∃ s : Nat, e - f = t + s := ⟨(e - f - t).toNat, by omega⟩
  have hcore : divCore .binary32 m e n f = (m * 2 ^ s / n, t, accuracyOfFraction (m * 2 ^ s % n) n) := by
    have htarget : min (e - f) (Format.binary32.targetExponent (totalExponent m e - totalExponent n f)) = t := by
      show min (e - f) (max ((m.log2 + 1 + e : Int) - (n.log2 + 1 + f) - 24) (-149)) = t
      omega
    have hshift : (e - f - t).toNat = s := by omega
    unfold divCore
    rw [htarget]
    dsimp only
    rw [hshift, Nat.shiftLeft_eq]
  show Nearest _ (pack .binary32 (roundWithAccuracy .binary32 .positive (divCore .binary32 m e n f).1
    (divCore .binary32 m e n f).2.1 (divCore .binary32 m e n f).2.2)).toNat
  rw [hcore]
  refine round_nearest ?_ ?_
  · have hvalue : (m : ℚ) * 2 ^ e / (n * 2 ^ f) / 2 ^ t = (m * 2 ^ s : Nat) / n := by
      rw [show e = t + s + f by omega, zpow_add₀ two_ne_zero, zpow_add₀ two_ne_zero, zpow_natCast]
      push_cast
      field_simp
    rw [hvalue]
    exact locates_quotient _ hn
  · by_cases hlow : t ≤ -149
    · exact le_max_of_le_right hlow
    · have hlog : 23 ≤ (m * 2 ^ s / n).log2 := by
        have hfull : 2 ^ 23 ≤ m * 2 ^ s / n := by
          rw [Nat.le_div_iff_mul_le hn]
          calc 2 ^ 23 * n ≤ 2 ^ 23 * 2 ^ (n.log2 + 1) := Nat.mul_le_mul_left _ Nat.lt_log2_self.le
            _ = 2 ^ (23 + (n.log2 + 1)) := (Nat.pow_add ..).symm
            _ ≤ 2 ^ (m.log2 + s) := Nat.pow_le_pow_right two_pos (by omega)
            _ = 2 ^ m.log2 * 2 ^ s := Nat.pow_add ..
            _ ≤ m * 2 ^ s := Nat.mul_le_mul_right _ (Nat.log2_self_le hm.ne')
        exact (Nat.le_log2 (by omega)).2 hfull
      dsimp only
      omega

/-! ## Numbers in digits -/

theorem Counts.size {u : UnpackedFloat} (h : Counts n u) :
    ∃ m e, ∃ hm : Full m, u = .finite .positive m e hm.pos ∧ (m : ℚ) * 2 ^ e = n := by
  obtain ⟨m, e, hm, hu, hlo, -, hvalue⟩ := h
  refine ⟨m, e, hm, hu, ?_⟩
  obtain ⟨k, hk⟩ : ∃ k : Nat, e = k - 23 := ⟨(e + 23).toNat, by omega⟩
  rw [hk, Int.sub_add_cancel, Int.toNat_natCast] at hvalue
  have hcast : (m : ℚ) * 2 ^ k = n * 2 ^ 23 := by exact_mod_cast hvalue
  rw [hk, zpow_sub₀ two_ne_zero, zpow_natCast, ← mul_div_assoc, hcast]
  norm_num

/-- The powers of ten that are used as they are. -/
theorem powersOfTen_exact (hk : k < Float32.exactlyRepresentablePowersOfTen.size) :
    ∃ m e, ∃ hm : Full m, Float32.exactlyRepresentablePowersOfTen[k].toModel.unpack = .finite .positive m e hm.pos ∧
      (m : ℚ) * 2 ^ e = 10 ^ k := by
  have hsize : k < 11 := hk
  have hbits : ∀ (w : UInt32) (m : Nat) (e : Int) (hm : Full m),
      Float32.exactlyRepresentablePowersOfTen[k] = .ofBits w →
      (Float32.ofBits w).toModel.unpack = .finite .positive m e hm.pos → (m : ℚ) * 2 ^ e = 10 ^ k →
      ∃ m e, ∃ hm : Full m, Float32.exactlyRepresentablePowersOfTen[k].toModel.unpack = .finite .positive m e hm.pos ∧
        (m : ℚ) * 2 ^ e = 10 ^ k := fun w m e hm hw hunpack hvalue => ⟨m, e, hm, by rw [hw, hunpack], hvalue⟩
  interval_cases k
  · exact hbits 0x3F800000 8388608 (-23) ⟨by decide, by decide⟩ rfl rfl (by norm_num)
  · exact hbits 0x41200000 10485760 (-20) ⟨by decide, by decide⟩ rfl rfl (by norm_num)
  · exact hbits 0x42C80000 13107200 (-17) ⟨by decide, by decide⟩ rfl rfl (by norm_num)
  · exact hbits 0x447A0000 16384000 (-14) ⟨by decide, by decide⟩ rfl rfl (by norm_num)
  · exact hbits 0x461C4000 10240000 (-10) ⟨by decide, by decide⟩ rfl rfl (by norm_num)
  · exact hbits 0x47C35000 12800000 (-7) ⟨by decide, by decide⟩ rfl rfl (by norm_num)
  · exact hbits 0x49742400 16000000 (-4) ⟨by decide, by decide⟩ rfl rfl (by norm_num)
  · exact hbits 0x4B189680 10000000 0 ⟨by decide, by decide⟩ rfl rfl (by norm_num)
  · exact hbits 0x4CBEBC20 12500000 3 ⟨by decide, by decide⟩ rfl rfl (by norm_num)
  · exact hbits 0x4E6E6B28 15625000 6 ⟨by decide, by decide⟩ rfl rfl (by norm_num)
  · exact hbits 0x501502F9 9765625 10 ⟨by decide, by decide⟩ rfl rfl (by norm_num)

theorem Full.log2_mul (hm : Full m) (hn : Full n) : 23 ≤ (m * n).log2 := by
  have hle : 2 ^ 23 * 1 ≤ m * n := Nat.mul_le_mul hm.1 hn.pos
  exact (Nat.le_log2 (Nat.mul_pos hm.pos hn.pos).ne').2 hle

/-- Any digits and any power of ten are rounded once. -/
theorem ofScientific_once (hm : 0 < m) (hlow : -(256 + (m.log2 : Int)) ≤ e) (hhigh : e ≤ 256) :
    Nearest (m * 10 ^ e) (pack .binary32 (UnpackedFloat.ofScientific .binary32 m e)).toNat := by
  have hlarge : ¬ e > 2 ^ Format.binary32.exponentBits := by
    show ¬ e > 2 ^ 8
    omega
  have hsmall : ¬ e < -((2 ^ Format.binary32.exponentBits : Int) + m.log2) := by
    show ¬ e < -((2 ^ 8 : Int) + m.log2)
    omega
  unfold UnpackedFloat.ofScientific
  rw [dif_neg hm.ne', if_neg hlarge, if_neg hsmall]
  split
  · obtain ⟨k, rfl⟩ := Int.eq_ofNat_of_zero_le ‹0 ≤ e›
    have hlog : 23 ≤ (m * 2 ^ 24 * 10 ^ k).log2 := by
      have hle : 2 ^ 24 ≤ m * 2 ^ 24 * 10 ^ k := by
        rw [Nat.mul_right_comm]
        exact Nat.le_mul_of_pos_left _ (Nat.mul_pos hm (Nat.pow_pos (by decide)))
      exact (Nat.le_log2 (by omega)).2 (by omega)
    have hvalue : (m : ℚ) * 10 ^ (k : Int) =
        (m * 2 ^ 24 : Nat) * 2 ^ (-24 : Int) * ((10 ^ k : Nat) * 2 ^ (0 : Int)) := by
      push_cast
      rw [zpow_natCast, mul_one]
      ring
    have hnearest :=
      mul_nearest (e := -24) (f := 0) (Nat.mul_pos hm (Nat.two_pow_pos 24)) (Nat.pow_pos (by decide)) hlog
    rw [← hvalue] at hnearest
    simp only [Nat.shiftLeft_eq]
    exact hnearest
  · obtain ⟨k, rfl⟩ : ∃ k : Nat, e = -k := ⟨(-e).toNat, by omega⟩
    have hvalue : (m : ℚ) * 10 ^ (-k : Int) = m * 2 ^ (0 : Int) / ((10 ^ k : Nat) * 2 ^ (0 : Int)) := by
      push_cast
      rw [zpow_neg, zpow_natCast, mul_one, mul_one, div_eq_mul_inv]
    have hnearest := div_nearest (e := 0) (f := 0) hm (Nat.pow_pos (n := k) (show 0 < 10 by decide))
    rw [← hvalue] at hnearest
    simp only [neg_neg, Int.toNat_natCast]
    exact hnearest

/-- Few digits are converted as they are. -/
theorem counts_toFloat32 (hm : 0 < m) (h : m < 2 ^ 23) : Counts m m.toUInt64.toFloat32.toModel.unpack := by
  have hword : m.toUInt64.toNat = m := Nat.mod_eq_of_lt (by omega)
  have hconvert : m.toUInt64.toFloat32.toModel.unpack =
      unpack .binary32 (pack .binary32 (UnpackedFloat.normalize .binary32 m.toUInt64.toNat 0 .positive)) := rfl
  have hcount := counts_normalize hm h
  rw [hconvert, hword, hcount.repack]
  exact hcount

/-- A number that is written as digits and a power of ten is read as the nearest one: where both are exact they are
multiplied or divided, otherwise the whole is rounded. -/
theorem ofScientific_nearest (hm : 0 < m) (hlow : -(256 + (m.log2 : Int)) ≤ e) (hhigh : e ≤ 256) :
    Nearest (m * 10 ^ e) (Float32.ofScientific m (e < 0) e.natAbs).toBits.toNat := by
  unfold Float32.ofScientific
  by_cases hexact : m < 2 ^ 23 ∧ e.natAbs ≤ 10
  · rw [dif_pos hexact]
    have htable : e.natAbs < Float32.exactlyRepresentablePowersOfTen.size := Nat.lt_succ_of_le hexact.2
    obtain ⟨a, i, ha, hdigits, hvalue⟩ := (counts_toFloat32 hm hexact.1).size
    obtain ⟨b, j, hb, hpower, hten⟩ := powersOfTen_exact htable
    by_cases hneg : e < 0
    · have hquotient : (m : ℚ) * 10 ^ e = a * 2 ^ i / (b * 2 ^ j) := by
        rw [hvalue, hten, div_eq_mul_inv, ← zpow_natCast, ← zpow_neg]
        congr 2
        omega
      have hnearest := div_nearest (e := i) (f := j) ha.pos hb.pos
      rw [← hquotient, ← hdigits, ← hpower] at hnearest
      rw [decide_eq_true hneg]
      exact hnearest
    · have hproduct : (m : ℚ) * 10 ^ e = a * 2 ^ i * (b * 2 ^ j) := by
        rw [hvalue, hten, ← zpow_natCast]
        congr 2
        omega
      have hnearest := mul_nearest (e := i) (f := j) ha.pos hb.pos (ha.log2_mul hb)
      rw [← hproduct, ← hdigits, ← hpower] at hnearest
      rw [decide_eq_false hneg]
      exact hnearest
  · rw [dif_neg hexact]
    have hexponent : (if decide (e < 0) = true then Int.negOfNat e.natAbs else Int.ofNat e.natAbs) = e := by
      by_cases hneg : e < 0
      · rw [if_pos (decide_eq_true hneg), Int.negOfNat_eq, Int.ofNat_eq_natCast]
        omega
      · rw [if_neg (by simpa using hneg), Int.ofNat_eq_natCast]
        omega
    dsimp only
    rw [hexponent]
    exact ofScientific_once hm hlow hhigh

/-! ## Signs -/

theorem toNat_packComponents (s : Sign) (x : BitVec 8) (y : BitVec 23) :
    (packComponents .binary32 s x y).toNat = s.toBitVec.toNat * 2 ^ 31 + x.toNat * 2 ^ 23 + y.toNat := by
  rw [packComponents, BitVec.toNat_append, BitVec.toNat_append, ← Nat.shiftLeft_add_eq_or_of_lt y.isLt,
    ← Nat.shiftLeft_add_eq_or_of_lt x.isLt, Nat.shiftLeft_eq, Nat.shiftLeft_eq]
  show (s.toBitVec.toNat * 2 ^ 8 + x.toNat) * 2 ^ 23 + y.toNat = _
  ring

theorem toNat_pack_negative (hm : 0 < m) : (pack .binary32 (.finite .negative m e hm)).toNat =
    2 ^ 31 + (pack .binary32 (.finite .positive m e hm)).toNat := by
  unfold pack
  dsimp only
  split
  · rfl
  · split
    all_goals
      rw [toNat_packComponents, toNat_packComponents]
      show 1 * 2 ^ 31 + _ + _ = 2 ^ 31 + (0 * 2 ^ 31 + _ + _)
      omega

/-- The sign is the highest bit. -/
theorem toBits_neg {x : Float32} (h : x.toBits.toNat ≤ 0x7f800000) : (-x).toBits.toNat = 2 ^ 31 + x.toBits.toNat := by
  show (pack .binary32 (unpack .binary32 x.toBits.toBitVec).neg).toNat = 2 ^ 31 + x.toBits.toBitVec.toNat
  have hle : x.toBits.toBitVec.toNat ≤ 0x7f800000 := h
  generalize x.toBits.toBitVec = w at hle
  rcases Nat.eq_zero_or_pos w.toNat with h0 | h0
  · obtain rfl : w = 0#32 := BitVec.eq_of_toNat_eq h0
    rfl
  · rcases hle.lt_or_eq with hlt | heq
    · obtain ⟨hkey, hpack⟩ := unpack_of_pos h0 hlt
      obtain ⟨i, j, hrank⟩ : ∃ i j, bitsKey w.toNat = (1, i, j) := by
        unfold bitsKey
        split <;> exact ⟨_, _, rfl⟩
      rw [hrank] at hkey
      generalize unpack .binary32 w = u at hkey hpack
      cases u with
      | notANumber => cases hkey
      | zero s => cases hkey
      | infinity s => cases s <;> cases hkey
      | finite s m e hm => cases s with
        | negative => cases hkey
        | positive => exact (toNat_pack_negative hm).trans (congrArg (2 ^ 31 + BitVec.toNat ·) hpack)
    · obtain rfl : w = 0x7f800000#32 := BitVec.eq_of_toNat_eq heq
      rfl

/-- There is one NaN. -/
theorem eq_of_isNaN {x y : Float32} (hx : x.isNaN = true) (hy : y.isNaN = true) : x = y := by
  have hbits : ∀ {a : Float32}, a.isNaN = true → a.toBits.toNat = (packedNaN .binary32).toNat := by
    intro a ha
    have hunpack : unpack .binary32 a.toBits.toBitVec = .notANumber := eq_notANumber (isNaN_iff.1 ha)
    have hvalid : Format.binary32.Valid a.toBits.toBitVec := a.toModel.valid
    unfold unpack at hunpack
    dsimp only at hunpack
    split at hunpack
    · split at hunpack
      · cases hunpack
      · exact congrArg BitVec.toNat (hvalid.eq_packedNaN ‹_› ‹_›)
    · split at hunpack
      · split at hunpack <;> cases hunpack
      · cases hunpack
  exact eq_of_toBits ((hbits hx).trans (hbits hy).symm)

end AdaptiveFrame.Binary32
