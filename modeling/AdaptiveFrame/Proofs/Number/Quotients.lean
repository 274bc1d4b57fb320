import AdaptiveFrame.Proofs.Number.Sums

/-!
# Quotients of counts

Counts up to 2^24 are numbers of single precision, none of them rounded (`unpack_ofNat`). A quotient of two of them is
rounded, but never across a power of two, so it is one only if the counts are equal (`div_ofNat_eq_one_iff`).
-/

namespace AdaptiveFrame.Binary32

open Float.Model (Format UnpackedFloat totalExponent)
open Float.Model.UnpackedFloat

variable {e f : Int} {m n q s a : Nat} {acc : Accuracy}

/-! ## Normal numbers -/

/-- A mantissa of 24 digits. -/
def Full (m : Nat) : Prop := 2 ^ 23 ≤ m ∧ m < 2 ^ 24

theorem Full.pos (h : Full m) : 0 < m := Nat.lt_of_lt_of_le (by decide) h.1

theorem Full.log2 (h : Full m) : m.log2 = 23 := (Nat.log2_eq_iff h.pos.ne').2 h

theorem unpack_pack_normal (h : Full m) (he : -149 ≤ e) (he' : e ≤ 104) :
    unpack .binary32 (pack .binary32 (.finite .positive m e h.pos)) = .finite .positive m e h.pos := by
  obtain ⟨k, rfl⟩ := Nat.exists_eq_add_of_le h.1
  obtain ⟨w, rfl⟩ : ∃ w : Nat, e = w - 150 := ⟨(e + 150).toNat, by omega⟩
  have hk : k < 2 ^ 23 := by
    have := h.2
    omega
  rw [pack_normal (by omega) (by omega) hk, unpack_normal (by omega) (by omega) hk]

/-! ## Rounding to a full mantissa -/

theorem shiftRight_exact (m s : Nat) :
    (⟨m * 2 ^ s, false, false⟩ : ExtendedMantissa) >>> s = ⟨m, false, false⟩ := by
  induction s generalizing m with
  | zero =>
    rw [Nat.pow_zero, Nat.mul_one]
    rfl
  | succ s ih =>
    show ((⟨m * 2 ^ (s + 1), false, false⟩ : ExtendedMantissa) >>> s).shiftRightOne = _
    rw [Nat.pow_succ', ← Nat.mul_assoc, ih]
    simp [ExtendedMantissa.shiftRightOne]

theorem targetExponent_of_log2 (hm : m.log2 = 23 + s) (he : -149 ≤ e + s) :
    Format.binary32.targetExponent (totalExponent m e) = e + s := by
  show max ((m.log2 + 1 + e : Int) - 24) (-149) = _
  omega

/-- A number of at least 24 digits that is rounded to 24 of them. -/
theorem round_full {r : Nat} (hq : q.log2 = 23 + s) (he : -149 ≤ e + s) (hr : Full r)
    (h : (ExtendedMantissa.ofMantissaAndAccuracy q acc >>> s).roundedMantissa = r) :
    roundWithAccuracy .binary32 .positive q e acc = .finite .positive r (e + s) hr.pos := by
  have hshift : (e + s - e).toNat = s := by omega
  have hdone : Format.binary32.targetExponent (totalExponent r (e + s)) = e + s :=
    (targetExponent_of_log2 (s := 0) hr.log2 (by simpa using he)).trans (by simp)
  unfold roundWithAccuracy shiftToTargetExponent shiftToExponent
  rw [targetExponent_of_log2 hq he]
  dsimp only
  rw [hshift, h, hdone, Int.sub_self, Int.toNat_zero, Int.natCast_zero, Int.add_zero]
  exact dif_neg hr.pos.ne'

/-- What has 24 digits already is only shifted. -/
theorem round_exact (hm : Full m) (he : -149 ≤ e + s) :
    roundWithAccuracy .binary32 .positive (m * 2 ^ s) e .exact = .finite .positive m (e + s) hm.pos := by
  refine round_full ?_ he hm ?_
  · rw [log2_mul_two_pow hm.pos, hm.log2]
  · show (ExtendedMantissa.mk (m * 2 ^ s) false false >>> s).roundedMantissa = m
    rw [shiftRight_exact]
    rfl

/-! ## Counts -/

/-- A number with a full mantissa that has the value of a count. -/
def Counts (n : Nat) (u : UnpackedFloat) : Prop :=
  ∃ m e, ∃ h : Full m, u = .finite .positive m e h.pos ∧ -23 ≤ e ∧ e ≤ 1 ∧ m * 2 ^ (e + 23).toNat = n * 2 ^ 23

theorem Counts.repack {u : UnpackedFloat} (h : Counts n u) : unpack .binary32 (pack .binary32 u) = u := by
  obtain ⟨m, e, hm, rfl, hlo, hhi, -⟩ := h
  exact unpack_pack_normal hm (by omega) (by omega)

/-- A count of less than 24 digits is moved up to the full mantissa. -/
theorem counts_normalize (hn : 0 < n) (h : n < 2 ^ 23) :
    Counts n (UnpackedFloat.normalize .binary32 n 0 .positive) := by
  have hlog : n.log2 < 23 := (Nat.log2_lt hn.ne').2 h
  obtain ⟨hlo, hhi⟩ := (Nat.log2_eq_iff hn.ne').1 rfl
  obtain ⟨s, hs⟩ := Nat.exists_eq_add_of_lt hlog
  have hfull : Full (n * 2 ^ (s + 1)) := by
    have hpow : 2 ^ n.log2 * 2 ^ (s + 1) = 2 ^ 23 := by rw [← Nat.pow_add, hs, Nat.add_assoc]
    have hpow' : 2 ^ (n.log2 + 1) * 2 ^ (s + 1) = 2 ^ 24 := by
      rw [Nat.pow_succ, Nat.mul_right_comm, hpow]
      rfl
    exact ⟨hpow ▸ Nat.mul_le_mul_right _ hlo, hpow' ▸ Nat.mul_lt_mul_of_pos_right hhi (Nat.two_pow_pos _)⟩
  have htarget : Format.binary32.targetExponent (totalExponent n 0) = -(s + 1 : Nat) := by
    show max ((n.log2 + 1 + 0 : Int) - 24) (-149) = _
    omega
  have hround : UnpackedFloat.normalize .binary32 n 0 .positive =
      .finite .positive (n * 2 ^ (s + 1)) (-(s + 1 : Nat)) hfull.pos := by
    unfold UnpackedFloat.normalize
    rw [Int.compare_eq_gt.2 (by omega : (0 : Int) < n)]
    show UnpackedFloat.round .binary32 .positive n 0 = _
    unfold UnpackedFloat.round decreaseExponent
    have hamount : (0 - -((s + 1 : Nat) : Int)).toNat = s + 1 := by omega
    rw [htarget]
    dsimp only
    rw [hamount, Nat.shiftLeft_eq]
    have hexact := round_exact (e := 0 - (s + 1 : Nat)) (s := 0) hfull (by omega)
    rw [Nat.pow_zero, Nat.mul_one] at hexact
    rw [hexact]
    congr 1
  refine ⟨_, _, hfull, hround, by omega, by omega, ?_⟩
  have hexp : (-((s + 1 : Nat) : Int) + 23).toNat = n.log2 := by omega
  rw [hexp, Nat.mul_assoc, ← Nat.pow_add]
  congr 2
  omega

theorem counts_mul_one {u : UnpackedFloat} (h : Counts n u) :
    Counts n (UnpackedFloat.mul .binary32 u (.finite .positive (2 ^ 23) (-23) (by decide))) := by
  obtain ⟨m, e, hm, rfl, hlo, hhi, hvalue⟩ := h
  have hexact := round_exact (e := e + -23) (s := 23) hm (by omega)
  have hexp : e + -23 + (23 : Nat) = e := by omega
  rw [hexp] at hexact
  exact ⟨m, e, hm, hexact, hlo, hhi, hvalue⟩

theorem counts_large (h : 2 ^ 23 ≤ n) (h' : n ≤ 2 ^ 24) :
    Counts n (roundWithAccuracy .binary32 .positive (n * 2 ^ 24) (-24) .exact) := by
  rcases h'.lt_or_eq with hlt | rfl
  · exact ⟨n, 0, ⟨h, hlt⟩, round_exact (e := -24) (s := 24) ⟨h, hlt⟩ (by decide), by decide, by decide, rfl⟩
  · have hhalf : 2 ^ 24 * 2 ^ 24 = 2 ^ 23 * 2 ^ 25 := rfl
    have hfull : Full (2 ^ 23) := ⟨Nat.le_refl _, by decide⟩
    rw [hhalf]
    exact ⟨2 ^ 23, 1, hfull, round_exact hfull (by decide), by decide, by decide, rfl⟩

/-- Counts up to 2^24 are not rounded. Small ones are converted and scaled by one. -/
theorem unpack_ofNat (hn : 0 < n) (h : n ≤ 2 ^ 24) : Counts n (Float32.ofNat n).toModel.unpack := by
  show Counts n (Float32.ofScientific n false 0).toModel.unpack
  unfold Float32.ofScientific
  by_cases hsmall : n < 2 ^ 23
  · have hword : n.toUInt64.toNat = n := Nat.mod_eq_of_lt (by omega)
    have hone : (Float32.ofBits 0x3f800000).toModel.unpack = .finite .positive (2 ^ 23) (-23) (by decide) := rfl
    have hscaled : ∀ k, k = n → Counts n (unpack .binary32 (pack .binary32 (UnpackedFloat.mul .binary32
        (unpack .binary32 (pack .binary32 (UnpackedFloat.normalize .binary32 k 0 .positive)))
        (Float32.ofBits 0x3f800000).toModel.unpack))) := by
      rintro k rfl
      have hcount := counts_normalize hn hsmall
      have hproduct := counts_mul_one hcount
      rw [hone, hcount.repack, hproduct.repack]
      exact hproduct
    rw [dif_pos ⟨hsmall, by decide⟩]
    exact hscaled _ hword
  · have hlarge := counts_large (Nat.le_of_not_lt hsmall) h
    rw [dif_neg (by simp; omega)]
    show Counts n (unpack .binary32 (pack .binary32 (UnpackedFloat.ofScientific .binary32 n 0)))
    rw [ofScientific_zero hn, hlarge.repack]
    exact hlarge

/-! ## Quotients -/

theorem le_roundedMantissa (em : ExtendedMantissa) : em.mantissa ≤ em.roundedMantissa := by
  obtain ⟨m, r, s⟩ := em
  show m ≤ Accuracy.roundToNearestEven m _
  cases r <;> cases s <;> simp [ExtendedMantissa.accuracy, Accuracy.roundToNearestEven]

theorem divCore_full (hm : Full m) (hn : Full n) (h : -125 ≤ e - f) : divCore .binary32 m e n f =
    (m * 2 ^ 24 / n, e - f - 24, accuracyOfFraction (m * 2 ^ 24 % n) n) := by
  have htarget : min (e - f) (Format.binary32.targetExponent (totalExponent m e - totalExponent n f)) = e - f - 24 := by
    show min (e - f) (max ((m.log2 + 1 + e : Int) - (n.log2 + 1 + f) - 24) (-149)) = _
    rw [hm.log2, hn.log2]
    omega
  have hshift : (e - f - (e - f - 24)).toNat = 24 := by omega
  unfold divCore
  rw [htarget]
  dsimp only
  rw [hshift, Nat.shiftLeft_eq]

/-- The quotient of a mantissa by a larger one has 24 digits, and is rounded to as many. -/
theorem round_div_of_lt (hm : Full m) (hn : Full n) (h : m < n) (he : -149 ≤ e) : ∃ r, ∃ hr : Full r,
    roundWithAccuracy .binary32 .positive (m * 2 ^ 24 / n) e acc = .finite .positive r e hr.pos := by
  have hlo : 2 ^ 23 ≤ m * 2 ^ 24 / n := (Nat.le_div_iff_mul_le hn.pos).2 (by
    have := hm.1
    have := hn.2
    omega)
  have hhi : m * 2 ^ 24 / n < 2 ^ 24 - 1 := (Nat.div_lt_iff_lt_mul hn.pos).2 (by
    have := hn.2
    omega)
  generalize m * 2 ^ 24 / n = q at hlo hhi
  have hq : Full q := ⟨hlo, by omega⟩
  have hle := le_roundedMantissa (.ofMantissaAndAccuracy q acc)
  have hge := roundedMantissa_le (.ofMantissaAndAccuracy q acc)
  rw [mantissa_ofMantissaAndAccuracy] at hle hge
  have hr : Full (ExtendedMantissa.ofMantissaAndAccuracy q acc).roundedMantissa := ⟨by omega, by omega⟩
  refine ⟨_, hr, ?_⟩
  rw [round_full (s := 0) hq.log2 (by omega) hr rfl]
  congr 1
  omega

/-- The quotient of a mantissa by one that is not larger has 25 digits, and is rounded to 24 of them. The largest one
is not rounded, so none of them is rounded up to the next power of two. -/
theorem round_div_of_le (hm : Full m) (hn : Full n) (h : n ≤ m) (he : -150 ≤ e) : ∃ r, ∃ hr : Full r,
    roundWithAccuracy .binary32 .positive (m * 2 ^ 24 / n) e (accuracyOfFraction (m * 2 ^ 24 % n) n) =
      .finite .positive r (e + (1 : Nat)) hr.pos := by
  have hlo : 2 ^ 24 ≤ m * 2 ^ 24 / n := (Nat.le_div_iff_mul_le hn.pos).2 (by omega)
  have hhi : m * 2 ^ 24 / n < 2 ^ 25 := (Nat.div_lt_iff_lt_mul hn.pos).2 (by
    have := hm.2
    have := hn.1
    omega)
  have hlog : (m * 2 ^ 24 / n).log2 = 23 + 1 := (Nat.log2_eq_iff (by omega)).2 ⟨hlo, hhi⟩
  let em := ExtendedMantissa.ofMantissaAndAccuracy (m * 2 ^ 24 / n) (accuracyOfFraction (m * 2 ^ 24 % n) n) >>> 1
  have hr : Full em.roundedMantissa := by
    have hmantissa : em.mantissa = m * 2 ^ 24 / n / 2 := by
      rw [shiftRight_mantissa, mantissa_ofMantissaAndAccuracy, Nat.pow_one]
    have hle := le_roundedMantissa em
    have hge := roundedMantissa_le em
    rw [hmantissa] at hle hge
    refine ⟨by omega, ?_⟩
    rcases Nat.lt_or_ge (m * 2 ^ 24 / n) (2 ^ 25 - 2) with hsmall | hlarge
    · omega
    · have hmul := (Nat.le_div_iff_mul_le hn.pos).1 hlarge
      have hmmax : m = 2 ^ 24 - 1 := by
        have := hm.2
        have := hn.1
        omega
      have hnmin : n = 2 ^ 23 := by
        have := hn.1
        omega
      have hmax : em.roundedMantissa = 2 ^ 24 - 1 := by
        simp only [em, hmmax, hnmin]
        rfl
      omega
  exact ⟨_, hr, round_full hlog (by omega) hr rfl⟩

/-- The exponent of a quotient tells which mantissa is larger. -/
theorem div_full (hm : Full m) (hn : Full n) (h : -125 ≤ e - f) : ∃ r, ∃ hr : Full r,
    UnpackedFloat.div .binary32 (.finite .positive m e hm.pos) (.finite .positive n f hn.pos) =
      .finite .positive r (if n ≤ m then e - f - 23 else e - f - 24) hr.pos := by
  show ∃ r, ∃ hr : Full r, roundWithAccuracy .binary32 .positive (divCore .binary32 m e n f).1
    (divCore .binary32 m e n f).2.1 (divCore .binary32 m e n f).2.2 = _
  rw [divCore_full hm hn h]
  by_cases hle : n ≤ m
  · obtain ⟨r, hr, heq⟩ := round_div_of_le (e := e - f - 24) hm hn hle (by omega)
    rw [if_pos hle]
    refine ⟨r, hr, heq.trans ?_⟩
    congr 1
    omega
  · rw [if_neg hle]
    exact round_div_of_lt hm hn (Nat.lt_of_not_le hle) (show -149 ≤ e - f - 24 by omega)

theorem div_self_full (hm : Full m) :
    UnpackedFloat.div .binary32 (.finite .positive m e hm.pos) (.finite .positive m e hm.pos) =
      .finite .positive (2 ^ 23) (-23) (by decide) := by
  have hfull : Full (2 ^ 23) := ⟨Nat.le_refl _, by decide⟩
  have hquot : m * 2 ^ 24 / m = 2 ^ 23 * 2 ^ 1 := by
    rw [Nat.mul_div_cancel_left _ hm.pos]
    rfl
  show roundWithAccuracy .binary32 .positive (divCore .binary32 m e m e).1
    (divCore .binary32 m e m e).2.1 (divCore .binary32 m e m e).2.2 = _
  rw [divCore_full hm hm (by omega), Int.sub_self]
  dsimp only
  rw [hquot, Nat.mul_mod_right]
  exact round_exact hfull (by decide)

/-- Full mantissas of one exponent, or of neighboring ones, order the counts that they stand for. -/
theorem le_of_counts {k : Nat} (hk : Full k) (hm : Full m) (hf : -23 ≤ f) (ha : k * 2 ^ (e + 23).toNat = a * 2 ^ 23)
    (hn : m * 2 ^ (f + 23).toNat = n * 2 ^ 23) (h : m ≤ k ∧ e = f ∨ e = f + 1) : n ≤ a := by
  refine Nat.le_of_mul_le_mul_right (c := 2 ^ 23) ?_ (by decide)
  rw [← ha, ← hn]
  rcases h with ⟨hle, rfl⟩ | rfl
  · exact Nat.mul_le_mul_right _ hle
  · have hexp : (f + 1 + 23).toNat = (f + 23).toNat + 1 := by omega
    have hdouble : m ≤ k * 2 := by
      have := hk.1
      have := hm.2
      omega
    rw [hexp, Nat.pow_succ', ← Nat.mul_assoc]
    exact Nat.mul_le_mul_right _ hdouble

/-- The quotient of a count by one that is not smaller is one only if the counts are equal. -/
theorem div_ofNat_eq_one_iff (hn : 0 < n) (h : n ≤ 2 ^ 24) (ha : a ≤ n) :
    Float32.ofNat a / Float32.ofNat n = 1 ↔ a = n := by
  have hdiv : Float32.ofNat a / Float32.ofNat n = .ofModel (.pack
    (UnpackedFloat.div .binary32 (Float32.ofNat a).toModel.unpack (Float32.ofNat n).toModel.unpack)) := rfl
  obtain ⟨m, f, hm, hden, hflo, hfhi, hfvalue⟩ := unpack_ofNat hn h
  rw [hdiv, hden]
  constructor
  · intro heq
    have hone : (1 : Float32).toModel.unpack = .finite .positive (2 ^ 23) (-23) (by decide) := rfl
    have hunpack := congrArg (fun x : Float32 => x.toModel.unpack) heq
    rcases Nat.eq_zero_or_pos a with rfl | hpos
    · have hzero : (Float32.ofNat 0).toModel.unpack = .zero .positive := rfl
      have hquot : UnpackedFloat.div .binary32 (.zero .positive) (.finite .positive m f hm.pos) = .zero .positive := rfl
      rw [hzero, hquot] at heq
      exact absurd (congrArg keyOf heq) (by decide)
    · obtain ⟨k, e, hk, hnum, helo, hehi, hevalue⟩ := unpack_ofNat hpos (ha.trans h)
      obtain ⟨r, hr, hquot⟩ := div_full (e := e) (f := f) hk hm (by omega)
      rw [hnum, hquot] at hunpack
      have hpacked := (unpack_pack_normal hr (by split <;> omega) (by split <;> omega)).symm.trans (hunpack.trans hone)
      injection hpacked with _ _ hexp
      refine Nat.le_antisymm ha (le_of_counts hk hm hflo hevalue hfvalue ?_)
      split at hexp
      · exact .inl ⟨by assumption, by omega⟩
      · exact .inr (by omega)
  · rintro rfl
    rw [hden, div_self_full hm]
    rfl

end AdaptiveFrame.Binary32
