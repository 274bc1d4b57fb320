import AdaptiveFrame.Proofs.Number.Quotients

/-!
# A number and what is added to it

Rounding never passes a number of single precision: what lies above one is not rounded below it (`round_up`), what
lies below is not rounded above (`round_down`). So adding a number without a sign never gives less than before
(`add_up`), taking it away never more (`sub_down`), and the sum is not below the difference (`not_add_lt_sub`).
-/

namespace AdaptiveFrame.Binary32

open Float.Model (Format UnpackedFloat totalExponent)
open Float.Model.UnpackedFloat

variable {u v : UnpackedFloat} {a b : Float32} {e f t : Int} {m n r : Nat} {s : Sign}

/-! ## Numbers as they are kept -/

/-- A mantissa and an exponent as single precision keeps them: 24 digits, or fewer with the least exponent. -/
structure Kept (m : Nat) (e : Int) : Prop where
  pos : 0 < m
  lt : m < 2 ^ 24
  low : -149 ≤ e
  full : 2 ^ 23 ≤ m ∨ e = -149

theorem targetExponent_eq (n : Nat) (e : Int) :
    Format.binary32.targetExponent (totalExponent n e) = max ((n.log2 : Int) + e - 23) (-149) := by
  show max ((n.log2 + 1 + e : Int) - 24) (-149) = _
  omega

theorem Kept.log2 (h : Kept m e) : m.log2 ≤ 23 ∧ (m.log2 = 23 ∨ e = -149) := by
  have hlt : m.log2 < 24 := (Nat.log2_lt h.pos.ne').2 h.lt
  refine ⟨by omega, h.full.imp_left fun hfull => ?_⟩
  have hle : 23 ≤ m.log2 := (Nat.le_log2 h.pos.ne').2 hfull
  omega

/-- A number that is kept has the exponent that rounding aims at. -/
theorem Kept.target (h : Kept m e) : Format.binary32.targetExponent (totalExponent m e) = e := by
  have hlog := h.log2
  have hlow := h.low
  rw [targetExponent_eq]
  omega

/-- Bits are read as a number that is kept. -/
theorem kept_of_unpack {w : BitVec Format.binary32.numBits} {hm : 0 < m}
    (h : unpack .binary32 w = .finite s m e hm) : Kept m e ∧ e ≤ 104 := by
  have hexp : (unpackExponent w).toNat < 2 ^ 8 := (unpackExponent w).isLt
  have hmant : (unpackMantissa w).toNat < 2 ^ 23 := (unpackMantissa w).isLt
  unfold unpack at h
  dsimp only at h
  split at h
  · split at h <;> cases h
  · rename_i hones
    have hmax : (unpackExponent w).toNat ≠ 255 := fun heq => hones (BitVec.eq_of_toNat_eq heq)
    split at h
    · rename_i hzero
      split at h
      · cases h
      · cases h
        rw [hzero]
        exact ⟨⟨hm, Nat.lt_trans hmant (by decide), by decide, .inr rfl⟩, by decide⟩
    · rename_i hzero
      have hmin : (unpackExponent w).toNat ≠ 0 := fun heq => hzero (BitVec.eq_of_toNat_eq heq)
      cases h
      have hone : (1#1 ++ unpackMantissa w).toNat = 2 ^ 23 + (unpackMantissa w).toNat := by
        rw [BitVec.toNat_append, ← Nat.shiftLeft_add_eq_or_of_lt hmant]
        rfl
      rw [hone]
      refine ⟨⟨by omega, by omega, ?_, .inl (by omega)⟩, ?_⟩
      · show (-149 : Int) ≤ (unpackExponent w).toNat - 150
        omega
      · show ((unpackExponent w).toNat - 150 : Int) ≤ 104
        omega

theorem unpackSign_packComponents (s : Sign) (x : BitVec 8) (y : BitVec 23) :
    Sign.ofBitVec (unpackSign (packComponents .binary32 s x y)) = s := by
  have hsign : unpackSign (packComponents .binary32 s x y) = s.toBitVec := by
    refine BitVec.eq_of_toNat_eq ?_
    rw [unpackSign, BitVec.toNat_cast, BitVec.extractLsb_toNat, packComponents, BitVec.toNat_append,
      BitVec.toNat_append, ← Nat.shiftLeft_add_eq_or_of_lt y.isLt, ← Nat.shiftLeft_add_eq_or_of_lt x.isLt,
      Nat.shiftRight_eq_div_pow, Nat.shiftLeft_eq, Nat.shiftLeft_eq]
    have hx := x.isLt
    have hy := y.isLt
    have hs := s.toBitVec.isLt
    show ((s.toBitVec.toNat * 2 ^ 8 + x.toNat) * 2 ^ 23 + y.toNat) / 2 ^ 31 % 2 = s.toBitVec.toNat
    omega
  rw [hsign]
  cases s <;> rfl

theorem unpack_components_normal {k : Nat} (h0 : 0 < k) (h : k < 255) (s : Sign) (hm : 2 ^ 23 ≤ m) (hm' : m < 2 ^ 24) :
    unpack .binary32 (packComponents .binary32 s (.ofNat 8 k) (.ofNat 23 m)) =
      .finite s m (k - 150) (Nat.lt_of_lt_of_le (by decide) hm) := by
  have hones : ¬ BitVec.ofNat 8 k = -1#8 := by
    rw [show -1#8 = BitVec.ofNat 8 255 from rfl, ofNat_eq_iff (by omega) (by decide)]
    omega
  have hzero : ¬ BitVec.ofNat 8 k = 0#8 := by
    rw [show 0#8 = BitVec.ofNat 8 0 from rfl, ofNat_eq_iff (by omega) (by decide)]
    omega
  have hmant : (1#1 ++ BitVec.ofNat 23 m).toNat = m := by
    rw [BitVec.toNat_append, ← Nat.shiftLeft_add_eq_or_of_lt (BitVec.ofNat 23 m).isLt, BitVec.toNat_ofNat (w := 23)]
    show 2 ^ 23 + m % 2 ^ 23 = m
    omega
  unfold unpack
  simp only [unpackSign_packComponents, unpackExponent_packComponents, unpackMantissa_packComponents]
  rw [if_neg hones, if_neg hzero]
  congr 1
  rw [toNat_ofNat_of_lt (by omega : k < 2 ^ 8)]
  rfl

theorem unpack_components_subnormal (s : Sign) (h : 0 < m) (hm : m < 2 ^ 23) :
    unpack .binary32 (packComponents .binary32 s 0#8 (.ofNat 23 m)) = .finite s m (-149) h := by
  have hmant : ¬ BitVec.ofNat 23 m = 0#23 := by
    rw [show 0#23 = BitVec.ofNat 23 0 from rfl, ofNat_eq_iff hm (by decide)]
    omega
  unfold unpack
  simp only [unpackSign_packComponents, unpackExponent_packComponents, unpackMantissa_packComponents]
  rw [if_neg (by decide), if_pos trivial, dif_neg hmant]
  congr 1
  exact toNat_ofNat_of_lt hm

/-- A number that is kept comes back from its bits, unless it is too large for them. -/
theorem Kept.unpack_pack (h : Kept m e) (s : Sign) : unpack .binary32 (pack .binary32 (.finite s m e h.pos)) =
    if e ≤ 104 then .finite s m e h.pos else .infinity s := by
  obtain ⟨hpos, hlt, hlow, hfull⟩ := h
  have hexp : (e + (Format.binary32.exponentBias : Nat) + (23 : Nat)).toNat = (e + 150).toNat := by
    show (e + 127 + 23).toNat = _
    omega
  have hlog := (Kept.mk hpos hlt hlow hfull).log2
  unfold pack
  dsimp only
  rw [hexp]
  by_cases hbig : e ≤ 104
  · rw [if_neg (by show ¬ 2 ^ 8 ≤ (e + 150).toNat + 1; omega), if_pos hbig]
    by_cases hnormal : m.log2 + 1 = Format.binary32.mantissaBits
    · have hle : 2 ^ 23 ≤ m := (Nat.le_log2 hpos.ne').1 (Nat.le_of_eq (Nat.succ.inj hnormal).symm)
      rw [if_pos hnormal, unpack_components_normal (by omega) (by omega) s hle hlt]
      congr 1
      omega
    · obtain rfl : e = -149 := hlog.2.resolve_left fun heq => hnormal (by rw [heq]; rfl)
      have hsmall : m < 2 ^ 23 :=
        (Nat.log2_lt hpos.ne').1 (Nat.lt_of_le_of_ne hlog.1 fun heq => hnormal (by rw [heq]; rfl))
      rw [if_neg hnormal]
      exact unpack_components_subnormal s hpos hsmall
  · rw [if_pos (by show 2 ^ 8 ≤ (e + 150).toNat + 1; omega), if_neg hbig]
    cases s <;> rfl

/-! ## Rounding -/

/-- What rounding to an exponent makes of a mantissa: one that has grown to 25 digits goes to the next exponent. -/
def carried (s : Sign) (r : Nat) (t : Int) : UnpackedFloat :=
  if h : r = 0 then .zero s
  else if r = 2 ^ 24 then .finite s (2 ^ 23) (t + 1) (by decide)
  else .finite s r t (Nat.pos_of_ne_zero h)

theorem roundWithAccuracy_eq (s : Sign) (n : Nat) (e : Int) {acc : Accuracy}
    (hr : (ExtendedMantissa.ofMantissaAndAccuracy n acc >>> (t - e).toNat).roundedMantissa = r) (hle : r ≤ 2 ^ 24)
    (ht : Format.binary32.targetExponent (totalExponent n e) = t) (het : e ≤ t) (hlow : -149 ≤ t) :
    roundWithAccuracy .binary32 s n e acc = carried s r t := by
  have hplace : e + ((t - e).toNat : Int) = t := by omega
  unfold roundWithAccuracy shiftToTargetExponent shiftToExponent
  dsimp only
  rw [ht, hr, hplace, targetExponent_eq]
  unfold carried
  rcases Nat.lt_or_eq_of_le hle with hlt | rfl
  · have hdone : (max ((r.log2 : Int) + t - 23) (-149) - t).toNat = 0 := by
      rcases Nat.eq_zero_or_pos r with rfl | hpos
      · rw [Nat.log2_zero]
        omega
      · have hlog : r.log2 < 24 := (Nat.log2_lt hpos.ne').2 hlt
        omega
    rw [hdone]
    show (if h : r = 0 then UnpackedFloat.zero s else .finite s r (t + (0 : Nat)) (Nat.pos_of_ne_zero h)) = _
    split
    · rfl
    · rw [if_neg (Nat.ne_of_lt hlt), Int.natCast_zero, Int.add_zero]
  · have hcarry : (max (((2 ^ 24 : Nat).log2 : Int) + t - 23) (-149) - t).toNat = 1 := by
      rw [Nat.log2_two_pow]
      omega
    rw [hcarry]
    rfl

/-- A mantissa is rounded to the exponent that suits it, to one of its two neighbors there. Digits are appended if it
has too few of them, and rounded away if too many. -/
theorem exists_rounded (s : Sign) (hn : 0 < n) (ht : max ((n.log2 : Int) + e - 23) (-149) = t) : ∃ r,
    UnpackedFloat.round .binary32 s n e = carried s r t ∧ r ≤ 2 ^ 24 ∧ (2 ^ 23 ≤ r ∨ t = -149) ∧
      (e ≤ t → ∀ m, (m * 2 ^ (t - e).toNat ≤ n → m ≤ r) ∧ (n ≤ m * 2 ^ (t - e).toNat → r ≤ m)) := by
  obtain ⟨d, hd⟩ : ∃ d, d = (e - t).toNat := ⟨_, rfl⟩
  obtain ⟨k, hk⟩ : ∃ k, k = (t - (e - d)).toNat := ⟨_, rfl⟩
  let em := ExtendedMantissa.mk (n * 2 ^ d) false false >>> k
  have hpos : n * 2 ^ d ≠ 0 := (Nat.mul_pos hn (Nat.two_pow_pos d)).ne'
  have hlog : (n * 2 ^ d).log2 = n.log2 + d := log2_mul_two_pow hn d
  have hquotient : em.mantissa = n * 2 ^ d / 2 ^ k := shiftRight_mantissa ⟨n * 2 ^ d, false, false⟩ k
  have hge := le_roundedMantissa em
  have hle := roundedMantissa_le em
  rw [hquotient] at hge hle
  have hbelow : n * 2 ^ d / 2 ^ k < 2 ^ 24 := by
    rw [Nat.div_lt_iff_lt_mul (Nat.two_pow_pos k), ← Nat.pow_add, ← Nat.log2_lt hpos, hlog]
    omega
  have hfull : 2 ^ 23 ≤ n * 2 ^ d / 2 ^ k ∨ t = -149 := by
    rw [Nat.le_div_iff_mul_le (Nat.two_pow_pos k), ← Nat.pow_add, ← Nat.le_log2 hpos, hlog]
    omega
  refine ⟨em.roundedMantissa, ?_, by omega, hfull.imp_left fun h => Nat.le_trans h hge, fun het m => ?_⟩
  · unfold UnpackedFloat.round decreaseExponent
    dsimp only
    rw [targetExponent_eq, ht, ← hd, Nat.shiftLeft_eq]
    refine roundWithAccuracy_eq s _ _ (by rw [← hk]; rfl) (by omega) ?_ (by omega) (by omega)
    rw [targetExponent_eq, hlog]
    omega
  · obtain rfl : d = 0 := by omega
    obtain rfl : k = (t - e).toNat := by omega
    rw [Nat.pow_zero, Nat.mul_one] at hge hle
    refine ⟨fun h => Nat.le_trans ((Nat.le_div_iff_mul_le (Nat.two_pow_pos _)).2 h) hge, fun h => ?_⟩
    rcases Nat.lt_or_eq_of_le h with hlt | heq
    · have hbelow := (Nat.div_lt_iff_lt_mul (Nat.two_pow_pos (t - e).toNat)).2 hlt
      omega
    · have hexact : em = ⟨m, false, false⟩ := by
        show ExtendedMantissa.mk (n * 2 ^ 0) false false >>> (t - e).toNat = _
        rw [Nat.pow_zero, Nat.mul_one, heq, shiftRight_exact]
      rw [hexact]
      rfl

theorem carried_cases (s : Sign) (hr : r ≤ 2 ^ 24) (hfull : 2 ^ 23 ≤ r ∨ t = -149) (ht : -149 ≤ t) :
    (r = 0 ∧ carried s r t = .zero s) ∨
    (r = 2 ^ 24 ∧ ∃ h : Kept (2 ^ 23) (t + 1), carried s r t = .finite s (2 ^ 23) (t + 1) h.pos) ∨
    (∃ h : Kept r t, carried s r t = .finite s r t h.pos) := by
  unfold carried
  by_cases h0 : r = 0
  · exact .inl ⟨h0, dif_pos h0⟩
  · rw [dif_neg h0]
    by_cases htop : r = 2 ^ 24
    · exact .inr (.inl ⟨htop, ⟨by decide, by decide, by omega, .inl (Nat.le_refl _)⟩, if_pos htop⟩)
    · exact .inr (.inr ⟨⟨Nat.pos_of_ne_zero h0, by omega, ht, hfull⟩, if_neg htop⟩)

theorem log2_le_log2 (hm : 0 < m) {k : Nat} (h : m * 2 ^ k ≤ n) : m.log2 + k ≤ n.log2 := by
  have hmono := Nat.log_mono_right (b := 2) h
  rw [← Nat.log2_eq_log_two, ← Nat.log2_eq_log_two, log2_mul_two_pow hm] at hmono
  exact hmono

/-- What is not below a number that is kept is not rounded below it. -/
theorem round_up (s : Sign) (h : Kept m f) (he : e ≤ f) (hn : m * 2 ^ (f - e).toNat ≤ n) :
    ∃ m' e', ∃ h' : Kept m' e', UnpackedFloat.round .binary32 s n e = .finite s m' e' h'.pos ∧
      (f < e' ∨ f = e' ∧ m ≤ m') := by
  have hpos : 0 < n := Nat.lt_of_lt_of_le (Nat.mul_pos h.pos (Nat.two_pow_pos _)) hn
  have hlog := log2_le_log2 h.pos hn
  have htarget := h.target
  rw [targetExponent_eq] at htarget
  obtain ⟨t, ht⟩ : ∃ t, max ((n.log2 : Int) + e - 23) (-149) = t := ⟨_, rfl⟩
  obtain ⟨r, hround, hle, hfull, hnear⟩ := exists_rounded s hpos ht
  have hft : f ≤ t := by omega
  have hm : f = t → m ≤ r := by
    rintro rfl
    exact (hnear he m).1 hn
  rcases carried_cases s hle hfull (by omega) with ⟨rfl, -⟩ | ⟨-, hkept, hcarry⟩ | ⟨hkept, hcarry⟩
  · have hzero := hm (by omega)
    have := h.pos
    omega
  · exact ⟨_, _, hkept, hround.trans hcarry, .inl (by omega)⟩
  · exact ⟨_, _, hkept, hround.trans hcarry, by omega⟩

/-- What is not above a number that is kept is not rounded above it. -/
theorem round_down (s : Sign) (h : Kept m f) (he : e ≤ f) (hpos : 0 < n) (hn : n ≤ m * 2 ^ (f - e).toNat) :
    UnpackedFloat.round .binary32 s n e = .zero s ∨
    ∃ m' e', ∃ h' : Kept m' e', UnpackedFloat.round .binary32 s n e = .finite s m' e' h'.pos ∧
      (e' < f ∨ e' = f ∧ m' ≤ m) := by
  have hlog : n.log2 ≤ m.log2 + (f - e).toNat := by
    rw [← log2_mul_two_pow h.pos]
    exact log2_le_log2 (k := 0) hpos (by rwa [Nat.pow_zero, Nat.mul_one])
  have htarget := h.target
  rw [targetExponent_eq] at htarget
  obtain ⟨t, ht⟩ : ∃ t, max ((n.log2 : Int) + e - 23) (-149) = t := ⟨_, rfl⟩
  obtain ⟨r, hround, hle, hfull, hnear⟩ := exists_rounded s hpos ht
  have htf : t ≤ f := by omega
  have hm : t = f → r ≤ m := by
    rintro rfl
    exact (hnear he m).2 hn
  have hmlt := h.lt
  have hmfull := h.full
  rcases carried_cases s hle hfull (by omega) with ⟨-, hcarry⟩ | ⟨rfl, hkept, hcarry⟩ | ⟨hkept, hcarry⟩
  · exact .inl (hround.trans hcarry)
  · refine .inr ⟨_, _, hkept, hround.trans hcarry, ?_⟩
    have hne : t ≠ f := fun heq => absurd (hm heq) (by omega)
    omega
  · exact .inr ⟨_, _, hkept, hround.trans hcarry, by omega⟩

/-! ## Sums -/

/-- A number after it was packed into bits. -/
def throughBits (u : UnpackedFloat) : UnpackedFloat := unpack .binary32 (pack .binary32 u)

/-- The first number is not below the second, or one of them does not compare. -/
def AtLeast (u v : UnpackedFloat) : Prop := ∀ k l, key u = some k → key v = some l → ¬ Below k l

theorem Kept.key_throughBits (h : Kept m e) (s : Sign) : key (throughBits (.finite s m e h.pos)) =
    if e ≤ 104 then key (.finite s m e h.pos) else key (.infinity s) := by
  rw [throughBits, h.unpack_pack]
  split <;> rfl

theorem Kept.key_positive (h : Kept m e) : key (throughBits (.finite .positive m e h.pos)) =
    some (if e ≤ 104 then (1, e, (m : Int)) else (2, 0, 0)) := by
  rw [h.key_throughBits]
  split <;> rfl

theorem Kept.key_negative (h : Kept m e) : key (throughBits (.finite .negative m e h.pos)) =
    some (if e ≤ 104 then (-1, -e, -(m : Int)) else (-2, 0, 0)) := by
  rw [h.key_throughBits]
  split <;> rfl

theorem key_throughBits_nan : key (throughBits .notANumber) = none := rfl

theorem key_throughBits_zero (s : Sign) : key (throughBits (.zero s)) = some (0, 0, 0) := by cases s <;> rfl

theorem unsigned_normalize_natCast (n : Nat) (e : Int) :
    Unsigned (throughBits (UnpackedFloat.normalize .binary32 n e .positive)) := by
  refine unsigned_repack ?_
  rcases Nat.eq_zero_or_pos n with rfl | hpos
  · exact trivial
  · exact unsigned_normalize hpos e

/-- A rounded sum is not below a number if the sum is not. -/
theorem normalize_up (s : Sign) (h : Kept m f) (hf : f ≤ 104) (he : e ≤ f) {i : Int}
    (hi : s.apply (m * 2 ^ (f - e).toNat : Nat) ≤ i) :
    AtLeast (throughBits (UnpackedFloat.normalize .binary32 i e .positive)) (.finite s m f h.pos) := by
  intro k l hk hl
  have hpos : 0 < m * 2 ^ (f - e).toNat := Nat.mul_pos h.pos (Nat.two_pow_pos _)
  cases s with
  | positive =>
    have hi : ((m * 2 ^ (f - e).toNat : Nat) : Int) ≤ i := hi
    obtain ⟨m', e', hkept, hround, hup⟩ := round_up .positive h he (n := i.toNat) (by omega)
    unfold UnpackedFloat.normalize at hk
    rw [Int.compare_eq_gt.2 (by omega)] at hk
    dsimp only at hk
    rw [hround, hkept.key_positive] at hk
    cases hl
    obtain rfl := Option.some.inj hk
    split <;> simp only [Below] <;> omega
  | negative =>
    have hi : -((m * 2 ^ (f - e).toNat : Nat) : Int) ≤ i := hi
    cases hl
    rcases Int.lt_or_le i 0 with hneg | hge
    · unfold UnpackedFloat.normalize at hk
      rw [Int.compare_eq_lt.2 hneg] at hk
      dsimp only at hk
      rcases round_down .negative h he (n := (-i).toNat) (by omega) (by omega) with
        hround | ⟨m', e', hkept, hround, hdown⟩
      · rw [hround, key_throughBits_zero] at hk
        cases hk
        simp [Below]
      · rw [hround, hkept.key_negative] at hk
        obtain rfl := Option.some.inj hk
        split <;> simp only [Below] <;> omega
    · obtain ⟨i, rfl⟩ := Int.eq_ofNat_of_zero_le hge
      obtain ⟨k', hk', hsign⟩ := (unsigned_iff _).1 (unsigned_normalize_natCast i e)
      obtain rfl := Option.some.inj (hk.symm.trans hk')
      simp only [Below] at hsign ⊢
      omega

theorem AtLeast.of_key_eq (h : key u = key v) : AtLeast u v := by
  intro k l hk hl
  obtain rfl := Option.some.inj (hk.symm.trans (h.trans hl))
  simp [Below]

/-- Infinity is not below anything. -/
theorem AtLeast.of_infinity (h : key u = some (2, 0, 0)) : AtLeast u v := by
  intro k l hk hl
  rw [h] at hk
  cases hk
  exact not_below_infinity hl

theorem key_throughBits_infinity (s : Sign) : key (throughBits (.infinity s)) = key (.infinity s) := by cases s <;> rfl

/-- A number as bits hold it. -/
def Held (u : UnpackedFloat) : Prop := ∀ s m e h, u = .finite s m e h → Kept m e ∧ e ≤ 104

theorem Held.neg (hu : Held u) : Held u.neg := by
  cases u with
  | finite s m e h =>
    rintro _ _ _ _ ⟨⟩
    exact hu _ _ _ _ rfl
  | _ => exact fun _ _ _ _ h => by cases h

/-- Adding a number without a sign does not give less. -/
theorem add_up (hu : Held u) (hv : Held v) (hsign : Unsigned v) :
    AtLeast (throughBits (UnpackedFloat.add .binary32 u v)) u := by
  cases v with
  | notANumber => exact hsign.elim
  | infinity t => cases t with
    | negative => exact hsign.elim
    | positive => cases u with
      | notANumber => exact fun _ _ _ hl => by cases hl
      | infinity s => cases s with
        | negative => exact fun _ _ hk _ => by cases hk
        | positive => exact .of_infinity rfl
      | _ => exact .of_infinity (key_throughBits_infinity .positive)
  | zero t => cases u with
    | notANumber => exact fun _ _ _ hl => by cases hl
    | infinity s => exact .of_key_eq (key_throughBits_infinity s)
    | zero s => exact .of_key_eq (by cases s <;> cases t <;> rfl)
    | finite s m e h =>
      obtain ⟨hkept, hsmall⟩ := hu _ _ _ _ rfl
      exact .of_key_eq ((hkept.key_throughBits s).trans (if_pos hsmall))
  | finite t m' e' h' => cases t with
    | negative => exact hsign.elim
    | positive => cases u with
      | notANumber => exact fun _ _ _ hl => by cases hl
      | infinity s => exact .of_key_eq (key_throughBits_infinity s)
      | zero s =>
        intro k l hk hl
        obtain ⟨hkept, hsmall⟩ := hv _ _ _ _ rfl
        have hk : key (throughBits (.finite .positive m' e' h')) = some k := hk
        rw [hkept.key_positive, if_pos hsmall] at hk
        cases hk
        cases hl
        simp [Below]
      | finite s m e h =>
        obtain ⟨hkept, hsmall⟩ := hu _ _ _ _ rfl
        refine normalize_up s hkept hsmall (Int.min_le_left e e') ?_
        rw [Nat.shiftLeft_eq, Nat.shiftLeft_eq]
        show s.apply _ ≤ s.apply _ + ((m' * 2 ^ (e' - min e e').toNat : Nat) : Int)
        omega

/-! ## Differences -/

/-- What the number with the other sign compares by. -/
def mirrored (k : Int × Int × Int) : Int × Int × Int := (-k.1, -k.2.1, -k.2.2)

theorem key_neg (u : UnpackedFloat) : key u.neg = (key u).map mirrored := by
  cases u with
  | notANumber => rfl
  | infinity s => cases s <;> rfl
  | zero s => rfl
  | finite s m e h => cases s with
    | positive => rfl
    | negative => simp [UnpackedFloat.neg, key, mirrored]

/-- The sign has a bit of its own. -/
theorem unpack_packComponents_neg (s : Sign) (x : BitVec 8) (y : BitVec 23) :
    unpack .binary32 (packComponents .binary32 (-s) x y) = (unpack .binary32 (packComponents .binary32 s x y)).neg := by
  unfold unpack
  simp only [unpackSign_packComponents, unpackExponent_packComponents, unpackMantissa_packComponents]
  split
  · split <;> rfl
  · split
    · split <;> rfl
    · rfl

theorem throughBits_neg (u : UnpackedFloat) : throughBits u.neg = (throughBits u).neg := by
  cases u with
  | notANumber => rfl
  | infinity s => exact unpack_packComponents_neg s _ _
  | zero s => exact unpack_packComponents_neg s _ _
  | finite s m e h =>
    unfold throughBits UnpackedFloat.neg pack
    dsimp only
    split
    · exact unpack_packComponents_neg s _ _
    · split <;> exact unpack_packComponents_neg s _ _

theorem round_neg (s : Sign) (n : Nat) (e : Int) :
    UnpackedFloat.round .binary32 (-s) n e = (UnpackedFloat.round .binary32 s n e).neg := by
  unfold UnpackedFloat.round roundWithAccuracy
  dsimp only
  split <;> rfl

/-- The same number, or two zeros. -/
def Alike (u v : UnpackedFloat) : Prop := u = v ∨ ∃ s t, u = .zero s ∧ v = .zero t

theorem Alike.key_eq (h : Alike u v) : key (throughBits u) = key (throughBits v) := by
  obtain rfl | ⟨s, t, rfl, rfl⟩ := h
  · rfl
  · rw [key_throughBits_zero, key_throughBits_zero]

theorem normalize_neg (i e : Int) : Alike (UnpackedFloat.normalize .binary32 (-i) e .positive)
    (UnpackedFloat.normalize .binary32 i e .positive).neg := by
  unfold UnpackedFloat.normalize
  rcases Int.lt_trichotomy i 0 with hneg | rfl | hpos
  · rw [Int.compare_eq_lt.2 hneg, Int.compare_eq_gt.2 (by omega)]
    exact .inl (round_neg .negative _ e)
  · exact .inr ⟨_, _, rfl, rfl⟩
  · rw [Int.compare_eq_gt.2 hpos, Int.compare_eq_lt.2 (by omega), Int.neg_neg]
    exact .inl (round_neg .positive _ e)

theorem apply_neg (s : Sign) (i : Int) : (-s).apply i = -s.apply i := by
  cases s with
  | positive => rfl
  | negative => exact (Int.neg_neg i).symm

/-- A difference is a sum with the other sign. -/
theorem sub_alike (u v : UnpackedFloat) :
    Alike (UnpackedFloat.sub .binary32 u v) (UnpackedFloat.add .binary32 u.neg v).neg := by
  cases u with
  | notANumber => cases v <;> exact .inl rfl
  | infinity s => cases v with
    | infinity t => cases s <;> cases t <;> exact .inl rfl
    | notANumber => exact .inl rfl
    | _ => cases s <;> exact .inl rfl
  | zero s => cases v with
    | zero t => cases s <;> cases t <;> exact .inr ⟨_, _, rfl, rfl⟩
    | _ => exact .inl rfl
  | finite s m e h => cases v with
    | zero t => cases s <;> exact .inl rfl
    | finite t m' e' h' =>
      have hneg := normalize_neg ((-s).apply (m <<< (e - min e e').toNat : Nat) +
        t.apply (m' <<< (e' - min e e').toNat : Nat)) (min e e')
      rw [apply_neg, Int.neg_add, Int.neg_neg, ← Int.sub_eq_add_neg, ← apply_neg] at hneg
      exact hneg
    | _ => exact .inl rfl

/-- Taking away a number without a sign does not give more. -/
theorem sub_down (hu : Held u) (hv : Held v) (hsign : Unsigned v) :
    AtLeast u (throughBits (UnpackedFloat.sub .binary32 u v)) := by
  intro k l hk hl
  rw [(sub_alike u v).key_eq, throughBits_neg, key_neg, Option.map_eq_some_iff] at hl
  obtain ⟨l', hl', rfl⟩ := hl
  have hneg : key u.neg = some (mirrored k) := by rw [key_neg, hk, Option.map_some]
  have hup := add_up hu.neg hv hsign _ _ hl' hneg
  simp only [Below, mirrored] at hup ⊢
  omega

/-! ## Single precision -/

theorem held_unpack (a : Float32) : Held a.toModel.unpack := fun _ _ _ _ h => kept_of_unpack h

theorem eq_notANumber (h : key u = none) : u = .notANumber := by
  cases u with
  | notANumber => rfl
  | infinity s => cases s <;> cases h
  | zero s => cases h
  | finite s m e hm => cases s <;> cases h

theorem keyOf_add_of_none (b : Float32) (ha : keyOf a = none) : keyOf (a + b) = none := by
  have hsum : keyOf (a + b) = key (throughBits (UnpackedFloat.add .binary32 a.toModel.unpack b.toModel.unpack)) := rfl
  rw [hsum, eq_notANumber ha]
  cases b.toModel.unpack <;> exact key_throughBits_nan

theorem keyOf_sub_of_none (a : Float32) (hb : keyOf b = none) : keyOf (a - b) = none := by
  have hsub : keyOf (a - b) = key (throughBits (UnpackedFloat.sub .binary32 a.toModel.unpack b.toModel.unpack)) := rfl
  rw [hsub, eq_notANumber hb]
  cases a.toModel.unpack <;> exact key_throughBits_nan

/-- The sum with a number that has no sign is not below the difference. -/
theorem not_add_lt_sub (hb : 0 ≤ b ∨ b.isNaN = true) : ¬ a + b < a - b := by
  intro hlt
  obtain ⟨k, l, hk, hl, hbelow⟩ := lt_iff.1 hlt
  rcases hb with hb | hnan
  · cases ha : keyOf a with
    | none =>
      rw [keyOf_add_of_none b ha] at hk
      cases hk
    | some x =>
      have hup := add_up (held_unpack a) (held_unpack b) (nonneg_iff.1 hb) k x hk ha
      have hdown := sub_down (held_unpack a) (held_unpack b) (nonneg_iff.1 hb) x l ha hl
      simp only [Below] at hbelow hup hdown
      omega
  · rw [keyOf_sub_of_none a (isNaN_iff.1 hnan)] at hl
    cases hl

/-- A square root has no sign, if it is a number. -/
theorem sqrt_nonneg (a : Float32) : 0 ≤ a.sqrt ∨ a.sqrt.isNaN = true := by
  have hsqrt : a.sqrt.toModel.unpack = throughBits (UnpackedFloat.sqrt .binary32 a.toModel.unpack) := rfl
  rw [nonneg_iff, isNaN_iff, keyOf, hsqrt]
  cases a.toModel.unpack with
  | notANumber => exact .inr rfl
  | infinity s => cases s with
    | positive => exact .inl trivial
    | negative => exact .inr rfl
  | zero s => exact .inl (unsigned_repack trivial)
  | finite s m e h => cases s with
    | positive => exact .inl (unsigned_repack (unsigned_round ..))
    | negative => exact .inr key_throughBits_nan

end AdaptiveFrame.Binary32
