import AdaptiveFrame.Number.Binary32
import Mathlib

/-!
# The order of single-precision numbers

Two numbers compare by sign and size (`key`); a NaN compares with nothing. What a positive finite number
compares by is read off its bits (`bitsKey`), and `maxNum` is above whatever one of its arguments is above.
-/

namespace AdaptiveFrame.Binary32

open Float.Model (Format UnpackedFloat)
open Float.Model.UnpackedFloat

/-- What a number compares by: its rank, then its exponent, then its mantissa. A NaN has nothing. -/
def key : UnpackedFloat → Option (Int × Int × Int)
  | .notANumber => none
  | .infinity .positive => some (2, 0, 0)
  | .infinity .negative => some (-2, 0, 0)
  | .zero _ => some (0, 0, 0)
  | .finite .positive m e _ => some (1, e, m)
  | .finite .negative m e _ => some (-1, -e, -m)

/-- The lexicographic order of keys. -/
def Below (k l : Int × Int × Int) : Prop :=
  k.1 < l.1 ∨ k.1 = l.1 ∧ (k.2.1 < l.2.1 ∨ k.2.1 = l.2.1 ∧ k.2.2 < l.2.2)

theorem compare_then_eq_lt {e e' : Int} {m m' : Nat} :
    (compare e e').then (compare m m') = .lt ↔ e < e' ∨ e = e' ∧ m < m' := by
  rw [Ordering.then_eq_lt, Int.compare_eq_lt, Int.compare_eq_eq, Nat.compare_eq_lt]

theorem compare_then_eq_gt {e e' : Int} {m m' : Nat} :
    (compare e e').then (compare m m') = .gt ↔ e' < e ∨ e = e' ∧ m' < m := by
  rw [Ordering.then_eq_gt, Int.compare_eq_gt, Int.compare_eq_eq, Nat.compare_eq_gt]

theorem compare_eq_lt_iff (a b : UnpackedFloat) :
    a.compare b = some .lt ↔ ∃ k l, key a = some k ∧ key b = some l ∧ Below k l := by
  cases a with
  | notANumber => simp [key, UnpackedFloat.compare]
  | infinity s => cases s <;> cases b with
    | finite t m e h => cases t <;> simp [key, UnpackedFloat.compare, Below]
    | infinity t => cases t <;> simp [key, UnpackedFloat.compare, Below] <;> decide
    | _ => simp [key, UnpackedFloat.compare, Below]
  | zero s => cases b with
    | finite t m e h => cases t <;> simp [key, UnpackedFloat.compare, Below]
    | infinity t => cases t <;> simp [key, UnpackedFloat.compare, Below]
    | _ => simp [key, UnpackedFloat.compare, Below]
  | finite s m e h => cases s <;> cases b with
    | finite t m' e' h' =>
      cases t <;> simp [key, UnpackedFloat.compare, Below, compare_then_eq_lt, compare_then_eq_gt]
    | infinity t => cases t <;> simp [key, UnpackedFloat.compare, Below]
    | _ => simp [key, UnpackedFloat.compare, Below]

theorem compare_swap (a b : UnpackedFloat) : b.compare a = (a.compare b).map Ordering.swap := by
  cases a with
  | notANumber => cases b <;> simp [UnpackedFloat.compare]
  | infinity s => cases s <;> cases b with
    | finite t m e h => cases t <;> rfl
    | infinity t => cases t <;> rfl
    | _ => rfl
  | zero s => cases b with
    | finite t m e h => cases t <;> rfl
    | infinity t => cases t <;> rfl
    | _ => rfl
  | finite s m e h => cases s <;> cases b with
    | finite t m' e' h' =>
      cases t <;> simp [UnpackedFloat.compare, Ordering.swap_then, Int.compare_swap, Nat.compare_swap]
    | infinity t => cases t <;> rfl
    | _ => rfl

theorem compare_eq_none_iff (a b : UnpackedFloat) : a.compare b = none ↔ key a = none ∨ key b = none := by
  cases a with
  | notANumber => simp [key, UnpackedFloat.compare]
  | infinity s => cases s <;> cases b with
    | finite t m e h => cases t <;> simp [key, UnpackedFloat.compare]
    | infinity t => cases t <;> simp [key, UnpackedFloat.compare]
    | _ => simp [key, UnpackedFloat.compare]
  | zero s => cases b with
    | finite t m e h => cases t <;> simp [key, UnpackedFloat.compare]
    | infinity t => cases t <;> simp [key, UnpackedFloat.compare]
    | _ => simp [key, UnpackedFloat.compare]
  | finite s m e h => cases s <;> cases b with
    | finite t m' e' h' => cases t <;> simp [key, UnpackedFloat.compare]
    | infinity t => cases t <;> simp [key, UnpackedFloat.compare]
    | _ => simp [key, UnpackedFloat.compare]

/-! ## Single precision -/

def keyOf (a : Float32) : Option (Int × Int × Int) := key a.toModel.unpack

theorem keyOf_zero : keyOf 0 = some (0, 0, 0) := rfl

theorem lt_iff {a b : Float32} : a < b ↔ ∃ k l, keyOf a = some k ∧ keyOf b = some l ∧ Below k l := by
  rw [keyOf, keyOf, ← compare_eq_lt_iff]
  show decide ((a.toModel.unpack.compare b.toModel.unpack == some .lt) = true) = true ↔ _
  rw [decide_eq_true_eq, beq_iff_eq]

theorem le_iff {a b : Float32} : a ≤ b ↔ ∃ k l, keyOf a = some k ∧ keyOf b = some l ∧ ¬ Below l k := by
  have hgt := compare_eq_lt_iff b.toModel.unpack a.toModel.unpack
  have hnone := compare_eq_none_iff a.toModel.unpack b.toModel.unpack
  rw [compare_swap a.toModel.unpack b.toModel.unpack] at hgt
  show decide ((a.toModel.unpack.compare b.toModel.unpack).any Ordering.isLE = true) = true ↔ _
  rw [decide_eq_true_eq, keyOf, keyOf]
  cases hk : key a.toModel.unpack with
  | none => simp [hnone.2 (.inl hk)]
  | some k =>
    cases hl : key b.toModel.unpack with
    | none => simp [hnone.2 (.inr hl)]
    | some l =>
      simp only [hk, hl, Option.some.injEq, reduceCtorEq, or_self, iff_false] at hgt hnone
      obtain ⟨o, ho⟩ := Option.ne_none_iff_exists'.1 hnone
      rw [ho] at hgt
      simp only [ho, Option.any_some, Option.some.injEq, Option.map_some] at hgt ⊢
      cases o <;> simp_all

theorem isNaN_iff {a : Float32} : a.isNaN = true ↔ keyOf a = none := by
  show a.toModel.unpack.isNaN = true ↔ key a.toModel.unpack = none
  cases a.toModel.unpack with
  | infinity s => cases s <;> simp [key, UnpackedFloat.isNaN]
  | finite s m e h => cases s <;> simp [key, UnpackedFloat.isNaN]
  | _ => simp [key, UnpackedFloat.isNaN]

variable {a b t : Float32}

theorem not_lt_of_lt (h : a < b) : ¬ b < a := by
  intro h'
  obtain ⟨k, l, hk, hl, h⟩ := lt_iff.1 h
  obtain ⟨l', k', hl', hk', h'⟩ := lt_iff.1 h'
  rw [hk] at hk'
  rw [hl] at hl'
  cases hk'
  cases hl'
  simp only [Below] at h h'
  omega

theorem not_lt_of_le (h : a ≤ b) : ¬ b < a := by
  intro h'
  obtain ⟨k, l, hk, hl, h⟩ := le_iff.1 h
  obtain ⟨l', k', hl', hk', h'⟩ := lt_iff.1 h'
  rw [hk] at hk'
  rw [hl] at hl'
  cases hk'
  cases hl'
  exact h h'

theorem lt_of_lt_of_le (h : t < a) (h' : a ≤ b) : t < b := by
  obtain ⟨k, l, hk, hl, h⟩ := lt_iff.1 h
  obtain ⟨l', m, hl', hm, h'⟩ := le_iff.1 h'
  rw [hl] at hl'
  cases hl'
  refine lt_iff.2 ⟨k, m, hk, hm, ?_⟩
  simp only [Below] at h h' ⊢
  omega

theorem le_of_lt (h : a < b) : a ≤ b := by
  obtain ⟨k, l, hk, hl, hkl⟩ := lt_iff.1 h
  refine le_iff.2 ⟨k, l, hk, hl, ?_⟩
  simp only [Below] at hkl ⊢
  omega

theorem lt_of_le_of_lt (h : t ≤ a) (h' : a < b) : t < b := by
  obtain ⟨k, l, hk, hl, h⟩ := le_iff.1 h
  obtain ⟨l', m, hl', hm, h'⟩ := lt_iff.1 h'
  rw [hl] at hl'
  cases hl'
  refine lt_iff.2 ⟨k, m, hk, hm, ?_⟩
  simp only [Below] at h h' ⊢
  omega

/-- Two numbers that are no NaN compare. -/
theorem lt_of_not_le (ha : ¬ a.isNaN = true) (hb : ¬ b.isNaN = true) (h : ¬ a ≤ b) : b < a := by
  obtain ⟨k, hk⟩ := Option.ne_none_iff_exists'.1 (mt isNaN_iff.2 ha)
  obtain ⟨l, hl⟩ := Option.ne_none_iff_exists'.1 (mt isNaN_iff.2 hb)
  rw [le_iff] at h
  refine lt_iff.2 ⟨l, k, hl, hk, ?_⟩
  by_contra hlk
  exact h ⟨k, l, hk, hl, hlk⟩

theorem not_isNaN_of_lt (h : a < b) : ¬ b.isNaN = true := by
  obtain ⟨k, l, -, hl, -⟩ := lt_iff.1 h
  rw [isNaN_iff, hl]
  simp

theorem lt_trans (h : t < a) (h' : a < b) : t < b := by
  obtain ⟨k, l, hk, hl, h⟩ := lt_iff.1 h
  obtain ⟨l', m, hl', hm, h'⟩ := lt_iff.1 h'
  rw [hl] at hl'
  cases hl'
  refine lt_iff.2 ⟨k, m, hk, hm, ?_⟩
  simp only [Below] at h h' ⊢
  omega

theorem maxNum_eq (a b : Float32) : maxNum a b = a ∨ maxNum a b = b := by
  unfold maxNum
  split
  · exact .inr rfl
  · exact .inl rfl

theorem lt_maxNum_left (h : t < a) : t < maxNum a b := by
  unfold maxNum
  split
  · rename_i hc
    rcases Bool.or_eq_true_iff.1 hc with hn | hle
    · exact absurd hn (not_isNaN_of_lt h)
    · exact lt_of_lt_of_le h (of_decide_eq_true hle)
  · exact h

theorem lt_maxNum_right (h : t < b) : t < maxNum a b := by
  unfold maxNum
  split
  · exact h
  · rename_i hc
    simp only [Bool.or_eq_true, decide_eq_true_eq, not_or] at hc
    exact lt_trans h (lt_of_not_le hc.1 (not_isNaN_of_lt h) hc.2)

/-! ## Bits -/

theorem eq_of_toBits (h : a.toBits.toNat = b.toBits.toNat) : a = b := by
  obtain ⟨⟨bits, hvalid⟩⟩ := a
  obtain ⟨⟨bits', hvalid'⟩⟩ := b
  obtain rfl : bits = bits' := UInt32.toNat_inj.1 h
  rfl

/-- The word of a number without sign. -/
def word (e m : Nat) : BitVec Format.binary32.numBits :=
  packComponents .binary32 .positive (.ofNat 8 e) (.ofNat 23 m)

variable {e m : Nat}

theorem toNat_word (he : e < 2 ^ 8) (hm : m < 2 ^ 23) : (word e m).toNat = e * 2 ^ 23 + m := by
  rw [word, packComponents, BitVec.toNat_append, BitVec.toNat_append, BitVec.toNat_ofNat, BitVec.toNat_ofNat,
    Nat.mod_eq_of_lt he, Nat.mod_eq_of_lt hm, ← Nat.shiftLeft_add_eq_or_of_lt hm, Nat.shiftLeft_eq]
  simp [Sign.toBitVec]

theorem eq_word {w : BitVec Format.binary32.numBits} (hw : w.toNat < 2 ^ 31) :
    w = word (w.toNat / 2 ^ 23) (w.toNat % 2 ^ 23) := by
  refine BitVec.eq_of_toNat_eq ?_
  rw [toNat_word (by omega) (Nat.mod_lt _ (by decide))]
  omega

theorem unpackSign_word (he : e < 2 ^ 8) (hm : m < 2 ^ 23) : Sign.ofBitVec (unpackSign (word e m)) = .positive := by
  have h : unpackSign (word e m) = 0#1 := by
    refine BitVec.eq_of_toNat_eq ?_
    rw [unpackSign, BitVec.toNat_cast, BitVec.extractLsb_toNat, toNat_word he hm, Nat.shiftRight_eq_div_pow]
    show (e * 2 ^ 23 + m) / 2 ^ 31 % 2 = 0
    omega
  rw [h]
  rfl

theorem unpackExponent_word (e m : Nat) : unpackExponent (word e m) = .ofNat 8 e := unpackExponent_packComponents

theorem unpackMantissa_word (e m : Nat) : unpackMantissa (word e m) = .ofNat 23 m := unpackMantissa_packComponents

theorem ofNat_eq_iff {w n k : Nat} (hn : n < 2 ^ w) (hk : k < 2 ^ w) : BitVec.ofNat w n = BitVec.ofNat w k ↔ n = k := by
  rw [← BitVec.toNat_inj, BitVec.toNat_ofNat, BitVec.toNat_ofNat, Nat.mod_eq_of_lt hn, Nat.mod_eq_of_lt hk]

theorem toNat_ofNat_of_lt {w n : Nat} (hn : n < 2 ^ w) : (BitVec.ofNat w n).toNat = n := by
  rw [BitVec.toNat_ofNat, Nat.mod_eq_of_lt hn]

theorem unpack_subnormal (hm : m < 2 ^ 23) (h : 0 < m) :
    unpack .binary32 (word 0 m) = .finite .positive m (-149) h := by
  have hmant : ¬ BitVec.ofNat 23 m = 0#23 := by
    rw [show 0#23 = BitVec.ofNat 23 0 from rfl, ofNat_eq_iff hm (by decide)]
    omega
  unfold unpack
  simp only [unpackSign_word (show 0 < 2 ^ 8 by decide) hm, unpackExponent_word, unpackMantissa_word]
  rw [if_neg (by decide), if_pos trivial, dif_neg hmant]
  congr 1
  exact toNat_ofNat_of_lt hm

theorem unpack_normal (he : e < 255) (h : 0 < e) (hm : m < 2 ^ 23) :
    unpack .binary32 (word e m) = .finite .positive (2 ^ 23 + m) (e - 150) (by omega) := by
  have he' : e < 2 ^ 8 := by omega
  have hones : ¬ BitVec.ofNat 8 e = -1#8 := by
    rw [show -1#8 = BitVec.ofNat 8 255 from rfl, ofNat_eq_iff he' (by decide)]
    omega
  have hzero : ¬ BitVec.ofNat 8 e = 0#8 := by
    rw [show 0#8 = BitVec.ofNat 8 0 from rfl, ofNat_eq_iff he' (by decide)]
    omega
  have hone : (1#1 ++ BitVec.ofNat 23 m).toNat = 2 ^ 23 + m := by
    rw [BitVec.toNat_append, toNat_ofNat_of_lt hm, ← Nat.shiftLeft_add_eq_or_of_lt hm]
    rfl
  unfold unpack
  simp only [unpackSign_word he' hm, unpackExponent_word, unpackMantissa_word]
  rw [if_neg hones, if_neg hzero]
  congr 1
  rw [toNat_ofNat_of_lt he']
  rfl

theorem pack_subnormal (hm : m < 2 ^ 23) (h : 0 < m) : pack .binary32 (.finite .positive m (-149) h) = word 0 m := by
  have hlog : m.log2 < 23 := (Nat.log2_lt (by omega)).2 hm
  have hnormal : ¬ m.log2 + 1 = Format.binary32.mantissaBits := by
    show ¬ m.log2 + 1 = 24
    omega
  unfold pack
  rw [if_neg (by decide), if_neg hnormal]
  rfl

theorem pack_normal (he : e < 255) (h : 0 < e) (hm : m < 2 ^ 23) :
    pack .binary32 (.finite .positive (2 ^ 23 + m) (e - 150) (by omega)) = word e m := by
  have hlog : (2 ^ 23 + m).log2 = 23 := by
    rw [Nat.log2_eq_iff (by omega)]
    omega
  have hexp : ((e : Int) - 150 + (Format.binary32.exponentBias : Nat) + (23 : Nat)).toNat = e := by
    show ((e : Int) - 150 + 127 + 23).toNat = e
    omega
  have hmant : BitVec.ofNat 23 (2 ^ 23 + m) = BitVec.ofNat 23 m := by
    rw [← BitVec.toNat_inj, BitVec.toNat_ofNat, toNat_ofNat_of_lt hm]
    omega
  unfold pack
  dsimp only
  rw [hexp, if_neg (by show ¬ 2 ^ 8 ≤ e + 1; omega), if_pos (by rw [hlog]; rfl), hmant]
  rfl

/-- What a positive number compares by, from its bits. -/
def bitsKey (n : Nat) : Int × Int × Int :=
  if n / 2 ^ 23 = 0 then (1, -149, n % 2 ^ 23) else (1, n / 2 ^ 23 - 150, 2 ^ 23 + n % 2 ^ 23)

/-- A positive finite number is read off its bits, and its bits off it. -/
theorem unpack_of_pos {w : BitVec Format.binary32.numBits} (h0 : 0 < w.toNat) (h : w.toNat < 0x7f800000) :
    key (unpack .binary32 w) = some (bitsKey w.toNat) ∧ pack .binary32 (unpack .binary32 w) = w := by
  have hw := eq_word (w := w) (by omega)
  have hm : w.toNat % 2 ^ 23 < 2 ^ 23 := Nat.mod_lt _ (by decide)
  unfold bitsKey
  by_cases he : w.toNat / 2 ^ 23 = 0
  · rw [if_pos he]
    rw [he] at hw
    have hpos : 0 < w.toNat % 2 ^ 23 := by omega
    have hunpack := unpack_subnormal hm hpos
    rw [← hw] at hunpack
    rw [hunpack, pack_subnormal hm hpos]
    exact ⟨rfl, hw.symm⟩
  · rw [if_neg he]
    have hunpack := unpack_normal (e := w.toNat / 2 ^ 23) (by omega) (by omega) hm
    rw [← hw] at hunpack
    rw [hunpack, pack_normal (by omega) (by omega) hm]
    exact ⟨rfl, hw.symm⟩

/-- A number with a sign is not above zero. -/
theorem not_below_of_sign {w : BitVec Format.binary32.numBits} (h : 2 ^ 31 ≤ w.toNat) {k : Int × Int × Int}
    (hk : key (unpack .binary32 w) = some k) : ¬ Below (0, 0, 0) k := by
  have hlt : w.toNat < 2 ^ 32 := w.isLt
  have hs : Sign.ofBitVec (unpackSign w) = .negative := by
    have hone : unpackSign w = 1#1 := by
      refine BitVec.eq_of_toNat_eq ?_
      rw [unpackSign, BitVec.toNat_cast, BitVec.extractLsb_toNat, Nat.shiftRight_eq_div_pow]
      show w.toNat / 2 ^ 31 % 2 = 1
      omega
    rw [hone]
    rfl
  unfold unpack at hk
  simp only [hs] at hk
  split at hk
  · split at hk <;> cases hk
    simp [Below]
  · split at hk
    · split at hk <;> cases hk <;> simp [Below]
    · cases hk
      simp [Below]

theorem not_below_infinity {u : UnpackedFloat} {k : Int × Int × Int} (hk : key u = some k) : ¬ Below (2, 0, 0) k := by
  cases u with
  | notANumber => cases hk
  | infinity s => cases s <;> cases hk <;> simp [Below]
  | zero s => cases hk; simp [Below]
  | finite s m e h => cases s <;> cases hk <;> simp [Below]

theorem key_of_nan {w : BitVec Format.binary32.numBits} (h : 0x7f800000 < w.toNat) (hw : w.toNat < 2 ^ 31) :
    key (unpack .binary32 w) = none := by
  have hword := eq_word hw
  have hm : w.toNat % 2 ^ 23 < 2 ^ 23 := Nat.mod_lt _ (by decide)
  have he : w.toNat / 2 ^ 23 = 255 := by omega
  have hmant : ¬ BitVec.ofNat 23 (w.toNat % 2 ^ 23) = 0#23 := by
    rw [show 0#23 = BitVec.ofNat 23 0 from rfl, ofNat_eq_iff hm (by decide)]
    omega
  rw [he] at hword
  rw [hword]
  unfold unpack
  simp only [unpackExponent_word, unpackMantissa_word]
  rw [if_pos (by decide), if_neg hmant]
  rfl

/-- A positive number below another one is finite, and its bits are those of a positive number. -/
theorem toBits_of_pos {a b : Float32} (h0 : 0 < a) (h : a < b) : 0 < a.toBits.toNat ∧ a.toBits.toNat < 0x7f800000 := by
  obtain ⟨z, k, hz, hk, h0⟩ := lt_iff.1 h0
  obtain ⟨k', l, hk', hl, h⟩ := lt_iff.1 h
  rw [hk] at hk'
  cases hk'
  rw [keyOf_zero] at hz
  cases hz
  have hkey : key (unpack .binary32 a.toBits.toBitVec) = some k := hk
  show 0 < a.toBits.toBitVec.toNat ∧ a.toBits.toBitVec.toNat < 0x7f800000
  generalize a.toBits.toBitVec = w at hkey
  rcases Nat.lt_or_ge w.toNat (2 ^ 31) with hw | hw
  · rcases Nat.lt_or_ge w.toNat 0x7f800000 with hlt | hge
    · refine ⟨Nat.pos_of_ne_zero fun hw0 => ?_, hlt⟩
      obtain rfl : w = 0#32 := BitVec.eq_of_toNat_eq hw0
      obtain rfl : (0, 0, 0) = k := Option.some.inj hkey
      simp [Below] at h0
    · rcases Nat.eq_or_lt_of_le hge with heq | hlt
      · obtain rfl : w = 0x7f800000#32 := BitVec.eq_of_toNat_eq heq.symm
        obtain rfl : (2, 0, 0) = k := Option.some.inj hkey
        exact absurd h (not_below_infinity hl)
      · rw [key_of_nan hlt hw] at hkey
        cases hkey
  · exact absurd h0 (not_below_of_sign hw hkey)

theorem keyOf_ofBits {w : UInt32} (h0 : 0 < w.toNat) (h : w.toNat < 0x7f800000) :
    keyOf (.ofBits w) = some (bitsKey w.toNat) := by
  obtain ⟨hkey, hpack⟩ := unpack_of_pos (w := w.toBitVec) h0 h
  have hmodel : (Float32.ofBits w).toModel.unpack =
      unpack .binary32 (pack .binary32 (unpack .binary32 w.toBitVec)) := rfl
  rw [keyOf, hmodel, hpack]
  exact hkey

end AdaptiveFrame.Binary32
