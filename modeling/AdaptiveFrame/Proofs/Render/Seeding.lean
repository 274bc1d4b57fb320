import AdaptiveFrame.Render.Random
import Mathlib

/-!
# Generators of different samples

Everything that leads from a pixel and a sample index to the state of a generator can be undone: packing them into
a word, multiplying by an odd word, adding a word, and each of the three shifted exclusive ors of a step. So the
samples of an image start from different states, and stay apart however many numbers each of them draws.
-/

namespace AdaptiveFrame

namespace Random

variable {s t d k : UInt64} {n : Nat}

/-! ## Steps -/

/-- A word that a shift to the right leaves as it is has no highest bit. -/
theorem eq_zero_of_shiftRight (hk : k.toNat % 64 ≠ 0) (h : d >>> k = d) : d = 0 := by
  have hdiv : d.toNat / 2 ^ (k.toNat % 64) = d.toNat := by
    rw [← Nat.shiftRight_eq_div_pow, ← UInt64.toNat_shiftRight, h]
  by_contra hne
  have hpos : 0 < d.toNat := Nat.pos_of_ne_zero fun h0 => hne (UInt64.toNat_inj.1 h0)
  have hlt := Nat.div_lt_self hpos (Nat.one_lt_two_pow hk)
  omega

/-- A word that a shift to the left leaves as it is has no lowest bit. -/
theorem eq_zero_of_shiftLeft (hk : k.toNat % 64 ≠ 0) (h : d <<< k = d) : d = 0 := by
  have hmul : d.toNat * 2 ^ (k.toNat % 64) ≡ d.toNat * 1 [MOD 2 ^ 64] := by
    have hword := congrArg UInt64.toNat h
    rw [UInt64.toNat_shiftLeft, Nat.shiftLeft_eq] at hword
    rw [Nat.ModEq, hword, Nat.mul_one, Nat.mod_eq_of_lt d.toNat_lt]
  have hodd : Nat.Coprime (2 ^ 64) (2 ^ (k.toNat % 64) - 1) := by
    refine Nat.Coprime.pow_left 64 (Nat.coprime_two_left.2 ?_)
    exact Nat.Even.sub_odd Nat.one_le_two_pow (Nat.even_pow.2 ⟨even_two, hk⟩) odd_one
  have hdvd : 2 ^ 64 ∣ d.toNat * (2 ^ (k.toNat % 64) - 1) := by
    rw [Nat.mul_sub]
    exact (Nat.modEq_iff_dvd' (Nat.mul_le_mul_left _ Nat.one_le_two_pow)).1 hmul.symm
  have hzero := Nat.eq_zero_of_dvd_of_lt (hodd.dvd_of_dvd_mul_right hdvd) d.toNat_lt
  exact UInt64.toNat_inj.1 hzero

/-- The exclusive or of a word with its own shift gives the word back, since nothing but zero is its own shift. -/
theorem injective_xor_shift {shift : UInt64 → UInt64} (hxor : ∀ a b, shift (a ^^^ b) = shift a ^^^ shift b)
    (hself : ∀ d, shift d = d → d = 0) : Function.Injective fun s => s ^^^ shift s := by
  intro s t h
  have hdiff : shift (s ^^^ t) = s ^^^ t := by
    have h : s ^^^ shift s = t ^^^ shift t := h
    have hboth : (s ^^^ shift s) ^^^ (t ^^^ shift t) = 0 := UInt64.xor_eq_zero_iff.2 h
    refine UInt64.xor_eq_zero_iff.1 ?_
    rw [hxor, ← hboth]
    ac_rfl
  exact UInt64.xor_eq_zero_iff.1 (hself _ hdiff)

theorem step_injective : Function.Injective step := by
  have hlast : Function.Injective fun s : UInt64 => s ^^^ s >>> 27 :=
    injective_xor_shift (fun _ _ => UInt64.shiftRight_xor) fun _ => eq_zero_of_shiftRight (by decide)
  have hmiddle : Function.Injective fun s : UInt64 => s ^^^ s <<< 25 :=
    injective_xor_shift (fun _ _ => UInt64.shiftLeft_xor) fun _ => eq_zero_of_shiftLeft (by decide)
  have hfirst : Function.Injective fun s : UInt64 => s ^^^ s >>> 12 :=
    injective_xor_shift (fun _ _ => UInt64.shiftRight_xor) fun _ => eq_zero_of_shiftRight (by decide)
  rintro ⟨s⟩ ⟨t⟩ h
  exact congrArg mk (hfirst (hmiddle (hlast (congrArg state h))))

/-- The state of a generator after one more number. -/
def nextState (s : UInt64) : UInt64 := (next ⟨s⟩).2.state

/-- The words are finitely many, so none is missed. -/
theorem nextState_bijective : Function.Bijective nextState := by
  have hfinite : Finite UInt64 := Finite.of_injective UInt64.toFin fun _ _ => UInt64.toFin_inj.1
  refine Finite.injective_iff_bijective.1 fun s t h => ?_
  exact congrArg state (step_injective (congrArg mk h))

/-- A generator after some more numbers. -/
def draw (g : Random) : Nat → Random
  | 0 => g
  | n + 1 => (g.draw n).next.2

/-- As many numbers later, two generators are as different as before. -/
theorem draw_injective (n : Nat) : Function.Injective fun g : Random => g.draw n := by
  induction n with
  | zero => exact Function.injective_id
  | succ n ih => exact step_injective.comp ih

/-! ## Seeds -/

theorem beside_lt {a b k l : Nat} (ha : a < 2 ^ l) (hb : b < 2 ^ k) : a * 2 ^ k + b < 2 ^ (k + l) := by
  have hnext : (a + 1) * 2 ^ k ≤ 2 ^ l * 2 ^ k := Nat.mul_le_mul_right _ ha
  rw [Nat.succ_mul] at hnext
  rw [Nat.add_comm k, Nat.pow_add]
  omega

/-- Two parts of a word that lie beside each other. -/
theorem xor_shiftLeft {a b k : Nat} (hb : b < 2 ^ k) : a <<< k ^^^ b = a * 2 ^ k + b := by
  rw [← Nat.shiftLeft_eq, Nat.shiftLeft_add_eq_or_of_lt hb]
  refine Nat.eq_of_testBit_eq fun i => ?_
  rw [Nat.testBit_xor, Nat.testBit_or, Nat.testBit_shiftLeft]
  rcases Nat.lt_or_ge i k with hi | hi
  · simp [Nat.not_le.2 hi]
  · have hlow : b.testBit i = false :=
      Nat.testBit_lt_two_pow (Nat.lt_of_lt_of_le hb (Nat.pow_le_pow_right (by decide) hi))
    simp [hlow]

/-- Pixels and sample indices that have room in a key. -/
structure Packable (p : Point) (i : Nat) : Prop where
  x : p.x < 2 ^ 24
  y : p.y < 2 ^ 16
  sample : i < 2 ^ 24

theorem Packable.toNat_sampleKey {p : Point} {i : Nat} (h : Packable p i) :
    (sampleKey p i).toNat = p.y * 2 ^ 48 + (p.x * 2 ^ 24 + i) := by
  obtain ⟨hx, hy, hi⟩ := h
  have hlow : p.x * 2 ^ 24 + i < 2 ^ (24 + 24) := beside_lt hx hi
  have hall : p.y * 2 ^ 48 + (p.x * 2 ^ 24 + i) < 2 ^ (48 + 16) := beside_lt hy hlow
  have hkey : sampleKey p i = .ofNat (p.y <<< 48 ^^^ (p.x <<< 24 ^^^ i)) := by
    rw [UInt64.ofNat_xor, UInt64.ofNat_xor, UInt64.ofNat_shiftLeft _ _ (by decide),
      UInt64.ofNat_shiftLeft _ _ (by decide), ← UInt64.xor_assoc]
    rfl
  rw [hkey, xor_shiftLeft hi, xor_shiftLeft hlow, UInt64.toNat_ofNat', Nat.mod_eq_of_lt hall]

/-- A key can be taken apart again. -/
theorem sampleKey_inj {p q : Point} {i j : Nat} (hp : Packable p i) (hq : Packable q j)
    (h : sampleKey p i = sampleKey q j) :
    p = q ∧ i = j := by
  have hkey := congrArg UInt64.toNat h
  rw [hp.toNat_sampleKey, hq.toNat_sampleKey] at hkey
  obtain ⟨hx, hy, hi⟩ := hp
  obtain ⟨hx', hy', hi'⟩ := hq
  obtain ⟨⟨⟩, ⟨⟩⟩ := p, q
  simp only [Point.mk.injEq]
  dsimp only at *
  omega

/-- The multiplier of seeds has an inverse. -/
theorem mul_seed_injective : Function.Injective fun s : UInt64 => s * 0xD1B54A32D192ED03 := by
  intro s t h
  have hback := congrArg (fun word => word * 0x06106CCFA448E5AB) h
  have hunit : (0xD1B54A32D192ED03 : UInt64) * 0x06106CCFA448E5AB = 1 := by decide
  simpa only [UInt64.mul_assoc, hunit, UInt64.mul_one] using hback

theorem forSample_inj {p q : Point} {i j : Nat} (hp : Packable p i) (hq : Packable q j)
    (h : forSample p i = forSample q j) :
    p = q ∧ i = j := by
  have hseed := congrArg state (step_injective (step_injective h))
  exact sampleKey_inj hp hq (mul_seed_injective ((UInt64.add_left_inj _).1 hseed))

/-! ## Samples -/

/-- The generators of two samples differ, and differ still when each has drawn as many numbers as the other. A step
permutes the words, of which zero stays where it is. -/
theorem samples_stay_apart :
    (∀ (p q : Point) (i j : Nat), Packable p i → Packable q j → (p, i) ≠ (q, j) →
      ∀ n, ((forSample p i).draw n).state ≠ ((forSample q j).draw n).state) ∧
    Function.Bijective nextState ∧ nextState 0 = 0 := by
  refine ⟨fun p q i j hp hq hne n hstate => hne ?_, nextState_bijective, by decide⟩
  have hstart : forSample p i = forSample q j := draw_injective n (congrArg mk hstate)
  obtain ⟨rfl, rfl⟩ := forSample_inj hp hq hstart
  rfl

/-- The last pixel and sample with room in a key, and its neighbor to the left. -/
theorem samples_stay_apart_corner : Packable ⟨16777215, 65535⟩ 16777215 ∧ Packable ⟨16777214, 65535⟩ 16777215 ∧
    ((forSample ⟨16777215, 65535⟩ 16777215).draw 5).state ≠ ((forSample ⟨16777214, 65535⟩ 16777215).draw 5).state :=
  have hlast : Packable ⟨16777215, 65535⟩ 16777215 := ⟨by decide, by decide, by decide⟩
  have hnext : Packable ⟨16777214, 65535⟩ 16777215 := ⟨by decide, by decide, by decide⟩
  ⟨hlast, hnext, samples_stay_apart.1 _ _ _ _ hlast hnext (by decide) 5⟩

end Random

end AdaptiveFrame
