import AdaptiveFrame.Proofs.Accum.Numbers
import Mathlib.Algebra.Order.Field.Basic
import Mathlib.Algebra.Order.Field.Rat
import Mathlib.Order.Bounds.Basic
import Mathlib.Tactic.Linarith
import Mathlib.Tactic.NormNum
import Mathlib.Tactic.Positivity
import Mathlib.Tactic.Ring

/-!
# Depths over hits only

A depth is a number where a ray hits something and infinite where it misses. Blending a miss with a hit would have no
value, or leave the pixel infinite for good. Over the rational numbers and infinity none of this happens: the depth of
a pixel is infinite as long as all its samples are misses, and lies between the nearest and the farthest hit from the
first hit on (`folded_depth_between_hits`).
-/

namespace AdaptiveFrame

/-- A rational number, an infinite one, or what operations leave that have no such value. -/
inductive Extended where
  | number (q : ℚ)
  | infinite
  | undefined
  deriving DecidableEq

namespace Extended

/-- The sum is infinite if one summand is and the other one has a value. -/
def add : Extended → Extended → Extended
  | number p, number q => number (p + q)
  | infinite, number _ | number _, infinite | infinite, infinite => infinite
  | _, _ => undefined

/-- Taking away something infinite has no value, as there is no negative infinity. -/
def sub : Extended → Extended → Extended
  | number p, number q => number (p - q)
  | infinite, number _ => infinite
  | _, _ => undefined

/-- Something infinite has multiples by positive numbers alone. -/
def mul : Extended → Extended → Extended
  | number p, number q => number (p * q)
  | infinite, number q | number q, infinite => if 0 < q then infinite else undefined
  | infinite, infinite => infinite
  | _, _ => undefined

/-- There is no division by zero, nor of two infinite numbers. -/
def div : Extended → Extended → Extended
  | number p, number q => if q = 0 then undefined else number (p / q)
  | number _, infinite => number 0
  | infinite, number q => if 0 < q then infinite else undefined
  | _, _ => undefined

/-- Comparisons with what has no value are false. -/
def atLeast : Extended → Extended → Bool
  | number p, number q => q ≤ p
  | infinite, number _ | infinite, infinite => true
  | _, _ => false

def isFinite : Extended → Bool
  | number _ => true
  | _ => false

instance : Scalar Extended where
  add := add
  sub := sub
  mul := mul
  div := div
  ofNat n := number n
  atLeast := atLeast
  isFinite := isFinite

theorem weight_eq (k : Nat) : (Blend.weight (k : Int) : Extended) = number (1 / (k + 1)) := by
  have hpos : (k + 1 : ℚ) ≠ 0 := by positivity
  show (if (((k : Int).toNat + 1 : Nat) : ℚ) = 0 then undefined
    else number ((1 : Nat) / (((k : Int).toNat + 1 : Nat) : ℚ))) = _
  rw [Int.toNat_natCast, Nat.cast_add_one, Nat.cast_one, if_neg hpos]

/-! ## One blend -/

section Depth

variable {k : Nat}

/-- The first sample replaces whatever is stored. -/
theorem depth_first (d s : Extended) : Blend.depth d s (Blend.weight ((0 : Nat) : Int)) = s := by
  have hfull : Scalar.atLeast (Blend.weight ((0 : Nat) : Int) : Extended) (Scalar.ofNat 1) = true := by decide +kernel
  rw [Blend.depth, hfull, Bool.true_or, if_pos rfl]

theorem not_atLeast_one (hk : k ≠ 0) : Scalar.atLeast (Blend.weight (k : Int) : Extended) (Scalar.ofNat 1) = false := by
  have hlt : (1 / (k + 1) : ℚ) < 1 := by
    rw [div_lt_one (by positivity)]
    have : (0 : ℚ) < k := Nat.cast_pos.2 (Nat.pos_of_ne_zero hk)
    linarith
  rw [weight_eq]
  show decide (((1 : Nat) : ℚ) ≤ 1 / (k + 1)) = false
  rw [Nat.cast_one, decide_eq_false_iff_not]
  exact not_le.2 hlt

/-- A stored miss is replaced. -/
theorem depth_miss_stored (s : Extended) (w : Extended) : Blend.depth infinite s w = s := by
  rw [Blend.depth, show Scalar.isFinite infinite = false from rfl, Bool.not_false, Bool.or_true, if_pos rfl]

/-- A later miss keeps a stored hit. -/
theorem depth_miss (hk : k ≠ 0) (q : ℚ) :
    Blend.depth (number q) infinite (Blend.weight (k : Int)) = number q := by
  rw [Blend.depth, not_atLeast_one hk]
  rfl

/-- A later hit moves a stored one. -/
theorem depth_hit (hk : k ≠ 0) (q s : ℚ) :
    Blend.depth (number q) (number s) (Blend.weight (k : Int)) = number (q + (s - q) * (1 / (k + 1))) := by
  rw [Blend.depth, not_atLeast_one hk, weight_eq]
  rfl

end Depth

/-- A part of the way from one number to another leads to a number between them. -/
theorem between_of_part {q s w : ℚ} (h₀ : 0 ≤ w) (h₁ : w ≤ 1) :
    min q s ≤ q + (s - q) * w ∧ q + (s - q) * w ≤ max q s := by
  have hsplit : q + (s - q) * w = (1 - w) * q + w * s := by ring
  rw [hsplit]
  have h₁' : 0 ≤ 1 - w := by linarith
  constructor
  · calc min q s = (1 - w) * min q s + w * min q s := by ring
      _ ≤ (1 - w) * q + w * s :=
        add_le_add (mul_le_mul_of_nonneg_left (min_le_left _ _) h₁') (mul_le_mul_of_nonneg_left (min_le_right _ _) h₀)
  · calc (1 - w) * q + w * s
      _ ≤ (1 - w) * max q s + w * max q s :=
        add_le_add (mul_le_mul_of_nonneg_left (le_max_left _ _) h₁') (mul_le_mul_of_nonneg_left (le_max_right _ _) h₀)
      _ = max q s := by ring

end Extended

open Extended

/-- The depths of the samples that hit something. -/
def hitDepths (samples : List (Sample.Numbers Extended)) : Set ℚ := {q | ∃ s ∈ samples, s.depth = number q}

section HitDepths

variable {samples : List (Sample.Numbers Extended)} {s : Sample.Numbers Extended} {q : ℚ}

theorem hitDepths_concat_hit (h : s.depth = number q) : hitDepths (samples ++ [s]) = insert q (hitDepths samples) := by
  ext p
  simp only [hitDepths, List.mem_append, List.mem_singleton, Set.mem_ofPred_eq, Set.mem_insert_iff]
  constructor
  · rintro ⟨s', hs' | rfl, hp⟩
    · exact .inr ⟨s', hs', hp⟩
    · exact .inl (number.inj (hp.symm.trans h))
  · rintro (rfl | ⟨s', hs', hp⟩)
    · exact ⟨s, .inr rfl, h⟩
    · exact ⟨s', .inl hs', hp⟩

theorem hitDepths_concat_miss (h : s.depth = infinite) : hitDepths (samples ++ [s]) = hitDepths samples := by
  ext p
  simp only [hitDepths, List.mem_append, List.mem_singleton, Set.mem_ofPred_eq]
  constructor
  · rintro ⟨s', hs' | rfl, hp⟩
    · exact ⟨s', hs', hp⟩
    · exact absurd (h.symm.trans hp) (by simp)
  · rintro ⟨s', hs', hp⟩
    exact ⟨s', .inl hs', hp⟩

end HitDepths

/-- What depths leave in a pixel: infinity if there was no hit, else a number between the nearest and the farthest. -/
inductive HitMean (hits : Set ℚ) : Extended → Prop where
  | allMissed (h : hits = ∅) : HitMean hits infinite
  | between {q lo hi : ℚ} (hlo : IsLeast hits lo) (hhi : IsGreatest hits hi) (h : lo ≤ q ∧ q ≤ hi) :
    HitMean hits (number q)

namespace HitMean

variable {hits : Set ℚ} {d : Extended} {k : Nat}

theorem first_hit (s : ℚ) : HitMean (insert s ∅) (number s) := by
  rw [insert_empty_eq]
  exact .between isLeast_singleton isGreatest_singleton ⟨le_rfl, le_rfl⟩

theorem miss (hk : k ≠ 0) (h : HitMean hits d) : HitMean hits (Blend.depth d infinite (Blend.weight (k : Int))) := by
  cases h with
  | allMissed h =>
    rw [depth_miss_stored]
    exact .allMissed h
  | between hlo hhi h =>
    rw [depth_miss hk]
    exact .between hlo hhi h

theorem hit (hk : k ≠ 0) (h : HitMean hits d) (s : ℚ) :
    HitMean (insert s hits) (Blend.depth d (number s) (Blend.weight (k : Int))) := by
  cases h with
  | allMissed h =>
    rw [depth_miss_stored, h]
    exact first_hit s
  | @between q lo hi hlo hhi h =>
    have hw₀ : (0 : ℚ) ≤ 1 / (k + 1) := by positivity
    have hw₁ : (1 / (k + 1) : ℚ) ≤ 1 := by
      rw [div_le_one (by positivity)]
      exact le_add_of_nonneg_left (Nat.cast_nonneg k)
    obtain ⟨hmin, hmax⟩ := between_of_part (q := q) (s := s) hw₀ hw₁
    rw [depth_hit hk]
    refine .between (hlo.insert s) (hhi.insert s) ⟨?_, ?_⟩
    · exact (le_min ((min_le_right _ _).trans h.1) (min_le_left _ _)).trans hmin
    · exact hmax.trans (max_le (h.2.trans (le_max_right _ _)) (le_max_left _ _))

theorem eq_infinite_iff (h : HitMean hits d) : d = infinite ↔ hits = ∅ := by
  cases h with
  | allMissed h => simp [h]
  | between hlo _ _ => simp [hlo.nonempty.ne_empty]

end HitMean

namespace Pixel.Numbers

variable {rule : FoldRule} {samples : List (Sample.Numbers Extended)}

theorem depth_foldAll_concat (hacc : rule.accumulates = true) (hdepth : rule.blendsDepth = true)
    (samples : List (Sample.Numbers Extended)) (s : Sample.Numbers Extended) (px : Pixel.Numbers Extended) :
    (px.foldAll rule (samples ++ [s])).depth =
      Blend.depth (px.foldAll rule samples).depth s.depth (Blend.weight (samples.length : Int)) := by
  rw [foldAll_concat]
  simp only [fold, hacc, hdepth, if_true]

theorem hitMean_foldAll (hacc : rule.accumulates = true) (hdepth : rule.blendsDepth = true) (hne : samples ≠ [])
    (hdef : ∀ s ∈ samples, s.depth ≠ undefined) (px : Pixel.Numbers Extended) :
    HitMean (hitDepths samples) (px.foldAll rule samples).depth := by
  induction samples using List.reverseRecOn with
  | nil => exact absurd rfl hne
  | append_singleton samples s ih =>
    have hs : s.depth ≠ undefined := hdef s (List.mem_append_right _ (List.mem_singleton_self s))
    rw [depth_foldAll_concat hacc hdepth]
    rcases eq_or_ne samples [] with rfl | hrest
    · have hnone : hitDepths [] = ∅ := by simp [hitDepths]
      rw [List.length_nil, depth_first]
      cases hsd : s.depth with
      | number q =>
        rw [hitDepths_concat_hit hsd, hnone]
        exact HitMean.first_hit q
      | infinite =>
        rw [hitDepths_concat_miss hsd]
        exact .allMissed hnone
      | undefined => exact absurd hsd hs
    · have hlength : samples.length ≠ 0 := (List.length_pos_iff.2 hrest).ne'
      have hmean := ih hrest fun s hs => hdef s (List.mem_append_left _ hs)
      cases hsd : s.depth with
      | number q =>
        rw [hitDepths_concat_hit hsd]
        exact hmean.hit hlength q
      | infinite =>
        rw [hitDepths_concat_miss hsd]
        exact hmean.miss hlength
      | undefined => exact absurd hsd hs

/-- **Depths over hits only.** The depth that is left after samples were folded, of which each is a hit or a miss, is
infinite exactly if all of them were misses, whatever the pixel held before. Otherwise it is a number between the
nearest and the farthest hit. Buffers fold the depths of their pixels by the same formulas (`numbers_receiveAll`, and
`numbers_after_frames` for a run). -/
theorem folded_depth_between_hits (hacc : rule.accumulates = true) (hdepth : rule.blendsDepth = true)
    (hne : samples ≠ []) (hdef : ∀ s ∈ samples, s.depth ≠ undefined) (px : Pixel.Numbers Extended) :
    ((px.foldAll rule samples).depth = infinite ↔ ∀ s ∈ samples, s.depth = infinite) ∧
    ((∃ s ∈ samples, s.depth ≠ infinite) →
      ∃ q lo hi : ℚ, (px.foldAll rule samples).depth = number q ∧
        IsLeast (hitDepths samples) lo ∧ IsGreatest (hitDepths samples) hi ∧ lo ≤ q ∧ q ≤ hi) := by
  have hmean := hitMean_foldAll hacc hdepth hne hdef px
  have hmisses : (px.foldAll rule samples).depth = infinite ↔ ∀ s ∈ samples, s.depth = infinite := by
    rw [hmean.eq_infinite_iff, Set.eq_empty_iff_forall_notMem]
    constructor
    · intro h s hs
      cases hsd : s.depth with
      | number q => exact absurd ⟨s, hs, hsd⟩ (h q)
      | infinite => rfl
      | undefined => exact absurd hsd (hdef s hs)
    · rintro h q ⟨s, hs, hq⟩
      exact absurd ((h s hs).symm.trans hq) (by simp)
  refine ⟨hmisses, fun ⟨s, hs, hhit⟩ => ?_⟩
  cases hlast : (px.foldAll rule samples).depth with
  | number q =>
    rw [hlast] at hmean
    cases hmean with
    | between hlo hhi hq => exact ⟨q, _, _, rfl, hlo, hhi, hq⟩
  | infinite => exact absurd (hmisses.1 hlast s hs) hhit
  | undefined =>
    rw [hlast] at hmean
    nomatch hmean

/-- A miss, a hit at 2, another miss and a hit at 4, folded into a pixel without a depth, leave a depth from 2 to 4. -/
theorem folded_depth_between_hits_misses :
    let rule : FoldRule := ⟨true, false, true, false, false, false⟩
    let ray (d : Extended) : Sample.Numbers Extended := ⟨fun _ => number 0, d, fun _ => number 0, fun _ => number 0⟩
    let samples := [ray infinite, ray (number 2), ray infinite, ray (number 4)]
    let stale : Pixel.Numbers Extended :=
      ⟨fun _ => number 0, fun _ => number 0, undefined, fun _ => number 0, fun _ => number 0⟩
    rule.accumulates = true ∧ rule.blendsDepth = true ∧ samples ≠ [] ∧ (∀ s ∈ samples, s.depth ≠ undefined) ∧
      (∃ s ∈ samples, s.depth ≠ infinite) ∧
      ∃ q : ℚ, (stale.foldAll rule samples).depth = number q ∧ 2 ≤ q ∧ q ≤ 4 := by
  intro rule ray samples stale
  have hdef : ∀ s ∈ samples, s.depth ≠ undefined := by simp [samples, ray]
  have hhit : ∃ s ∈ samples, s.depth ≠ infinite := ⟨ray (number 2), by simp [samples], by simp [ray]⟩
  obtain ⟨-, hbetween⟩ :=
    folded_depth_between_hits (show rule.accumulates = true from rfl) (show rule.blendsDepth = true from rfl)
      (List.cons_ne_nil _ _ : samples ≠ []) hdef stale
  obtain ⟨q, lo, hi, hq, ⟨⟨s, hs, hlo⟩, -⟩, ⟨⟨s', hs', hhi⟩, -⟩, hloq, hqhi⟩ := hbetween hhit
  refine ⟨rfl, rfl, List.cons_ne_nil _ _, hdef, hhit, q, hq, ?_, ?_⟩
  · have : (2 : ℚ) ≤ lo := by
      simp only [List.mem_cons, List.not_mem_nil, or_false] at hs
      rcases hs with rfl | rfl | rfl | rfl <;> simp only [ray, number.injEq, reduceCtorEq] at hlo <;> linarith
    exact this.trans hloq
  · have : hi ≤ (4 : ℚ) := by
      simp only [List.mem_cons, List.not_mem_nil, or_false] at hs'
      rcases hs' with rfl | rfl | rfl | rfl <;> simp only [ray, number.injEq, reduceCtorEq] at hhi <;> linarith
    exact hqhi.trans this

end Pixel.Numbers

end AdaptiveFrame
