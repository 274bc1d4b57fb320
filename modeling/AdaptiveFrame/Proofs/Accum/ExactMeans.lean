import AdaptiveFrame.Proofs.Accum.Numbers
import Mathlib.Algebra.BigOperators.Group.List.Basic
import Mathlib.Algebra.Order.Field.Basic
import Mathlib.Algebra.Order.Field.Rat
import Mathlib.Tactic.FieldSimp
import Mathlib.Tactic.NormNum
import Mathlib.Tactic.Positivity
import Mathlib.Tactic.Ring

/-!
# Running means without rounding

Over the rational numbers a running mean is the arithmetic mean of its samples, in whichever order they come and
whatever was stored before. The mean of the odd samples counts every other sample: `k` samples hold `k / 2` of them.
-/

namespace AdaptiveFrame

/-- Rational numbers are all finite, and nothing is rounded. -/
instance : Scalar ℚ where
  ofNat n := n
  atLeast a b := decide (b ≤ a)
  isFinite _ := true

namespace Blend

variable {k : Nat}

theorem weight_eq (k : Nat) : (weight (k : Int) : ℚ) = 1 / (k + 1) := by
  show ((1 : Nat) : ℚ) / (((k : Int).toNat + 1 : Nat) : ℚ) = _
  rw [Int.toNat_natCast, Nat.cast_one, Nat.cast_add_one]

/-- Among the odd samples the one with the id `k` is preceded by `k / 2` others. -/
theorem oddWeight_eq (hk : k % 2 = 1) : (oddWeight (k : Int) : ℚ) = 1 / ((k / 2 : Nat) + 1) := by
  have hplace : (max (k : Int).toNat 1 + 1) / 2 = k / 2 + 1 := by omega
  show ((1 : Nat) : ℚ) / (((max (k : Int).toNat 1 + 1) / 2 : Nat) : ℚ) = _
  rw [hplace, Nat.cast_one, Nat.cast_add_one]

/-- The mean of `j` samples and the next one is the mean of `j + 1` of them. -/
theorem lerp_next (j : Nat) (m s : ℚ) : (j + 1) * lerp m s (1 / (j + 1) : ℚ) = j * m + s := by
  have hj : (j + 1 : ℚ) ≠ 0 := by positivity
  have hlerp : lerp m s (1 / (j + 1) : ℚ) = m + (s - m) * (1 / (j + 1)) := by
    unfold lerp
    split
    · rename_i hfull
      -- Full weight replaces the mean, and so does blending with it.
      have hle : (1 : ℚ) ≤ 1 / (j + 1) := by exact_mod_cast of_decide_eq_true hfull
      have hone : (1 / (j + 1) : ℚ) = 1 := le_antisymm (by rw [div_le_one (by positivity)]; simp) hle
      rw [hone]
      ring
    · rfl
  rw [hlerp]
  field_simp
  ring

end Blend

/-- The arithmetic mean. -/
def mean (xs : List ℚ) : ℚ := xs.sum / xs.length

theorem mean_perm {xs ys : List ℚ} (h : xs.Perm ys) : mean xs = mean ys := by
  rw [mean, mean, h.sum_eq, h.length_eq]

/-- The entries of a list at the odd places, counted from 0. -/
def oddEntries {α : Type} (xs : List α) : List α := (xs.zipIdx.filter fun e => e.2 % 2 == 1).map Prod.fst

section OddEntries

variable {α : Type}

theorem oddEntries_concat (xs : List α) (a : α) :
    oddEntries (xs ++ [a]) = oddEntries xs ++ if xs.length % 2 = 1 then [a] else [] := by
  rw [oddEntries, List.zipIdx_append, List.filter_append, List.map_append, List.zipIdx_singleton, Nat.zero_add,
    List.filter_singleton, oddEntries]
  rcases Nat.mod_two_eq_zero_or_one xs.length with h | h <;> simp [h]

theorem length_oddEntries (xs : List α) : (oddEntries xs).length = xs.length / 2 := by
  induction xs using List.reverseRecOn with
  | nil => simp [oddEntries]
  | append_singleton xs a ih =>
    rw [oddEntries_concat, List.length_append, List.length_append, ih, List.length_singleton]
    split <;> simp only [List.length_singleton, List.length_nil] <;> omega

end OddEntries

namespace Pixel.Numbers

variable {rule : FoldRule} {samples : List (Sample.Numbers ℚ)}

/-- A number that every sample is blended into is, times their count, the sum of them. -/
theorem length_mul_foldAll (get : Pixel.Numbers ℚ → ℚ) {value : Sample.Numbers ℚ → ℚ}
    (hfold : ∀ (k : Nat) s px, get (px.fold rule k s) = Blend.lerp (get px) (value s) (Blend.weight k))
    (samples : List (Sample.Numbers ℚ)) (px : Pixel.Numbers ℚ) :
    (samples.length : ℚ) * get (px.foldAll rule samples) = (samples.map value).sum := by
  induction samples using List.reverseRecOn with
  | nil => simp
  | append_singleton samples s ih =>
    rw [foldAll_concat, hfold, Blend.weight_eq, List.length_append, List.length_singleton, Nat.cast_add_one,
      Blend.lerp_next, ih, List.map_append, List.sum_append, List.map_singleton, List.sum_singleton]

theorem foldAll_eq_mean (get : Pixel.Numbers ℚ → ℚ) {value : Sample.Numbers ℚ → ℚ}
    (hfold : ∀ (k : Nat) s px, get (px.fold rule k s) = Blend.lerp (get px) (value s) (Blend.weight k))
    (hne : samples ≠ []) (px : Pixel.Numbers ℚ) :
    get (px.foldAll rule samples) = mean (samples.map value) := by
  have hlength : (samples.length : ℚ) ≠ 0 := Nat.cast_ne_zero.2 (List.length_pos_iff.2 hne).ne'
  rw [mean, List.length_map, ← length_mul_foldAll get hfold samples px, mul_div_cancel_left₀ _ hlength]

theorem accum_eq_mean (hacc : rule.accumulates = true) (hne : samples ≠ []) (px : Pixel.Numbers ℚ) (i : Fin 4) :
    (px.foldAll rule samples).accum i = mean (samples.map fun s => s.color i) :=
  foldAll_eq_mean (fun px => px.accum i) (fun k s px => by simp only [fold, hacc, if_true]) hne px

theorem normal_eq_mean (hacc : rule.accumulates = true) (hblends : rule.blendsNormal = true) (hne : samples ≠ [])
    (px : Pixel.Numbers ℚ) (i : Fin 3) :
    (px.foldAll rule samples).normal i = mean (samples.map fun s => s.normal i) :=
  foldAll_eq_mean (fun px => px.normal i) (fun k s px => by simp only [fold, hacc, hblends, if_true]) hne px

theorem albedo_eq_mean (hacc : rule.accumulates = true) (hblends : rule.blendsAlbedo = true) (hne : samples ≠ [])
    (px : Pixel.Numbers ℚ) (i : Fin 3) :
    (px.foldAll rule samples).albedo i = mean (samples.map fun s => s.albedo i) :=
  foldAll_eq_mean (fun px => px.albedo i) (fun k s px => by simp only [fold, hacc, hblends, if_true]) hne px

/-- The second mean, times the count of odd samples, is the sum of these. -/
theorem half_length_mul_oddMean (hest : rule.estimates = true) (i : Fin 4) (samples : List (Sample.Numbers ℚ))
    (px : Pixel.Numbers ℚ) :
    ((samples.length / 2 : Nat) : ℚ) * (px.foldAll rule samples).oddMean i =
      ((oddEntries samples).map fun s => s.color i).sum := by
  induction samples using List.reverseRecOn with
  | nil => simp [oddEntries]
  | append_singleton samples s ih =>
    have hupdates : rule.updatesError (samples.length : Int) = true ↔ samples.length % 2 = 1 := by
      rw [FoldRule.updatesError, hest, Bool.true_and, Blend.isOdd, beq_iff_eq]
      omega
    rw [foldAll_concat, oddEntries_concat, List.map_append, List.sum_append, ← ih, List.length_append,
      List.length_singleton, fold]
    by_cases hodd : samples.length % 2 = 1
    · have hcount : (samples.length + 1) / 2 = samples.length / 2 + 1 := by omega
      rw [if_pos hodd, if_pos (hupdates.2 hodd), hcount, Nat.cast_add_one, Blend.oddWeight_eq hodd, Blend.lerp_next,
        List.map_singleton, List.sum_singleton]
    · have hcount : (samples.length + 1) / 2 = samples.length / 2 := by omega
      rw [if_neg hodd, if_neg (mt hupdates.1 hodd), hcount, List.map_nil, List.sum_nil, add_zero]

theorem oddMean_eq_mean (hest : rule.estimates = true) (h : 2 ≤ samples.length) (px : Pixel.Numbers ℚ) (i : Fin 4) :
    (px.foldAll rule samples).oddMean i = mean ((oddEntries samples).map fun s => s.color i) := by
  have hlength : ((samples.length / 2 : Nat) : ℚ) ≠ 0 := Nat.cast_ne_zero.2 (by omega)
  rw [mean, List.length_map, length_oddEntries, ← half_length_mul_oddMean hest i samples px,
    mul_div_cancel_left₀ _ hlength]

/-- **Running means without rounding.** A pixel that accumulates holds the arithmetic mean of the colors it received,
and of their normals and albedos where it blends these, whatever it held before. In another order the samples leave
the same means. From two samples on the second mean is that of the samples at odd places. With single precision
`foldAll` is what a buffer makes of its pixels (`numbers_receiveAll`, and `numbers_after_frames` for a run). -/
theorem folded_to_exact_means (hacc : rule.accumulates = true) (hne : samples ≠ []) (px : Pixel.Numbers ℚ) :
    let last := px.foldAll rule samples
    (∀ i, last.accum i = mean (samples.map fun s => s.color i)) ∧
    (rule.blendsNormal = true → ∀ i, last.normal i = mean (samples.map fun s => s.normal i)) ∧
    (rule.blendsAlbedo = true → ∀ i, last.albedo i = mean (samples.map fun s => s.albedo i)) ∧
    (rule.estimates = true → 2 ≤ samples.length →
      ∀ i, last.oddMean i = mean ((oddEntries samples).map fun s => s.color i)) ∧
    ∀ (order : List (Sample.Numbers ℚ)) (px' : Pixel.Numbers ℚ), order.Perm samples →
      (px'.foldAll rule order).accum = last.accum ∧
      (rule.blendsNormal = true → (px'.foldAll rule order).normal = last.normal) ∧
      (rule.blendsAlbedo = true → (px'.foldAll rule order).albedo = last.albedo) := by
  refine ⟨accum_eq_mean hacc hne px, fun h => normal_eq_mean hacc h hne px, fun h => albedo_eq_mean hacc h hne px,
    fun hest hlength => oddMean_eq_mean hest hlength px, fun order px' hperm => ?_⟩
  have horder : order ≠ [] := by
    rintro rfl
    exact hne hperm.nil_eq.symm
  refine ⟨funext fun i => ?_, fun h => funext fun i => ?_, fun h => funext fun i => ?_⟩
  · rw [accum_eq_mean hacc horder, accum_eq_mean hacc hne, mean_perm (hperm.map _)]
  · rw [normal_eq_mean hacc h horder, normal_eq_mean hacc h hne, mean_perm (hperm.map _)]
  · rw [albedo_eq_mean hacc h horder, albedo_eq_mean hacc h hne, mean_perm (hperm.map _)]

/-- Gray values 1, 0 and 2 that a pixel receives in this order leave it with the mean 1, and the second mean 0. -/
theorem folded_to_exact_means_gray :
    let rule : FoldRule := ⟨true, true, false, false, false, false⟩
    let gray (v : ℚ) : Sample.Numbers ℚ := ⟨fun _ => v, 0, fun _ => 0, fun _ => 0⟩
    let stale : Pixel.Numbers ℚ := ⟨fun _ => 7, fun _ => 7, 7, fun _ => 7, fun _ => 7⟩
    let last := stale.foldAll rule [gray 1, gray 0, gray 2]
    rule.accumulates = true ∧ [gray 1, gray 0, gray 2] ≠ [] ∧ (∀ i, last.accum i = 1) ∧ ∀ i, last.oddMean i = 0 := by
  intro rule gray stale last
  obtain ⟨haccum, -, -, hodd, -⟩ :=
    folded_to_exact_means (show rule.accumulates = true from rfl) (List.cons_ne_nil (gray 1) [gray 0, gray 2]) stale
  refine ⟨rfl, List.cons_ne_nil _ _, fun i => ?_, fun i => ?_⟩
  · rw [haccum i]
    norm_num [mean, gray]
  · rw [hodd rfl (by decide) i]
    norm_num [mean, oddEntries, gray]

end Pixel.Numbers

end AdaptiveFrame
