import AdaptiveFrame.Proofs.Accum.Receive

/-!
# What a pixel has averaged

A pixel that received the samples with the ids `0` to `n - 1`, in this order, holds their running means
(`Pixel.Averages`). The first sample of a mean has full weight and replaces what was stored, so the means
are the same whatever the pixel held before.
-/

namespace AdaptiveFrame

namespace Blend

theorem lerp4_of_full {m s : Vec4} {w : Float32} (hw : Scalar.atLeast w (Scalar.ofNat 1) = true) : lerp4 m s w = s := by
  simp only [lerp4, lerp, hw, if_true]

theorem lerp3_of_full {m s : Vec3} {w : Float32} (hw : Scalar.atLeast w (Scalar.ofNat 1) = true) : lerp3 m s w = s := by
  simp only [lerp3, lerp, hw, if_true]

theorem depth_of_full {m s w : Float32} (hw : Scalar.atLeast w (Scalar.ofNat 1) = true) : depth m s w = s := by
  simp only [depth, hw, Bool.true_or, if_true]

theorem weight_first : Scalar.atLeast (weight ((0 : Nat) : Int) : Float32) (Scalar.ofNat 1) = true := by decide

theorem oddWeight_first : Scalar.atLeast (oddWeight ((1 : Nat) : Int) : Float32) (Scalar.ofNat 1) = true := by decide

theorem isOdd_natCast (k : Nat) : isOdd (k : Int) = (k % 2 == 1) := by
  rw [isOdd, Bool.eq_iff_iff, beq_iff_eq, beq_iff_eq]
  omega

end Blend

/-- The ids below `n` that enter the second mean. -/
def oddIds (n : Nat) : List Nat := (List.range n).filter fun k => k % 2 == 1

section Folds

variable {α : Type} {f : α → Nat → α} {a : α} {n : Nat}

theorem foldl_range_next (hfirst : ∀ x y, f x 0 = f y 0) (h : 0 < n → ∀ x, a = (List.range n).foldl f x) (x : α) :
    f a n = (List.range (n + 1)).foldl f x := by
  rw [List.range_succ, List.foldl_append]
  rcases Nat.eq_zero_or_pos n with rfl | hn
  · exact hfirst a x
  · rw [← h hn x]
    rfl

theorem foldl_oddIds_next (hfirst : ∀ x y, f x 1 = f y 1) (h : 2 ≤ n → ∀ x, a = (oddIds n).foldl f x) (hn : 1 ≤ n)
    (x : α) : (if (n % 2 == 1) = true then f a n else a) = (oddIds (n + 1)).foldl f x := by
  rcases Nat.lt_or_ge n 2 with hlt | hge
  · obtain rfl : n = 1 := by omega
    exact hfirst a x
  · rw [oddIds, List.range_succ, List.filter_append, List.foldl_append]
    change _ = List.foldl f ((oddIds n).foldl f x) _
    rw [← h hge x]
    by_cases hodd : (n % 2 == 1) = true
    · rw [if_pos hodd, List.filter_singleton, hodd]
      rfl
    · rw [if_neg hodd, List.filter_singleton, eq_false_of_ne_true hodd]
      rfl

end Folds

namespace Pixel

/-- A pixel that holds the means of the samples `S 0` to `S (n - 1)`. -/
structure Averages (d : BufferDesc) (S : Nat → Sample) (n : Nat) (px : Pixel) : Prop where
  accum : 0 < n → ∀ m, px.accum = (List.range n).foldl (fun m k => Blend.lerp4 m (S k).color (Blend.weight k)) m
  oddMean : 2 ≤ n → d.has .variance = true → ∀ m, px.oddMean =
    (oddIds n).foldl (fun m k => Blend.lerp4 m (S k).color (Blend.oddWeight k)) m
  depth : 0 < n → d.has .depth = true → ∀ m, px.shown.depth =
    (List.range n).foldl (fun m k => Blend.depth m (S k).depth (Blend.weight k)) m
  normal : 0 < n → d.has .normal = true → ∀ m, px.shown.normal =
    (List.range n).foldl (fun m k => Blend.lerp3 m (S k).normal (Blend.weight k)) m
  albedo : 0 < n → d.has .albedo = true → ∀ m, px.shown.albedo =
    (List.range n).foldl (fun m k => Blend.lerp3 m (S k).albedo (Blend.weight k)) m
  ids : 0 < n → px.shown.ids = (S 0).ids

variable {d : BufferDesc} {S : Nat → Sample} {n : Nat} {px : Pixel}

theorem averages_zero (d : BufferDesc) (S : Nat → Sample) (px : Pixel) : px.Averages d S 0 := by
  constructor <;> intro h <;> omega

/-- The next sample makes the next means. -/
theorem Averages.receive (hacc : d.has .accum = true) (h : px.Averages d S n) (pl : Pipeline) :
    (px.receive (.dense d) pl n (S n)).Averages d S (n + 1) := by
  have hw : (FoldRule.dense d).weight n = Blend.weight n := if_pos hacc
  refine ⟨?_, ?_, ?_, ?_, ?_, ?_⟩
  · intro _ m
    rw [← foldl_range_next (fun x y => ?_) h.accum m]
    · show (if d.has .accum = true then Blend.lerp4 px.accum (S n).color _ else px.accum) = _
      rw [if_pos hacc, hw]
    · rw [Blend.lerp4_of_full Blend.weight_first, Blend.lerp4_of_full Blend.weight_first]
  · intro hn hv m
    rw [← foldl_oddIds_next (fun x y => ?_) (fun hn => h.oddMean hn hv) (by omega) m]
    · show (if (d.has .variance && Blend.isOdd n) = true then Blend.lerp4 px.oddMean (S n).color _ else px.oddMean) = _
      rw [hv, Bool.true_and, Blend.isOdd_natCast]
    · rw [Blend.lerp4_of_full Blend.oddWeight_first, Blend.lerp4_of_full Blend.oddWeight_first]
  · intro _ hd m
    rw [← foldl_range_next (fun x y => ?_) (fun hn => h.depth hn hd) m]
    · show (if d.has .depth = true then Blend.depth px.shown.depth (S n).depth _ else px.shown.depth) = _
      rw [if_pos hd, hw]
    · rw [Blend.depth_of_full Blend.weight_first, Blend.depth_of_full Blend.weight_first]
  · intro _ hd m
    rw [← foldl_range_next (fun x y => ?_) (fun hn => h.normal hn hd) m]
    · show (if d.has .normal = true then Blend.lerp3 px.shown.normal (S n).normal _ else px.shown.normal) = _
      rw [if_pos hd, hw]
    · rw [Blend.lerp3_of_full Blend.weight_first, Blend.lerp3_of_full Blend.weight_first]
  · intro _ hd m
    rw [← foldl_range_next (fun x y => ?_) (fun hn => h.albedo hn hd) m]
    · show (if d.has .albedo = true then Blend.lerp3 px.shown.albedo (S n).albedo _ else px.shown.albedo) = _
      rw [if_pos hd, hw]
    · rw [Blend.lerp3_of_full Blend.weight_first, Blend.lerp3_of_full Blend.weight_first]
  · intro _
    show (if (!d.has .accum || Blend.isFirst n) = true then (S n).ids else px.shown.ids) = _
    rcases Nat.eq_zero_or_pos n with rfl | hn
    · rw [if_pos (by simp [Blend.isFirst])]
    · rw [if_neg (by simp [hacc, Blend.isFirst]; omega)]
      exact h.ids hn

/-- Samples that are received one after another leave their means. -/
theorem averages_receiveAll (hacc : d.has .accum = true) (pl : Pipeline) (S : Nat → Sample) (px : Pixel) (n : Nat) :
    (px.receiveAll (.dense d) pl ((List.range n).map S)).Averages d S n := by
  induction n with
  | zero => exact averages_zero ..
  | succ n ih =>
    rw [receiveAll_range_succ]
    exact ih.receive hacc pl

end Pixel

end AdaptiveFrame
