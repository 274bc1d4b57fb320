import AdaptiveFrame.Proofs.Grid.Points
import Mathlib.Algebra.GroupWithZero.Nat
import Mathlib.Data.List.Perm.Basic

/-!
# Counting positions

The area of a region counts the positions of a larger one that lie in it, and the areas of regions that share none count
the positions that lie in one of them (`sum_area_eq_countP`).
-/

namespace AdaptiveFrame

theorem countP_or_of_disjoint {α : Type} {p q : α → Bool} {xs : List α} (h : ∀ a, p a = true → q a = false) :
    xs.countP (fun a => p a || q a) = xs.countP p + xs.countP q := by
  induction xs with
  | nil => rfl
  | cons a xs ih =>
    rw [List.countP_cons, List.countP_cons, List.countP_cons, ih]
    cases hp : p a with
    | false => simp only [Bool.false_or, Bool.false_eq_true, if_false, Nat.add_zero, Nat.add_assoc]
    | true =>
      rw [h a hp]
      simp only [Bool.true_or, if_true, Bool.false_eq_true, if_false]
      omega

namespace Region

variable {r s : Region} {parts : List Region}

theorem countP_contains (h : ∀ p, r.contains p = true → s.contains p = true) :
    s.points.countP (fun p => r.contains p) = r.area := by
  have hperm : (s.points.filter fun p => r.contains p).Perm r.points := by
    refine (List.perm_ext_iff_of_nodup (s.nodup_points.filter _) r.nodup_points).2 fun p => ?_
    rw [List.mem_filter, mem_points, mem_points]
    exact ⟨And.right, fun hp => ⟨h p hp, hp⟩⟩
  rw [List.countP_eq_length_filter, hperm.length_eq, length_points]

/-- Regions without a common position are counted at once. -/
theorem sum_area_eq_countP (hin : ∀ r ∈ parts, ∀ p, r.contains p = true → s.contains p = true)
    (hapart : parts.Pairwise fun r r' => r.overlaps r' = false) :
    (parts.map area).sum = s.points.countP fun p => parts.any fun r => r.contains p := by
  induction parts with
  | nil => simp
  | cons r parts ih =>
    obtain ⟨hr, hrest⟩ := List.pairwise_cons.1 hapart
    have hnone : ∀ p, r.contains p = true → (parts.any fun r' => r'.contains p) = false := fun p hp =>
      List.any_eq_false.2 fun r' hr' => by simp [overlaps_eq_false_iff.1 (hr r' hr') p hp]
    simp only [List.any_cons]
    rw [List.map_cons, List.sum_cons, ih (fun r' hr' => hin r' (List.mem_cons_of_mem _ hr')) hrest,
      countP_or_of_disjoint hnone, countP_contains (hin r (List.mem_cons_self ..))]

/-- The positions of a region lie in another one or beyond it. -/
theorem area_eq_add_countP (r s : Region) :
    r.area = (r.intersect s).area + r.points.countP fun p => !s.contains p := by
  have hin : r.points.countP (fun p => s.contains p) = (r.intersect s).area := by
    rw [← countP_contains (r := r.intersect s) (s := r) fun p hp => (contains_intersect_iff.1 hp).1]
    refine List.countP_congr fun p hp => ?_
    rw [contains_intersect_iff, ← mem_points (r := r)]
    exact ⟨fun h => ⟨hp, h⟩, And.right⟩
  rw [← length_points r, List.length_eq_countP_add_countP (fun p => s.contains p), hin]
  simp only [Bool.not_eq_true, Bool.decide_eq_false]

end Region

end AdaptiveFrame
