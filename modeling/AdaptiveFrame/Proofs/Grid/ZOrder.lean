import AdaptiveFrame.Grid.ZOrder
import Mathlib.Algebra.Group.Nat.Defs

/-!
# The Z-order curve

The code of a position gives its coordinates back, so no two positions share one (`code_inj`). Its leading digits in
base 4 are the code of the block that the position lies in, the others that of the place in the block (`code_split`).
Sorting along the curve keeps the entries, in the order of their codes.
-/

namespace AdaptiveFrame.ZOrder

/-- The low bits of both numbers can be read off their interleaving. -/
theorem interleave_inj {bits x y x' y' : Nat} (hx : x < 2 ^ bits) (hy : y < 2 ^ bits) (hx' : x' < 2 ^ bits)
    (hy' : y' < 2 ^ bits) (h : interleave bits x y = interleave bits x' y') : x = x' ∧ y = y' := by
  induction bits generalizing x y x' y' with
  | zero => omega
  | succ bits ih =>
    simp only [interleave] at h
    obtain ⟨hhalfx, hhalfy⟩ : x / 2 = x' / 2 ∧ y / 2 = y' / 2 := by
      refine ih ?_ ?_ ?_ ?_ (by omega) <;> rw [Nat.pow_succ] at hx hy hx' hy' <;> omega
    omega

theorem code_inj {x y x' y' : Nat} (hx : x < 2 ^ 16) (hy : y < 2 ^ 16) (hx' : x' < 2 ^ 16) (hy' : y' < 2 ^ 16)
    (h : code x y = code x' y') : x = x' ∧ y = y' := interleave_inj hx hy hx' hy' h

/-! ## Blocks of a power of two -/

theorem interleave_add (k bits x y : Nat) :
    interleave (k + bits) x y = interleave k x y + 4 ^ k * interleave bits (x / 2 ^ k) (y / 2 ^ k) := by
  induction k generalizing x y with
  | zero => simp [interleave]
  | succ k ih =>
    rw [Nat.add_right_comm, interleave, ih, Nat.div_div_eq_div_mul, Nat.div_div_eq_div_mul, ← Nat.pow_succ',
      interleave, Nat.mul_add, ← Nat.mul_assoc, ← Nat.pow_succ', Nat.add_assoc _ (4 * _)]

theorem interleave_zero (bits : Nat) : interleave bits 0 0 = 0 := by
  induction bits with
  | zero => rfl
  | succ bits ih => simp [interleave, ih]

theorem interleave_lt (bits x y : Nat) : interleave bits x y < 4 ^ bits := by
  induction bits generalizing x y with
  | zero => simp [interleave]
  | succ bits ih =>
    have hrest := ih (x / 2) (y / 2)
    rw [interleave, Nat.pow_succ]
    omega

/-- Bits above those that are interleaved do not count. -/
theorem interleave_mod (k x y : Nat) : interleave k (x % 2 ^ k) (y % 2 ^ k) = interleave k x y := by
  induction k generalizing x y with
  | zero => rfl
  | succ k ih =>
    have hmod : ∀ n, n % 2 ^ (k + 1) % 2 = n % 2 := fun n => Nat.mod_mod_of_dvd n (Nat.dvd_mul_left ..)
    have hdiv : ∀ n, n % 2 ^ (k + 1) / 2 = n / 2 % 2 ^ k := fun n => by rw [Nat.pow_succ', Nat.mod_mul_right_div_self]
    rw [interleave, interleave, hmod, hmod, hdiv, hdiv, ih]

theorem interleave_eq_of_lt {k x y : Nat} (hx : x < 2 ^ k) (hy : y < 2 ^ k) (bits : Nat) :
    interleave (k + bits) x y = interleave k x y := by
  rw [interleave_add, Nat.div_eq_of_lt hx, Nat.div_eq_of_lt hy, interleave_zero, Nat.mul_zero, Nat.add_zero]

theorem code_zero : code 0 0 = 0 := interleave_zero 16

section Blocks

variable {x y : Nat}

/-- The code of a position in terms of its block and the place in it. -/
theorem code_split (hx : x < 2 ^ 16) (hy : y < 2 ^ 16) (k : Nat) :
    code x y = 4 ^ k * code (x / 2 ^ k) (y / 2 ^ k) + code (x % 2 ^ k) (y % 2 ^ k) := by
  rcases Nat.le_total k 16 with hk | hk
  · obtain ⟨bits, hbits⟩ := Nat.exists_eq_add_of_le hk
    have hpow : 2 ^ 16 = 2 ^ k * 2 ^ bits := by rw [hbits, Nat.pow_add]
    have hquot : ∀ {n : Nat}, n < 2 ^ 16 → n / 2 ^ k < 2 ^ bits := fun h => Nat.div_lt_of_lt_mul (hpow ▸ h)
    have hrest : ∀ n, n % 2 ^ k < 2 ^ k := fun n => Nat.mod_lt n (Nat.two_pow_pos k)
    have hblock : code (x / 2 ^ k) (y / 2 ^ k) = interleave bits (x / 2 ^ k) (y / 2 ^ k) := by
      rw [code, hbits, Nat.add_comm, interleave_eq_of_lt (hquot hx) (hquot hy)]
    have hplace : code (x % 2 ^ k) (y % 2 ^ k) = interleave k x y := by
      rw [code, hbits, interleave_eq_of_lt (hrest x) (hrest y), interleave_mod]
    rw [hblock, hplace, code, hbits, interleave_add, Nat.add_comm]
  · have hpow : 2 ^ 16 ≤ 2 ^ k := Nat.pow_le_pow_right (by decide) hk
    rw [Nat.div_eq_of_lt (Nat.lt_of_lt_of_le hx hpow), Nat.div_eq_of_lt (Nat.lt_of_lt_of_le hy hpow),
      Nat.mod_eq_of_lt (Nat.lt_of_lt_of_le hx hpow), Nat.mod_eq_of_lt (Nat.lt_of_lt_of_le hy hpow), code_zero,
      Nat.mul_zero, Nat.zero_add]

theorem code_lt {k : Nat} (hx : x < 2 ^ k) (hy : y < 2 ^ k) : code x y < 4 ^ k := by
  rcases Nat.le_total k 16 with hk | hk
  · obtain ⟨bits, hbits⟩ := Nat.exists_eq_add_of_le hk
    rw [code, hbits, interleave_eq_of_lt hx hy]
    exact interleave_lt k x y
  · exact Nat.lt_of_lt_of_le (interleave_lt 16 x y) (Nat.pow_le_pow_right (by decide) hk)

/-- The positions of one block share the leading digits of their codes. -/
theorem code_div (hx : x < 2 ^ 16) (hy : y < 2 ^ 16) (k : Nat) :
    code x y / 4 ^ k = code (x / 2 ^ k) (y / 2 ^ k) := by
  have hplace : code (x % 2 ^ k) (y % 2 ^ k) < 4 ^ k :=
    code_lt (Nat.mod_lt x (Nat.two_pow_pos k)) (Nat.mod_lt y (Nat.two_pow_pos k))
  rw [code_split hx hy k, Nat.mul_add_div (Nat.pow_pos (by decide)), Nat.div_eq_of_lt hplace, Nat.add_zero]

end Blocks

/-! ## Sorting along the curve -/

variable {α β : Type}

/-- A list that is sorted by a key falls into the entries below a value, those that have it and those above. -/
theorem filter_append_of_pairwise {key : α → Nat} {xs : List α} (h : xs.Pairwise fun a b => key a ≤ key b)
    (v : Nat) :
    (xs.filter fun a => key a < v) ++ ((xs.filter fun a => key a = v) ++ xs.filter fun a => v < key a) = xs := by
  induction xs with
  | nil => rfl
  | cons a xs ih =>
    obtain ⟨ha, hxs⟩ := List.pairwise_cons.1 h
    have hrest := ih hxs
    have hbelow : v ≤ key a → (xs.filter fun b => key b < v) = [] := fun hle =>
      List.filter_eq_nil_iff.2 fun b hb => by simpa using Nat.le_trans hle (ha b hb)
    rcases Nat.lt_trichotomy (key a) v with hlt | heq | hgt
    · have hne : key a ≠ v := by omega
      have hle : ¬ v < key a := by omega
      simp only [List.filter_cons, hlt, hne, hle, decide_true, decide_false, if_true, Bool.false_eq_true, if_false,
        List.cons_append, hrest]
    · rw [hbelow (by omega), List.nil_append] at hrest
      simp only [List.filter_cons, heq, Nat.lt_irrefl, decide_true, decide_false, if_true, Bool.false_eq_true, if_false,
        hbelow (Nat.le_of_eq heq.symm), List.nil_append, List.cons_append, hrest]
    · have hle : ¬ key a < v := by omega
      have hne : key a ≠ v := by omega
      have hequal : (xs.filter fun b => key b = v) = [] :=
        List.filter_eq_nil_iff.2 fun b hb => by
          have := ha b hb
          simp only [decide_eq_true_eq]
          omega
      rw [hbelow (by omega), hequal, List.nil_append, List.nil_append] at hrest
      simp only [List.filter_cons, hle, hne, hgt, decide_true, decide_false, if_true, Bool.false_eq_true, if_false,
        hbelow (by omega), hequal, List.nil_append, hrest]

/-- So the entries of one key are consecutive. -/
theorem filter_isInfix_of_pairwise {key : α → Nat} {xs : List α} (h : xs.Pairwise fun a b => key a ≤ key b)
    (v : Nat) :
    (xs.filter fun a => key a = v) <:+: xs :=
  ⟨_, _, (List.append_assoc ..).trans (filter_append_of_pairwise h v)⟩

theorem sortBy_perm (position : α → Nat × Nat) (xs : List α) : (sortBy position xs).Perm xs := by
  refine ((List.mergeSort_perm ..).map Prod.snd).trans (List.Perm.of_eq ?_)
  rw [List.map_map]
  exact List.map_id xs

theorem pairwise_sortBy (position : α → Nat × Nat) (xs : List α) : (sortBy position xs).Pairwise fun a b =>
    code (position a).1 (position a).2 ≤ code (position b).1 (position b).2 := by
  let le (a b : Nat × α) : Bool := a.1 ≤ b.1
  have htrans : ∀ a b c, le a b = true → le b c = true → le a c = true := by
    simp only [le, decide_eq_true_eq]
    omega
  have htotal : ∀ a b, (le a b || le b a) = true := by
    simp only [le, Bool.or_eq_true, decide_eq_true_eq]
    omega
  have hsorted := List.pairwise_mergeSort htrans htotal (xs.map fun a => (code (position a).1 (position a).2, a))
  refine List.pairwise_map.2 (hsorted.imp_of_mem fun {a b} ha hb hab => ?_)
  obtain ⟨c, -, rfl⟩ := List.mem_map.1 (List.mem_mergeSort.1 ha)
  obtain ⟨e, -, rfl⟩ := List.mem_map.1 (List.mem_mergeSort.1 hb)
  exact of_decide_eq_true hab

/-- Entries that are sorted by something attached to them are sorted as they are without it. -/
theorem sortBy_map {f : α → β} {g : β → α} (h : ∀ a, g (f a) = a) (position : β → Nat × Nat)
    (xs : List α) : (sortBy position (xs.map f)).map g = sortBy (fun a => position (f a)) xs := by
  have hsort := List.map_mergeSort (f := fun c : Nat × β => (c.1, g c.2)) (r := fun a b => a.1 ≤ b.1)
    (s := fun a b => a.1 ≤ b.1) (l := (xs.map f).map fun b => (code (position b).1 (position b).2, b))
    fun _ _ _ _ => rfl
  have hkeys : ((xs.map f).map fun b => (code (position b).1 (position b).2, b)).map (fun c => (c.1, g c.2)) =
      xs.map fun a => (code (position (f a)).1 (position (f a)).2, a) := by
    rw [List.map_map, List.map_map]
    refine List.map_congr_left fun a _ => ?_
    simp only [Function.comp_apply, h]
  rw [hkeys] at hsort
  unfold sortBy
  rw [← hsort]
  simp only [List.map_map]
  rfl

end AdaptiveFrame.ZOrder
