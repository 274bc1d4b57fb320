import Mathlib.Data.List.Nodup

/-!
# Runs of writes

A loop that writes one entry after another is described cell by cell. A cell that no entry hits keeps its
value; a cell that exactly one entry hits is changed by that entry alone, wherever it stands in the list.
Entries that commute can be written in any order. `I` is what the loop keeps of the state on its way.
-/

namespace AdaptiveFrame.Writes

variable {σ ι α : Type} {I : σ → Prop} {step : σ → ι → σ}

theorem inv_foldl {xs : List ι} {s : σ} (hs : I s) (hinv : ∀ s, ∀ x ∈ xs, I s → I (step s x)) :
    I (xs.foldl step s) := by
  induction xs generalizing s with
  | nil => exact hs
  | cons x xs ih =>
    rw [List.foldl_cons]
    refine ih (hinv s x (by simp) hs) ?_
    intro s y hy
    exact hinv s y (by simp [hy])

theorem read_foldl_of_miss (read : σ → α) {xs : List ι} {s : σ} (hs : I s)
    (hinv : ∀ s, ∀ x ∈ xs, I s → I (step s x)) (hmiss : ∀ s, ∀ x ∈ xs, I s → read (step s x) = read s) : read (xs.foldl step s) = read s := by
  induction xs generalizing s with
  | nil => rfl
  | cons x xs ih =>
    have hinv' : ∀ s, ∀ y ∈ xs, I s → I (step s y) := by
      intro s y hy
      exact hinv s y (by simp [hy])
    have hmiss' : ∀ s, ∀ y ∈ xs, I s → read (step s y) = read s := by
      intro s y hy
      exact hmiss s y (by simp [hy])
    rw [List.foldl_cons, ih (hinv s x (by simp) hs) hinv' hmiss', hmiss s x (by simp) hs]

/-- A value that one entry of a list changes is changed once, wherever the entry stands. -/
theorem read_foldl_of_hit (read : σ → α) {f : α → α} {x : ι} {xs : List ι} {s : σ} (hs : I s)
    (hinv : ∀ s, ∀ y ∈ xs, I s → I (step s y)) (hnd : xs.Nodup) (hx : x ∈ xs)
    (hmiss : ∀ s, ∀ y ∈ xs, y ≠ x → I s → read (step s y) = read s)
    (hhit : ∀ s, I s → read (step s x) = f (read s)) : read (xs.foldl step s) = f (read s) := by
  induction xs generalizing s with
  | nil => simp at hx
  | cons y xs ih =>
    have hinv' : ∀ s, ∀ z ∈ xs, I s → I (step s z) := by
      intro s z hz
      exact hinv s z (by simp [hz])
    have hs' : I (step s y) := hinv s y (by simp) hs
    obtain ⟨hy, hnd⟩ := List.nodup_cons.1 hnd
    rw [List.foldl_cons]
    rcases List.mem_cons.1 hx with rfl | hx
    · have hmiss' : ∀ s, ∀ z ∈ xs, I s → read (step s z) = read s := by
        intro s z hz
        exact hmiss s z (by simp [hz]) (by rintro rfl; exact hy hz)
      rw [read_foldl_of_miss read hs' hinv' hmiss', hhit s hs]
    · have hne : y ≠ x := by
        rintro rfl
        exact hy hx
      have hmiss' : ∀ s, ∀ z ∈ xs, z ≠ x → I s → read (step s z) = read s := by
        intro s z hz
        exact hmiss s z (by simp [hz])
      rw [ih hs' hinv' hnd hx hmiss', hmiss s y (by simp) hne hs]

/-- A value that only the entry `x` changes is changed if `x` is in the list. -/
theorem read_foldl_ite [DecidableEq ι] (read : σ → α) {f : α → α} {x : ι} {xs : List ι} {s : σ} (hs : I s)
    (hinv : ∀ s, ∀ y ∈ xs, I s → I (step s y)) (hnd : xs.Nodup)
    (hread : ∀ s, ∀ y ∈ xs, I s → read (step s y) = if y = x then f (read s) else read s) :
    read (xs.foldl step s) = if x ∈ xs then f (read s) else read s := by
  have hmiss : ∀ s, ∀ y ∈ xs, y ≠ x → I s → read (step s y) = read s := by
    intro s y hy hne hI
    rw [hread s y hy hI, if_neg hne]
  by_cases hx : x ∈ xs
  · rw [if_pos hx]
    refine read_foldl_of_hit read hs hinv hnd hx hmiss ?_
    intro s hI
    rw [hread s x hx hI, if_pos rfl]
  · rw [if_neg hx]
    refine read_foldl_of_miss read hs hinv ?_
    intro s y hy
    exact hmiss s y hy (by rintro rfl; exact hx hy)

/-- What one entry brings about and all entries keep holds in the end. -/
theorem holds_foldl_of_hit {P : σ → Prop} {xs : List ι} {s : σ} (hs : I s)
    (hinv : ∀ s, ∀ x ∈ xs, I s → I (step s x)) (hkeep : ∀ s, ∀ x ∈ xs, I s → P s → P (step s x))
    (hhit : ∃ x ∈ xs, ∀ s, I s → P (step s x)) : P (xs.foldl step s) := by
  induction xs generalizing s with
  | nil => simp at hhit
  | cons x xs ih =>
    have hinv' : ∀ s, ∀ y ∈ xs, I s → I (step s y) := by
      intro s y hy
      exact hinv s y (by simp [hy])
    have hkeep' : ∀ s, ∀ y ∈ xs, I s → P s → P (step s y) := by
      intro s y hy
      exact hkeep s y (by simp [hy])
    have hs' : I (step s x) := hinv s x (by simp) hs
    obtain ⟨y, hy, hset⟩ := hhit
    rw [List.foldl_cons]
    rcases List.mem_cons.1 hy with rfl | hy
    · have hboth : I (xs.foldl step (step s y)) ∧ P (xs.foldl step (step s y)) := by
        refine inv_foldl (I := fun s => I s ∧ P s) ⟨hs', hset s hs⟩ ?_
        rintro s z hz ⟨hI, hP⟩
        exact ⟨hinv' s z hz hI, hkeep' s z hz hI hP⟩
      exact hboth.2
    · exact ih hs' hinv' hkeep' ⟨y, hy, hset⟩

/-- Entries that change nothing can be left out. -/
theorem foldl_filter {P : ι → Bool} {xs : List ι} {s : σ} (hs : I s) (hinv : ∀ s, ∀ x ∈ xs, I s → I (step s x))
    (hidle : ∀ s, ∀ x ∈ xs, P x = false → I s → step s x = s) : (xs.filter P).foldl step s = xs.foldl step s := by
  induction xs generalizing s with
  | nil => rfl
  | cons x xs ih =>
    have hs' : I (step s x) := hinv s x (by simp) hs
    have hrest : (xs.filter P).foldl step (step s x) = xs.foldl step (step s x) := by
      refine ih hs' ?_ ?_
      · intro s y hy
        exact hinv s y (by simp [hy])
      · intro s y hy
        exact hidle s y (by simp [hy])
    rw [List.foldl_cons, ← hrest]
    rcases hx : P x with _ | _
    · rw [List.filter_cons_of_neg (by simp [hx]), hidle s x (by simp) hx hs]
    · rw [List.filter_cons_of_pos hx, List.foldl_cons]

/-- Entries that commute, from every state that the loop can meet, are written in any order. -/
theorem foldl_perm {xs ys : List ι} (h : xs.Perm ys) {s : σ} (hs : I s) (hinv : ∀ s, ∀ x ∈ xs, I s → I (step s x))
    (hcomm : ∀ s, ∀ x ∈ xs, ∀ y ∈ xs, I s → step (step s x) y = step (step s y) x) :
    ys.foldl step s = xs.foldl step s := by
  induction h generalizing s with
  | nil => rfl
  | cons x _ ih =>
    refine ih (hinv s x (by simp) hs) ?_ ?_
    · intro s y hy
      exact hinv s y (by simp [hy])
    · intro s y hy z hz
      exact hcomm s y (by simp [hy]) z (by simp [hz])
  | swap x y xs =>
    simp only [List.foldl_cons]
    rw [hcomm s x (by simp) y (by simp) hs]
  | trans h₁ h₂ ih₁ ih₂ =>
    rw [← ih₁ hs hinv hcomm]
    refine ih₂ hs ?_ ?_
    · intro s x hx
      exact hinv s x (h₁.mem_iff.2 hx)
    · intro s x hx y hy
      exact hcomm s x (h₁.mem_iff.2 hx) y (h₁.mem_iff.2 hy)

end AdaptiveFrame.Writes
