import AdaptiveFrame.Accum.ErrorTracker
import AdaptiveFrame.Proofs.Grid.Points
import Mathlib.Algebra.BigOperators.Group.List.Basic
import Mathlib.Data.List.Perm.Subperm
import Mathlib.Algebra.GroupWithZero.Nat

/-!
# The boxes of an error tracker

One refinement pass keeps, drops or halves each box (`Shrunk`), whatever the errors are. Three things
follow for every use of a tracker: the boxes never overlap and never leave the grid (`LaidOut`), between
two clears they only shrink, and each pass that changes them uses up some of their `potential`, so at most
`2 * n - 1` passes do on a grid of `n` tasks.
-/

namespace AdaptiveFrame.ErrorTracker

/-- Boxes that share out a part of the grid. -/
structure LaidOut (grid : Point) (rs : List Region) : Prop where
  pos : ∀ r ∈ rs, 0 < r.area
  inside : ∀ r ∈ rs, (Region.ofSize grid).containsRegion r = true
  disjoint : rs.Pairwise fun r s => r.overlaps s = false

/-- What one pass can make of a list of boxes. -/
inductive Shrunk : List Region → List Region → Prop
  | nil : Shrunk [] []
  | keep (r : Region) {rs ss : List Region} : Shrunk rs ss → Shrunk (r :: rs) (r :: ss)
  | drop (r : Region) {rs ss : List Region} : Shrunk rs ss → Shrunk (r :: rs) ss
  | halve {r : Region} {rs ss : List Region} : 2 < r.area → Shrunk rs ss →
      Shrunk (r :: rs) (r.split.1 :: r.split.2 :: ss)

namespace Shrunk

theorem refl : ∀ rs : List Region, Shrunk rs rs
  | [] => nil
  | r :: rs => keep r (refl rs)

end Shrunk

theorem shrink_cases (threshold : Float32) (r : Region) (sum largest : Float32) :
    shrink threshold r sum largest = [r] ∨ shrink threshold r sum largest = [] ∨
      2 < r.area ∧ shrink threshold r sum largest = [r.split.1, r.split.2] := by
  unfold shrink
  split
  · split
    · exact .inr (.inl rfl)
    · rename_i h
      simp only [Bool.or_eq_true, decide_eq_true_eq, not_or] at h
      exact .inr (.inr ⟨by omega, rfl⟩)
  · exact .inl rfl

theorem refineBoxes_cons_boxes (grid : Point) (threshold : Float32) (errors : Array Float32) (r : Region)
    (rs : List Region) : (refineBoxes grid threshold errors (r :: rs)).2 =
      shrink threshold r (boxErrors errors (taskIds grid r)).1 (boxErrors errors (taskIds grid r)).2 ++
        (refineBoxes grid threshold (refineBox grid threshold errors r).1 rs).2 := rfl

theorem refineBoxes_shrunk (grid : Point) (threshold : Float32) (errors : Array Float32) (rs : List Region) :
    Shrunk rs (refineBoxes grid threshold errors rs).2 := by
  induction rs generalizing errors with
  | nil => exact .nil
  | cons r rs ih =>
    have hrest := ih (refineBox grid threshold errors r).1
    rw [refineBoxes_cons_boxes]
    rcases shrink_cases threshold r (boxErrors errors (taskIds grid r)).1 (boxErrors errors (taskIds grid r)).2
      with h | h | ⟨hr, h⟩
    · rw [h]
      exact hrest.keep r
    · rw [h]
      exact hrest.drop r
    · rw [h]
      exact hrest.halve hr

theorem refine_shrunk (t : ErrorTracker) (threshold : Float32) : Shrunk t.regions (t.refine threshold).1.regions := by
  unfold refine
  split
  · exact refineBoxes_shrunk t.grid threshold t.errors t.regions
  · exact .refl _

/-! ## Staying laid out -/

/-- Every box that is left lies in a box that was there. -/
theorem Shrunk.sub {rs ss : List Region} (h : Shrunk rs ss) (hpos : ∀ r ∈ rs, 0 < r.area) :
    ∀ s ∈ ss, 0 < s.area ∧ ∃ r ∈ rs, r.containsRegion s = true := by
  induction h with
  | nil => simp
  | keep r _ ih =>
    intro s hs
    rcases List.mem_cons.1 hs with rfl | hs
    · exact ⟨hpos s (by simp), s, by simp, Region.containsRegion_refl⟩
    · obtain ⟨hp, q, hq, hc⟩ := ih (fun q hq => hpos q (by simp [hq])) s hs
      exact ⟨hp, q, by simp [hq], hc⟩
  | drop r _ ih =>
    intro s hs
    obtain ⟨hp, q, hq, hc⟩ := ih (fun q hq => hpos q (by simp [hq])) s hs
    exact ⟨hp, q, by simp [hq], hc⟩
  | @halve r _ _ hr _ ih =>
    intro s hs
    have hc := Region.containsRegion_split (hpos r (by simp))
    have hp := Region.area_split_pos (Nat.lt_trans (by decide) hr)
    rcases List.mem_cons.1 hs with rfl | hs
    · exact ⟨hp.1, r, by simp, hc.1⟩
    · rcases List.mem_cons.1 hs with rfl | hs
      · exact ⟨hp.2, r, by simp, hc.2⟩
      · obtain ⟨hp, q, hq, hc⟩ := ih (fun q hq => hpos q (by simp [hq])) s hs
        exact ⟨hp, q, by simp [hq], hc⟩

theorem overlaps_eq_false_of_sub {r s r' s' : Region} (h : r.overlaps s = false) (hr : r.containsRegion r' = true)
    (hs : s.containsRegion s' = true) : r'.overlaps s' = false := by
  rw [Region.overlaps_eq_false_iff] at h ⊢
  intro p hp
  have hp := h p (Region.contains_of_containsRegion hr hp)
  by_contra hc
  rw [Region.contains_of_containsRegion hs (by simpa using hc)] at hp
  cases hp

theorem Shrunk.disjoint {rs ss : List Region} (h : Shrunk rs ss) (hpos : ∀ r ∈ rs, 0 < r.area)
    (hd : rs.Pairwise fun r s => r.overlaps s = false) : ss.Pairwise fun r s => r.overlaps s = false := by
  induction h with
  | nil => exact .nil
  | @keep r rs ss h ih =>
    obtain ⟨hr, hd⟩ := List.pairwise_cons.1 hd
    have hpos : ∀ q ∈ rs, 0 < q.area := fun q hq => hpos q (by simp [hq])
    refine List.pairwise_cons.2 ⟨fun s hs => ?_, ih hpos hd⟩
    obtain ⟨-, q, hq, hc⟩ := h.sub hpos s hs
    exact overlaps_eq_false_of_sub (hr q hq) Region.containsRegion_refl hc
  | drop r _ ih => exact ih (fun q hq => hpos q (by simp [hq])) (List.pairwise_cons.1 hd).2
  | @halve r rs ss hr h ih =>
    obtain ⟨hrs, hd⟩ := List.pairwise_cons.1 hd
    have hsplit := Region.containsRegion_split (hpos r (by simp))
    have hpos : ∀ q ∈ rs, 0 < q.area := fun q hq => hpos q (by simp [hq])
    -- What is left of another box is as far from either half as that box was from the whole.
    have hfar : ∀ r' : Region, r.containsRegion r' = true → ∀ s ∈ ss, r'.overlaps s = false := by
      intro r' hr' s hs
      obtain ⟨-, q, hq, hc⟩ := h.sub hpos s hs
      exact overlaps_eq_false_of_sub (hrs q hq) hr' hc
    refine List.pairwise_cons.2 ⟨fun s hs => ?_, List.pairwise_cons.2 ⟨hfar _ hsplit.2, ih hpos hd⟩⟩
    rcases List.mem_cons.1 hs with rfl | hs
    · exact Region.overlaps_eq_false_iff.2 fun p hp => Region.split_disjoint hp
    · exact hfar _ hsplit.1 s hs

theorem LaidOut.shrunk {grid : Point} {rs ss : List Region} (h : LaidOut grid rs) (hs : Shrunk rs ss) :
    LaidOut grid ss where
  pos s hm := (hs.sub h.pos s hm).1
  inside s hm := by
    obtain ⟨-, r, hr, hc⟩ := hs.sub h.pos s hm
    exact Region.containsRegion_trans (h.inside r hr) hc
  disjoint := hs.disjoint h.pos h.disjoint

theorem laidOut_wholeGrid (grid : Point) : LaidOut grid (wholeGrid grid) := by
  unfold wholeGrid
  split
  · exact ⟨by simp, by simp, .nil⟩
  · rename_i h
    refine ⟨?_, ?_, List.pairwise_singleton ..⟩
    · intro r hr
      rw [List.mem_singleton.1 hr]
      exact Nat.pos_of_ne_zero (by simpa using h : grid.area ≠ 0)
    · intro r hr
      rw [List.mem_singleton.1 hr]
      exact Region.containsRegion_refl

/-! ## Counting -/

theorem nodup_flatMap_points {rs : List Region} (h : rs.Pairwise fun r s => r.overlaps s = false) :
    (rs.flatMap Region.points).Nodup := by
  rw [List.nodup_flatMap]
  refine ⟨fun r _ => r.nodup_points, h.imp fun {r s} hrs => ?_⟩
  intro p hp hq
  have := Region.overlaps_eq_false_iff.1 hrs p (Region.mem_points.1 hp)
  rw [Region.mem_points.1 hq] at this
  cases this

/-- Laid out boxes have no more positions than the grid. -/
theorem LaidOut.area_le {grid : Point} {rs : List Region} (h : LaidOut grid rs) :
    (rs.map Region.area).sum ≤ grid.area := by
  have hsub : rs.flatMap Region.points ⊆ (Region.ofSize grid).points := by
    intro p hp
    obtain ⟨r, hr, hp⟩ := List.mem_flatMap.1 hp
    exact Region.mem_points.2 (Region.contains_of_containsRegion (h.inside r hr) (Region.mem_points.1 hp))
  have hle := (List.Nodup.subperm (nodup_flatMap_points h.disjoint) hsub).length_le
  simp only [List.length_flatMap, Region.length_points] at hle
  exact hle

theorem LaidOut.length_le {grid : Point} {rs : List Region} (h : LaidOut grid rs) : rs.length ≤ grid.area := by
  refine Nat.le_trans ?_ h.area_le
  have hone : ∀ a ∈ rs.map Region.area, 1 ≤ a := by
    intro a ha
    obtain ⟨r, hr, rfl⟩ := List.mem_map.1 ha
    exact h.pos r hr
  simpa using List.length_le_sum_of_one_le _ hone

/-- What passes can still change: a box of `a` tasks allows `2 * a - 1` changes. -/
def potential (rs : List Region) : Nat := (rs.map fun r => 2 * r.area - 1).sum

theorem potential_cons (r : Region) (rs : List Region) : potential (r :: rs) = 2 * r.area - 1 + potential rs := by
  simp [potential]

theorem Shrunk.potential_lt {rs ss : List Region} (h : Shrunk rs ss) (hpos : ∀ r ∈ rs, 0 < r.area) :
    ss = rs ∨ potential ss < potential rs := by
  induction h with
  | nil => exact .inl rfl
  | keep r _ ih =>
    rcases ih fun q hq => hpos q (by simp [hq]) with h | h
    · exact .inl (by rw [h])
    · exact .inr (by simp only [potential_cons]; omega)
  | drop r _ ih =>
    have hr := hpos r (by simp)
    have hle := ih fun q hq => hpos q (by simp [hq])
    refine .inr ?_
    rw [potential_cons]
    rcases hle with h | h
    · rw [h]; omega
    · omega
  | @halve r _ _ hr _ ih =>
    have hsplit := Region.area_split r
    have hp := Region.area_split_pos (Nat.lt_trans (by decide) hr)
    have hle := ih fun q hq => hpos q (by simp [hq])
    refine .inr ?_
    simp only [potential_cons]
    rcases hle with h | h
    · rw [h]; omega
    · omega

theorem LaidOut.potential_le {grid : Point} {rs : List Region} (h : LaidOut grid rs) :
    potential rs ≤ 2 * grid.area - 1 := by
  have hsum : ∀ qs : List Region, (∀ q ∈ qs, 0 < q.area) →
      potential qs + qs.length = 2 * (qs.map Region.area).sum := by
    intro qs hqs
    induction qs with
    | nil => rfl
    | cons q qs ih =>
      have hq := hqs q (by simp)
      have ih := ih fun p hp => hqs p (by simp [hp])
      simp only [potential_cons, List.length_cons, List.map_cons, List.sum_cons]
      omega
  have harea := h.area_le
  have hrs := hsum rs h.pos
  cases rs with
  | nil => simp [potential]
  | cons r rs =>
    rw [List.length_cons] at hrs
    omega

/-! ## Every use of a tracker -/

/-- One use of a tracker. -/
inductive Step where
  /-- Replaces the error of one task. -/
  | update (task : Point) (error : Float32)
  /-- Writes over all errors. -/
  | write (f : Nat → Float32 → Float32)
  | refine (threshold : Float32)
  | clear

namespace Step

def apply : Step → ErrorTracker → ErrorTracker
  | update task error, t => t.update task error
  | write f, t => t.mapErrors f
  | refine threshold, t => (t.refine threshold).1
  | clear, t => t.clear

end Step

/-- The tracker after some uses. -/
def play (t : ErrorTracker) (steps : List Step) : ErrorTracker := steps.foldl (fun t s => s.apply t) t

/-- Number of passes that change the boxes. -/
def changes : ErrorTracker → List Step → Nat
  | _, [] => 0
  | t, s :: ss =>
    (match s with
      | .refine _ => if (s.apply t).regions = t.regions then 0 else 1
      | _ => 0) + changes (s.apply t) ss

/-- Whether a box still holds a task. -/
def Covered (t : ErrorTracker) (task : Point) : Prop := ∃ r ∈ t.regions, r.contains task = true

theorem get_fresh (grid : Point) (i : Nat) : (fresh grid).get i = Binary32.posInf := by
  unfold get fresh
  rw [Array.getElem?_replicate]
  split <;> rfl

theorem get_mapErrors (t : ErrorTracker) (f : Nat → Float32 → Float32) {i : Nat} (hi : i < t.errors.size) :
    (t.mapErrors f).get i = f i (t.get i) := by
  rw [get, mapErrors, Array.getElem?_mapIdx, get, Array.getElem?_eq_getElem hi]
  rfl

theorem isEnabled_eq (t : ErrorTracker) : t.isEnabled = decide (0 < t.grid.area) := by
  rw [← t.size_eq, isEnabled, Array.isEmpty]
  by_cases hsize : t.errors.size = 0
  · simp [hsize]
  · simp [hsize, Nat.pos_of_ne_zero hsize]

/-- Trackers of one grid with the same boxes and the same errors are the same. -/
theorem ext_get {t u : ErrorTracker} (hgrid : t.grid = u.grid) (hregions : t.regions = u.regions)
    (hget : ∀ i, i < t.grid.area → t.get i = u.get i) : t = u := by
  obtain ⟨grid, errors, regions, hsize⟩ := t
  obtain ⟨grid', errors', regions', hsize'⟩ := u
  obtain rfl : grid = grid' := hgrid
  obtain rfl : regions = regions' := hregions
  obtain rfl : errors = errors' := by
    refine Array.ext (hsize.trans hsize'.symm) ?_
    intro i hi hi'
    have herror := hget i (hsize ▸ hi)
    rwa [get, get, Array.getElem?_eq_getElem hi, Array.getElem?_eq_getElem hi'] at herror
  rfl

theorem grid_refine (t : ErrorTracker) (threshold : Float32) : (t.refine threshold).1.grid = t.grid := by
  unfold refine
  split <;> rfl

theorem grid_apply (s : Step) (t : ErrorTracker) : (s.apply t).grid = t.grid := by
  cases s with
  | refine threshold => exact grid_refine t threshold
  | _ => rfl

theorem apply_shrunk {s : Step} (hs : s ≠ .clear) (t : ErrorTracker) : Shrunk t.regions (s.apply t).regions := by
  cases s with
  | update task error => exact .refl _
  | write f => exact .refl _
  | refine threshold => exact refine_shrunk t threshold
  | clear => exact absurd rfl hs

theorem LaidOut.apply {t : ErrorTracker} (h : LaidOut t.grid t.regions) (s : Step) :
    LaidOut t.grid (s.apply t).regions := by
  by_cases hs : s = .clear
  · rw [hs]
    exact laidOut_wholeGrid t.grid
  · exact h.shrunk (apply_shrunk hs t)

theorem LaidOut.play {t : ErrorTracker} (h : LaidOut t.grid t.regions) (steps : List Step) :
    LaidOut t.grid (t.play steps).regions ∧ (t.play steps).grid = t.grid := by
  induction steps generalizing t with
  | nil => exact ⟨h, rfl⟩
  | cons s ss ih =>
    have hg := grid_apply s t
    have h := h.apply s
    rw [← hg] at h
    have := ih h
    rw [hg] at this
    exact this

theorem Covered.of_apply {t : ErrorTracker} (h : LaidOut t.grid t.regions) {s : Step} (hs : s ≠ .clear) {task : Point}
    (hc : Covered (s.apply t) task) : Covered t task := by
  obtain ⟨q, hq, hc⟩ := hc
  obtain ⟨-, r, hr, hrq⟩ := (apply_shrunk hs t).sub h.pos q hq
  exact ⟨r, hr, Region.contains_of_containsRegion hrq hc⟩

theorem Covered.of_play {task : Point} {steps : List Step} {t : ErrorTracker} (h : LaidOut t.grid t.regions)
    (hs : Step.clear ∉ steps) (hc : Covered (t.play steps) task) : Covered t task := by
  induction steps generalizing t with
  | nil => exact hc
  | cons s ss ih =>
    simp only [List.mem_cons, not_or] at hs
    have hlaid : LaidOut (s.apply t).grid (s.apply t).regions := by
      rw [grid_apply]
      exact h.apply s
    exact Covered.of_apply h (Ne.symm hs.1) (ih hlaid hs.2 hc)

/-- Every pass that changes the boxes uses up some of their potential. -/
theorem changes_add_potential_le {steps : List Step} {t : ErrorTracker} (h : LaidOut t.grid t.regions)
    (hs : Step.clear ∉ steps) : changes t steps + potential (t.play steps).regions ≤ potential t.regions := by
  induction steps generalizing t with
  | nil => simp [changes, play]
  | cons s ss ih =>
    simp only [List.mem_cons, not_or] at hs
    have hlaid : LaidOut (s.apply t).grid (s.apply t).regions := by
      rw [grid_apply]
      exact h.apply s
    have hrest : changes (s.apply t) ss + potential (t.play (s :: ss)).regions ≤ potential (s.apply t).regions :=
      ih hlaid hs.2
    have hstep := (apply_shrunk (Ne.symm hs.1) t).potential_lt h.pos
    cases s with
    | refine threshold =>
      simp only [changes]
      split
      · rename_i heq
        rw [heq] at hrest
        omega
      · rename_i hne
        have := hstep.resolve_left hne
        omega
    | _ =>
      simp only [changes]
      rcases hstep with heq | hlt
      · rw [heq] at hrest
        omega
      · omega

/-- Row-major numbers of the tasks of a box inside the grid are places of the grid. -/
theorem taskIds_lt {grid : Point} {r : Region} (h : (Region.ofSize grid).containsRegion r = true) {i : Nat}
    (hi : i ∈ taskIds grid r) : i < grid.area := by
  obtain ⟨p, hp, rfl⟩ := List.mem_map.1 hi
  have hp := Region.contains_ofSize.1 (Region.contains_of_containsRegion h (Region.mem_points.1 hp))
  exact Point.rowMajor_lt hp.1 hp.2

/-- **The boxes of a tracker.** After every use of a tracker over a grid with tasks its boxes are laid out, so
there are no more of them than tasks and a pass reads no error that is not there. From one clear to the
next a pass only leaves parts of boxes, a task that lost its box never gets one again, and the boxes change
in at most `2 * n - 1` passes. -/
theorem boxes_laid_out_and_settle (grid : Point) (before after : List Step) (hgrid : 0 < grid.area)
    (hafter : Step.clear ∉ after) :
    let t := (fresh grid).play before
    let u := t.play after
    u.isEnabled = true ∧ LaidOut grid u.regions ∧ u.regions.length ≤ grid.area ∧
    (∀ r ∈ u.regions, ∀ i ∈ taskIds u.grid r, i < u.errors.size) ∧
    (∀ threshold, ∀ s ∈ (u.refine threshold).1.regions, ∃ r ∈ u.regions, r.containsRegion s = true) ∧
    (∀ task, ¬ Covered t task → ¬ Covered u task) ∧
    changes t after ≤ 2 * grid.area - 1 := by
  intro t u
  obtain ⟨ht, htg⟩ := LaidOut.play (t := fresh grid) (laidOut_wholeGrid grid) before
  have htl : LaidOut t.grid t.regions := by rw [htg]; exact ht
  obtain ⟨hu, hug⟩ := LaidOut.play htl after
  have hg : u.grid = grid := hug.trans htg
  have hul : LaidOut grid u.regions := by rw [← hg, hug]; exact hu
  have hsize : u.errors.size = grid.area := by rw [u.size_eq, hg]
  refine ⟨?_, hul, hul.length_le, ?_, ?_, ?_, ?_⟩
  · simp only [isEnabled, Bool.not_eq_true', Array.isEmpty_eq_false_iff, ← Array.size_pos_iff]
    rw [hsize]
    exact hgrid
  · intro r hr i hi
    rw [hsize]
    rw [hg] at hi
    exact taskIds_lt (hul.inside r hr) hi
  · intro threshold s hs
    exact ((refine_shrunk u threshold).sub hul.pos s hs).2
  · intro task hn hc
    exact hn (Covered.of_play htl hafter hc)
  · have hle := htl.potential_le
    have hchanges := changes_add_potential_le htl hafter
    rw [htg] at hle
    exact Nat.le_trans (Nat.le_trans (Nat.le_add_right ..) hchanges) hle

/-- A strip of three tasks whose errors are 0, 1 and 2: the pass at threshold 1 halves its box. -/
theorem boxes_laid_out_strip :
    let before : List Step := [.update ⟨1, 0⟩ 3, .clear]
    let after : List Step := [.write fun i _ => .ofNat i, .refine 1]
    let t := (fresh ⟨3, 1⟩).play before
    let u := t.play after
    (0 < (⟨3, 1⟩ : Point).area ∧ Step.clear ∉ after) ∧
    u.regions = [⟨⟨0, 0⟩, ⟨1, 1⟩⟩, ⟨⟨1, 0⟩, ⟨3, 1⟩⟩] ∧ LaidOut ⟨3, 1⟩ u.regions ∧ changes t after ≤ 5 := by
  intro before after t u
  have hgrid : 0 < (⟨3, 1⟩ : Point).area := by decide
  have hafter : Step.clear ∉ after := by simp [after]
  obtain ⟨-, hlaid, -, -, -, -, hchanges⟩ := boxes_laid_out_and_settle ⟨3, 1⟩ before after hgrid hafter
  exact ⟨⟨hgrid, hafter⟩, by decide +kernel, hlaid, hchanges⟩

end AdaptiveFrame.ErrorTracker
