import AdaptiveFrame.Proofs.Accum.Boxes
import AdaptiveFrame.Proofs.Grid.Writes
import AdaptiveFrame.Proofs.Number.Successor

/-!
# What a refinement pass does to the errors

A pass raises the errors of a box when one of them is above the threshold, and of no other box: those that are not
above it themselves become the number after the threshold (`get_refine`). After it a box is above the threshold as a
whole or not at all (`Settled`), so a second pass raises nothing, and a task that is not above the threshold can only
come back with another task of its box whose error was renewed.
-/

namespace AdaptiveFrame.ErrorTracker

variable {threshold : Float32} {errors : Array Float32} {ids : List Nat} {grid : Point} {r s : Region} {i : Nat}

/-- The error at a place, infinite beyond the end. -/
def errorAt (errors : Array Float32) (i : Nat) : Float32 := (errors[i]?).getD Binary32.posInf

theorem get_eq_errorAt (t : ErrorTracker) (i : Nat) : t.get i = errorAt t.errors i := rfl

/-- All tasks of a list are above the threshold. -/
def Hot (threshold : Float32) (errors : Array Float32) (ids : List Nat) : Prop :=
  ∀ i ∈ ids, threshold < errorAt errors i

/-- No task of a list is above the threshold. -/
def Cold (threshold : Float32) (errors : Array Float32) (ids : List Nat) : Prop :=
  ∀ i ∈ ids, ¬ threshold < errorAt errors i

/-! ## One box -/

theorem lt_foldl_largest (ids : List Nat) (sum largest : Float32) :
    threshold < (ids.foldl (fun (acc : Float32 × Float32) i =>
      (acc.1 + errorAt errors i, Binary32.maxNum acc.2 (errorAt errors i))) (sum, largest)).2 ↔
    threshold < largest ∨ ∃ i ∈ ids, threshold < errorAt errors i := by
  induction ids generalizing sum largest with
  | nil => simp
  | cons i ids ih =>
    rw [List.foldl_cons, ih]
    constructor
    · rintro (h | ⟨j, hj, h⟩)
      · rcases Binary32.maxNum_eq largest (errorAt errors i) with heq | heq
        · exact .inl (heq ▸ h)
        · exact .inr ⟨i, by simp, heq ▸ h⟩
      · exact .inr ⟨j, by simp [hj], h⟩
    · rintro (h | ⟨j, hj, h⟩)
      · exact .inl (Binary32.lt_maxNum_left h)
      · rcases List.mem_cons.1 hj with rfl | hj
        · exact .inl (Binary32.lt_maxNum_right h)
        · exact .inr ⟨j, hj, h⟩

theorem lt_boxErrors_iff (h0 : ¬ threshold < 0) :
    threshold < (boxErrors errors ids).2 ↔ ∃ i ∈ ids, threshold < errorAt errors i :=
  (lt_foldl_largest ids 0 0).trans (or_iff_right h0)

theorem errorAt_modify {f : Float32 → Float32} {j : Nat} (hi : i < errors.size) :
    errorAt (errors.modify j f) i = if j = i then f (errorAt errors i) else errorAt errors i := by
  unfold errorAt
  rw [Array.getElem?_modify, Array.getElem?_eq_getElem hi]
  split <;> rfl

theorem errorAt_raise (hnd : ids.Nodup) (floor : Float32) (hi : i < errors.size) : errorAt (raise errors ids floor) i =
    if i ∈ ids then Binary32.maxNum (errorAt errors i) floor else errorAt errors i := by
  let I : Array Float32 → Prop := fun es => i < es.size
  have hinv : ∀ es, ∀ j ∈ ids, I es → I (es.modify j (Binary32.maxNum · floor)) := by
    intro es j _ hes
    simpa only [I, Array.size_modify] using hes
  exact Writes.read_foldl_ite (errorAt · i) (I := I) (f := (Binary32.maxNum · floor)) hi hinv hnd
    fun es j _ hes => errorAt_modify hes

theorem mem_taskIds_iff {p : Point} (hr : (Region.ofSize grid).containsRegion r = true) (hp : p.x < grid.x) :
    p.rowMajor grid.x ∈ taskIds grid r ↔ r.contains p = true := by
  unfold taskIds
  rw [List.mem_map]
  constructor
  · rintro ⟨q, hq, heq⟩
    have hq := Region.mem_points.1 hq
    have hx := (Region.contains_ofSize.1 (Region.contains_of_containsRegion hr hq)).1
    rw [← Point.rowMajor_inj hx hp heq]
    exact hq
  · intro hc
    exact ⟨p, Region.mem_points.2 hc, rfl⟩

theorem nodup_taskIds (hr : (Region.ofSize grid).containsRegion r = true) : (taskIds grid r).Nodup := by
  refine List.Nodup.map_on (fun p hp q hq heq => ?_) r.nodup_points
  have hp := (Region.contains_ofSize.1 (Region.contains_of_containsRegion hr (Region.mem_points.1 hp))).1
  have hq := (Region.contains_ofSize.1 (Region.contains_of_containsRegion hr (Region.mem_points.1 hq))).1
  exact Point.rowMajor_inj hp hq heq

theorem taskIds_subset (h : r.containsRegion s = true) (hi : i ∈ taskIds grid s) : i ∈ taskIds grid r := by
  obtain ⟨p, hp, rfl⟩ := List.mem_map.1 hi
  exact List.mem_map_of_mem (Region.mem_points.2 (Region.contains_of_containsRegion h (Region.mem_points.1 hp)))

/-- Boxes that do not overlap share no task. -/
theorem taskIds_disjoint (hr : (Region.ofSize grid).containsRegion r = true)
    (hs : (Region.ofSize grid).containsRegion s = true) (h : r.overlaps s = false) (hi : i ∈ taskIds grid r) :
    i ∉ taskIds grid s := by
  obtain ⟨p, hp, rfl⟩ := List.mem_map.1 hi
  have hp := Region.mem_points.1 hp
  have hx := (Region.contains_ofSize.1 (Region.contains_of_containsRegion hr hp)).1
  rw [mem_taskIds_iff hs hx, Region.overlaps_eq_false_iff.1 h p hp]
  decide

theorem size_refineBox (grid : Point) (threshold : Float32) (errors : Array Float32) (r : Region) :
    (refineBox grid threshold errors r).1.size = errors.size := size_refineBoxes grid threshold errors [r]

/-- What raises a task: it is not above the threshold, and a box holds it together with a task that is. -/
def Forced (threshold : Float32) (grid : Point) (errors : Array Float32) (rs : List Region) (i : Nat) : Prop :=
  ¬ threshold < errorAt errors i ∧
    ∃ r ∈ rs, i ∈ taskIds grid r ∧ ∃ j ∈ taskIds grid r, threshold < errorAt errors j

open Classical in
/-- Refining a box raises the tasks it forces to the number after the threshold and keeps the others. -/
theorem errorAt_refineBox (h0 : 0 ≤ threshold) (hr : (Region.ofSize grid).containsRegion r = true)
    (hi : i < errors.size) : errorAt (refineBox grid threshold errors r).1 i =
      if Forced threshold grid errors [r] i then Binary32.nextUp threshold else errorAt errors i := by
  have hbox : (refineBox grid threshold errors r).1 = if threshold < (boxErrors errors (taskIds grid r)).2 then
      raise errors (taskIds grid r) (Binary32.nextUp threshold) else errors := rfl
  rw [hbox]
  by_cases hsome : ∃ j ∈ taskIds grid r, threshold < errorAt errors j
  · rw [if_pos ((lt_boxErrors_iff (Binary32.not_lt_of_le h0)).2 hsome), errorAt_raise (nodup_taskIds hr) _ hi]
    obtain ⟨j, hj, hlt⟩ := hsome
    by_cases hmem : i ∈ taskIds grid r
    · rw [if_pos hmem]
      by_cases hlow : threshold < errorAt errors i
      · rw [if_neg fun h => h.1 hlow, Binary32.maxNum_nextUp_of_lt h0 hlow]
      · rw [if_pos ⟨hlow, r, by simp, hmem, j, hj, hlt⟩, Binary32.maxNum_nextUp_of_not_lt h0 hlt hlow]
    · rw [if_neg hmem, if_neg]
      rintro ⟨-, s, hs, his, -⟩
      rw [List.mem_singleton.1 hs] at his
      exact hmem his
  · rw [if_neg (mt (lt_boxErrors_iff (Binary32.not_lt_of_le h0)).1 hsome), if_neg]
    rintro ⟨-, s, hs, -, habove⟩
    rw [List.mem_singleton.1 hs] at habove
    exact hsome habove

theorem errorAt_refineBox_of_not_mem (h0 : 0 ≤ threshold) (hr : (Region.ofSize grid).containsRegion r = true)
    (hi : i < errors.size) (hmem : i ∉ taskIds grid r) :
    errorAt (refineBox grid threshold errors r).1 i = errorAt errors i := by
  rw [errorAt_refineBox h0 hr hi, if_neg]
  rintro ⟨-, s, hs, his, -⟩
  rw [List.mem_singleton.1 hs] at his
  exact hmem his

/-! ## A pass -/

open Classical in
/-- Refining boxes that do not overlap does to each what refining it alone does. -/
theorem errorAt_refineBoxes (h0 : 0 ≤ threshold) {rs : List Region} {errors : Array Float32}
    (hin : ∀ r ∈ rs, (Region.ofSize grid).containsRegion r = true)
    (hd : rs.Pairwise fun r s => r.overlaps s = false) (hsize : errors.size = grid.area) (hi : i < grid.area) :
    errorAt (refineBoxes grid threshold errors rs).1 i =
      if Forced threshold grid errors rs i then Binary32.nextUp threshold else errorAt errors i := by
  induction rs generalizing errors with
  | nil => exact (if_neg (by simp [Forced])).symm
  | cons r rs ih =>
    obtain ⟨hfar, hd⟩ := List.pairwise_cons.1 hd
    have hr := hin r (by simp)
    have hin' : ∀ s ∈ rs, (Region.ofSize grid).containsRegion s = true := fun s hs => hin s (by simp [hs])
    have hout : ∀ s ∈ rs, ∀ j ∈ taskIds grid s, j ∉ taskIds grid r := fun s hs j hj hjr =>
      taskIds_disjoint hr (hin' s hs) (hfar s hs) hjr hj
    have hsame : ∀ j, j < grid.area → j ∉ taskIds grid r →
        errorAt (refineBox grid threshold errors r).1 j = errorAt errors j :=
      fun j hj => errorAt_refineBox_of_not_mem h0 hr (hsize ▸ hj)
    have hsize' : (refineBox grid threshold errors r).1.size = grid.area := (size_refineBox ..).trans hsize
    have hrest := ih hin' hd hsize'
    change errorAt (refineBoxes grid threshold (refineBox grid threshold errors r).1 rs).1 i = _
    rw [hrest]
    by_cases hir : i ∈ taskIds grid r
    · -- No later box holds the task, so only this one can force it.
      rw [if_neg fun h => by obtain ⟨-, s, hs, his, -⟩ := h; exact hout s hs i his hir,
        errorAt_refineBox h0 hr (hsize ▸ hi)]
      refine if_congr ⟨?_, ?_⟩ rfl rfl
      · rintro ⟨hlow, s, hs, h⟩
        exact ⟨hlow, s, by simp_all, h⟩
      · rintro ⟨hlow, s, hs, his, h⟩
        rcases List.mem_cons.1 hs with rfl | hs
        · exact ⟨hlow, s, by simp, his, h⟩
        · exact absurd hir (hout s hs i his)
    · rw [hsame i hi hir]
      refine if_congr ⟨?_, ?_⟩ rfl rfl
      · rintro ⟨hlow, s, hs, his, j, hj, h⟩
        rw [hsame i hi hir] at hlow
        rw [hsame j (taskIds_lt (hin' s hs) hj) (hout s hs j hj)] at h
        exact ⟨hlow, s, by simp [hs], his, j, hj, h⟩
      · rintro ⟨hlow, s, hs, his, j, hj, h⟩
        rcases List.mem_cons.1 hs with rfl | hs
        · exact absurd his hir
        · refine ⟨?_, s, hs, his, j, hj, ?_⟩
          · rw [hsame i hi hir]
            exact hlow
          · rw [hsame j (taskIds_lt (hin' s hs) hj) (hout s hs j hj)]
            exact h

/-- Every box is above the threshold as a whole or not at all. -/
def Settled (threshold : Float32) (t : ErrorTracker) : Prop := ∀ r ∈ t.regions,
  Hot threshold t.errors (taskIds t.grid r) ∨ Cold threshold t.errors (taskIds t.grid r)

variable {t : ErrorTracker}

theorem regions_eq_nil (hl : LaidOut t.grid t.regions) (h : t.isEnabled = false) : t.regions = [] := by
  have hle := hl.length_le
  rw [isEnabled_eq, decide_eq_false_iff_not] at h
  exact List.eq_nil_of_length_eq_zero (by omega)

theorem settled_fresh (threshold : Float32) (grid : Point) : Settled threshold (fresh grid) := by
  have hget : ∀ i, errorAt (fresh grid).errors i = Binary32.posInf := get_fresh grid
  intro r _
  by_cases h : threshold < Binary32.posInf
  · exact .inl fun i _ => by rw [hget]; exact h
  · exact .inr fun i _ => by rw [hget]; exact h

/-- Two boxes of a tracker with a task in common are one. -/
theorem eq_of_mem_taskIds (hl : LaidOut t.grid t.regions) (hr : r ∈ t.regions) (hs : s ∈ t.regions)
    (hir : i ∈ taskIds t.grid r) (his : i ∈ taskIds t.grid s) : r = s := by
  by_contra hne
  have hsymm : Std.Symm fun r s : Region => r.overlaps s = false := ⟨fun a b h => by rw [Region.overlaps_comm, h]⟩
  have hfar := hl.disjoint.forall hr hs hne
  exact taskIds_disjoint (hl.inside r hr) (hl.inside s hs) hfar hir his

open Classical in
/-- The errors after a pass. -/
theorem get_refine (h0 : 0 ≤ threshold) (hl : LaidOut t.grid t.regions) (i : Nat) :
    (t.refine threshold).1.get i =
      if Forced threshold t.grid t.errors t.regions i then Binary32.nextUp threshold else t.get i := by
  cases he : t.isEnabled with
  | false =>
    rw [refine, if_neg (by simp [he]), if_neg]
    rintro ⟨-, r, hr, -⟩
    rw [regions_eq_nil hl he] at hr
    cases hr
  | true =>
    have hrefine : (t.refine threshold).1.get i = errorAt (refineBoxes t.grid threshold t.errors t.regions).1 i := by
      rw [refine, if_pos he]
      rfl
    rw [hrefine]
    rcases Nat.lt_or_ge i t.grid.area with hi | hi
    · exact errorAt_refineBoxes h0 hl.inside hl.disjoint t.size_eq hi
    · rw [if_neg]
      · rw [get_eq_errorAt, errorAt, errorAt, Array.getElem?_eq_none, Array.getElem?_eq_none]
        · exact t.size_eq ▸ hi
        · rw [size_refineBoxes]
          exact t.size_eq ▸ hi
      · rintro ⟨-, r, hr, hir, -⟩
        exact absurd (taskIds_lt (hl.inside r hr) hir) (Nat.not_lt.2 hi)

/-- A pass keeps the error of a task whose box is not above the threshold. -/
theorem get_refine_of_cold (h0 : 0 ≤ threshold) (hl : LaidOut t.grid t.regions)
    (hcold : ∀ r ∈ t.regions, i ∈ taskIds t.grid r → Cold threshold t.errors (taskIds t.grid r)) :
    (t.refine threshold).1.get i = t.get i := by
  rw [get_refine h0 hl, if_neg]
  rintro ⟨-, r, hr, hir, j, hj, hlt⟩
  exact hcold r hr hir j hj hlt

/-- A pass makes every box it starts from hot or cold as a whole. -/
theorem hot_or_cold_refine (h0 : 0 ≤ threshold) (hl : LaidOut t.grid t.regions) (hr : r ∈ t.regions) :
    Hot threshold (t.refine threshold).1.errors (taskIds t.grid r) ∨
      Cold threshold (t.refine threshold).1.errors (taskIds t.grid r) := by
  by_cases hcold : Cold threshold t.errors (taskIds t.grid r)
  · refine .inr fun i hi => ?_
    rw [← get_eq_errorAt, get_refine_of_cold h0 hl]
    · exact hcold i hi
    · intro s hs his
      rwa [← eq_of_mem_taskIds hl hr hs hi his]
  · obtain ⟨j, hj, hlt⟩ : ∃ j ∈ taskIds t.grid r, threshold < errorAt t.errors j := by
      simpa [Cold] using hcold
    refine .inl fun i hi => ?_
    rw [← get_eq_errorAt, get_refine h0 hl]
    split
    · exact Binary32.lt_nextUp h0 hlt
    · rename_i hnot
      by_contra hlow
      exact hnot ⟨hlow, r, hr, hi, j, hj, hlt⟩

/-- A pass settles all boxes. -/
theorem settled_refine (h0 : 0 ≤ threshold) (hl : LaidOut t.grid t.regions) :
    Settled threshold (t.refine threshold).1 := by
  intro s hs
  obtain ⟨-, r, hr, hrs⟩ := (refine_shrunk t threshold).sub hl.pos s hs
  rw [grid_refine]
  exact (hot_or_cold_refine h0 hl hr).imp (fun h i hi => h i (taskIds_subset hrs hi))
    (fun h i hi => h i (taskIds_subset hrs hi))

/-- A pass over settled boxes raises nothing. -/
theorem get_refine_of_settled (h0 : 0 ≤ threshold) (hl : LaidOut t.grid t.regions) (h : Settled threshold t) (i : Nat) :
    (t.refine threshold).1.get i = t.get i := by
  rw [get_refine h0 hl, if_neg]
  rintro ⟨hlow, r, hr, hir, j, hj, hlt⟩
  rcases h r hr with hhot | hcold
  · exact hlow (hhot i hir)
  · exact hcold j hj hlt

/-- **What a pass forces.** After any use of a tracker with tasks, a pass at a threshold that is no NaN and not below
zero leaves every box it starts from above the threshold as a whole or not at all. It changes the errors of just those
tasks that are at most the threshold, or NaN, and share a box with a task above it: each becomes the number after the
threshold. A task in no box keeps its error, and a second pass changes no error. -/
theorem pass_forces_next_number (grid : Point) (before : List Step) (threshold : Float32) (hgrid : 0 < grid.area)
    (h0 : 0 ≤ threshold) :
    let t := (fresh grid).play before
    let u := (t.refine threshold).1
    let Low (i : Nat) := t.get i ≤ threshold ∨ (t.get i).isNaN = true
    let BesideHigh (i : Nat) := ∃ r ∈ t.regions, i ∈ taskIds grid r ∧ ∃ j ∈ taskIds grid r, threshold < t.get j
    t.isEnabled = true ∧
    (∀ r ∈ t.regions, (∀ i ∈ taskIds grid r, threshold < u.get i) ∨ ∀ i ∈ taskIds grid r, ¬ threshold < u.get i) ∧
    (∀ i, Low i ∧ BesideHigh i → u.get i = Binary32.nextUp threshold ∧ t.get i ≠ Binary32.nextUp threshold) ∧
    (∀ i, ¬ (Low i ∧ BesideHigh i) → u.get i = t.get i) ∧
    (∀ i, (∀ r ∈ t.regions, i ∉ taskIds grid r) → u.get i = t.get i) ∧
    ∀ i, (u.refine threshold).1.get i = u.get i := by
  intro t u Low BesideHigh
  obtain ⟨hlaid, hg⟩ := LaidOut.play (t := fresh grid) (laidOut_wholeGrid grid) before
  have hg : t.grid = grid := hg
  have hl : LaidOut t.grid t.regions := by rw [hg]; exact hlaid
  have hnan := Binary32.not_isNaN_of_nonneg h0
  have hforced : ∀ i, Forced threshold t.grid t.errors t.regions i ↔ Low i ∧ BesideHigh i := by
    intro i
    rw [hg]
    exact and_congr (Binary32.not_lt_iff hnan) .rfl
  refine ⟨?_, ?_, ?_, ?_, ?_, ?_⟩
  · rw [isEnabled_eq, hg]
    exact decide_eq_true hgrid
  · intro r hr
    have h := hot_or_cold_refine h0 hl hr
    rw [hg] at h
    exact h
  · intro i h
    obtain ⟨r, -, -, j, -, hlt⟩ := h.2
    refine ⟨(get_refine h0 hl i).trans (if_pos ((hforced i).2 h)), ?_⟩
    intro heq
    refine (Binary32.not_lt_iff hnan).2 h.1 ?_
    rw [heq]
    exact Binary32.lt_nextUp h0 hlt
  · intro i h
    exact (get_refine h0 hl i).trans (if_neg (mt (hforced i).1 h))
  · intro i h
    refine get_refine_of_cold h0 hl fun r hr hi => absurd ?_ (h r hr)
    rwa [hg] at hi
  · have hul : LaidOut u.grid u.regions := by
      rw [grid_refine]
      exact hl.shrunk (refine_shrunk t threshold)
    exact get_refine_of_settled h0 hul (settled_refine h0 hl)

/-- A strip of three tasks in two boxes. At threshold 1 the first task is alone in its box and keeps its error, the
second has no estimate that can be compared, and is raised with the third. -/
theorem pass_forces_next_number_strip :
    let before : List Step :=
      [.write fun i _ => .ofNat i, .refine 1, .write fun i _ => if i = 1 then 0 / 0 else .ofNat i]
    let t := (fresh ⟨3, 1⟩).play before
    let u := (t.refine 1).1
    (0 < (⟨3, 1⟩ : Point).area ∧ (0 : Float32) ≤ 1) ∧
    t.regions = [⟨⟨0, 0⟩, ⟨1, 1⟩⟩, ⟨⟨1, 0⟩, ⟨3, 1⟩⟩] ∧
    u.get 0 = 0 ∧ u.get 1 = Binary32.nextUp 1 ∧ u.get 2 = 2 ∧ ∀ i, (u.refine 1).1.get i = u.get i := by
  intro before t u
  have hgrid : 0 < (⟨3, 1⟩ : Point).area := by decide
  have h0 : (0 : Float32) ≤ 1 := by decide +kernel
  obtain ⟨-, -, hraised, hkept, -, hagain⟩ := pass_forces_next_number ⟨3, 1⟩ before 1 hgrid h0
  have hboxes : t.regions = [⟨⟨0, 0⟩, ⟨1, 1⟩⟩, ⟨⟨1, 0⟩, ⟨3, 1⟩⟩] := by decide +kernel
  have hnan : (t.get 1).isNaN = true := by decide +kernel
  have hhigh : (1 : Float32) < t.get 2 := by decide +kernel
  have hbeside : ∃ r ∈ t.regions, 1 ∈ taskIds ⟨3, 1⟩ r ∧ ∃ j ∈ taskIds ⟨3, 1⟩ r, (1 : Float32) < t.get j := by
    rw [hboxes]
    exact ⟨⟨⟨1, 0⟩, ⟨3, 1⟩⟩, by simp, by decide, 2, by decide, hhigh⟩
  refine ⟨⟨hgrid, h0⟩, hboxes, by decide +kernel, (hraised 1 ⟨.inr hnan, hbeside⟩).1, ?_, hagain⟩
  have htwo : t.get 2 = 2 := by decide +kernel
  refine (hkept 2 fun h => ?_).trans htwo
  exact (Binary32.not_lt_iff (by decide +kernel)).2 h.1 hhigh

end AdaptiveFrame.ErrorTracker
