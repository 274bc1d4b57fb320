import AdaptiveFrame.Proofs.Buffer.Words

/-!
# Finding the owned tile of a tile

A sparse buffer finds the tile that another one is folded into by the row-major number of its cell, as a word. Inside
the columns of the image, and as long as the number fits a word, that is the owned tile in the same cell, if there is
one. A cell beyond the last column has the number of a cell further down, and the number of a cell far below the image
wraps, so there a tile may be taken that lies in no owned cell; it lies apart from the tile it is taken for
(`overlaps_of_ownedAt?`), and nothing comes of it.
-/

namespace AdaptiveFrame.SparseBuffer

variable {s : SparseBuffer} {t : Tile} {u : OwnedTile}

namespace Owns

theorem cell_eq (h : Owns s.tileIds s) (hu : u ∈ s.tiles) :
    u.cell = .ofRowMajor (Tiling.tileCount s.desc.size).x u.id := by
  rw [OwnedTile.cell, h.region_eq hu, Tiling.cellOf_lower]

theorem cell_x_lt (h : Owns s.tileIds s) (hu : u ∈ s.tiles) : u.cell.x < (Tiling.tileCount s.desc.size).x := by
  rw [h.cell_eq hu]
  exact (Point.ofRowMajor_lt (h.inside _ (List.mem_map_of_mem (Array.mem_toList_iff.2 hu)))).1

/-- In the columns of the image a cell is owned if its number is. -/
theorem cellId_mem_iff (h : Owns s.tileIds s) (hx : t.cell.x < (Tiling.tileCount s.desc.size).x) :
    s.cellId t ∈ s.tileIds ↔ ∃ u ∈ s.tiles, u.cell = t.cell := by
  constructor
  · intro hmem
    obtain ⟨u, hu, hid⟩ := List.mem_map.1 hmem
    refine ⟨u, Array.mem_toList_iff.1 hu, ?_⟩
    rw [h.cell_eq (Array.mem_toList_iff.1 hu), hid, cellId, Point.ofRowMajor_rowMajor hx]
  · rintro ⟨u, hu, hcell⟩
    refine List.mem_map.2 ⟨u, Array.mem_toList_iff.2 hu, ?_⟩
    rw [cellId, ← hcell, h.cell_eq hu, Point.rowMajor_ofRowMajor]

/-- The cell of an owned tile has the number of the tile. -/
theorem cellId_of_cell_eq (h : Owns s.tileIds s) (hu : u ∈ s.tiles) (hcell : u.cell = t.cell) : s.cellId t = u.id := by
  rw [cellId, ← hcell, h.cell_eq hu, Point.rowMajor_ofRowMajor]

end Owns

/-- What is found under a number has that number. -/
theorem Indexed.getElem?_of_ownedAt? (h : Indexed s) {k n : Nat} {r : Region} (ho : s.ownedAt? n = some (k, r)) :
    s.tileIds[k]? = some n :=
  (h.slot_iff n k).1 (Option.join_eq_some_iff.1 (tile_of_ownedAt? ho).1)

/-- A tile that is taken for an owned one lies in its cell, or apart from it: what it overlaps lies in cells to the right
and below, whose numbers are not smaller, while a word is never larger than what it stands for. -/
theorem overlaps_of_ownedAt? (h : Owns s.tileIds s) (hi : Indexed s) {k : Nat} {r : Region}
    (ho : s.ownedAt? (s.cellWord t).toNat = some (k, r)) : s.owner? t = some (k, r) ∨ t.region.overlaps r = false := by
  cases hover : t.region.overlaps r with
  | false => exact .inr rfl
  | true =>
    left
    have hword := hi.getElem?_of_ownedAt? ho
    obtain ⟨id, hid, rfl⟩ := h.owned_of_ownedAt? ho
    obtain rfl : id = (s.cellWord t).toNat := Option.some.inj (hid.symm.trans hword)
    obtain ⟨p, hp, hc⟩ := Region.overlaps_iff.1 hover
    obtain ⟨hlx, hly, -, -⟩ := Region.contains_iff.1 hp
    have hcell := (Tiling.cell_of_contains_tileRegion hc).1
    have hx : t.cell.x ≤ (s.cellWord t).toNat % (Tiling.tileCount s.desc.size).x := by
      rw [← Point.ofRowMajor_x, ← hcell]
      exact Nat.div_le_div_right hlx
    have hy : t.cell.y ≤ (s.cellWord t).toNat / (Tiling.tileCount s.desc.size).x := by
      rw [← Point.ofRowMajor_y, ← hcell]
      exact Nat.div_le_div_right hly
    have hle : (s.cellWord t).toNat ≤ s.cellId t := by
      rw [toNat_cellWord]
      refine (Nat.mod_le ..).trans (Nat.add_le_add_right (Nat.mul_le_mul_left _ ?_) _)
      exact Tiling.ceilDivWord_le _ (by decide) (by decide)
    have hge : s.cellId t ≤ (s.cellWord t).toNat := by
      rw [← Nat.div_add_mod' (s.cellWord t).toNat (Tiling.tileCount s.desc.size).x]
      exact Nat.add_le_add (Nat.mul_le_mul_right _ hy) hx
    rw [owner?, Nat.le_antisymm hge hle]
    exact ho

/-- A tile beyond the last column shares no pixel with a tile of the image. -/
theorem not_overlaps_of_beyond {size : Point} (hx : (Tiling.tileCount size).x ≤ t.cell.x) (id : Nat) :
    t.region.overlaps (Tiling.tileRegion size id) = false := by
  refine Region.overlaps_eq_false_iff.2 fun p hp => ?_
  by_contra hc
  have himage := Region.contains_ofSize.1 (Tiling.cell_of_contains_tileRegion (Bool.not_eq_false _ ▸ hc)).2
  have hlower := (Region.contains_iff.1 hp).1
  have hcell : (size.x + tileSize - 1) / tileSize ≤ t.region.lower.x / tileSize := hx
  have hinside := (lt_ceilDiv_iff (t := tileSize) (k := t.region.lower.x / tileSize) (n := size.x) (by decide)).2
  have hdown : t.region.lower.x / tileSize * tileSize ≤ t.region.lower.x := Nat.div_mul_le_self ..
  have hlt := hinside (by omega)
  omega

/-- A tile that is taken is folded as any other, or nothing is done. -/
theorem tryAccumulate_cases (h : Owns s.tileIds s) (hi : Indexed s) {r : SparseBuffer × Tile}
    (htry : s.tryAccumulate t = .ok r) : r = s.accumulate t ∨ r = (s, t) := by
  unfold tryAccumulate at htry
  split at htry
  · rename_i k region ho
    obtain rfl := Except.ok.inj htry
    rcases overlaps_of_ownedAt? h hi ho with howner | hover
    · left
      unfold accumulate
      rw [howner]
    · exact .inr (absorbAt_of_outside hover)
  · cases htry

/-- Whether a tile is taken is a matter of the number of its cell. -/
theorem exists_tryAccumulate_iff (h : Indexed s) :
    (∃ r, s.tryAccumulate t = .ok r) ↔ (s.cellWord t).toNat ∈ s.tileIds := by
  rw [← h.ownedAt?_isSome]
  unfold tryAccumulate
  cases s.ownedAt? (s.cellWord t).toNat with
  | none => simp
  | some owner => simp

theorem tryAccumulate_eq_error {e : FrameError} (he : s.tryAccumulate t = .error e) :
    s.ownedAt? (s.cellWord t).toNat = none ∧ e = .tileNotOwned (s.cellWord t).toNat := by
  unfold tryAccumulate at he
  split at he
  · cases he
  · rename_i hnone
    exact ⟨hnone, (Except.error.inj he).symm⟩

theorem accumulate_of_none (h : s.owner? t = none) : s.accumulate t = (s, t) := by
  unfold accumulate
  rw [h]

/-- Folding a tile into an owned one that it does not overlap does nothing. -/
theorem accumulate_of_beyond (h : Owns s.tileIds s) (hx : (Tiling.tileCount s.desc.size).x ≤ t.cell.x) :
    s.accumulate t = (s, t) := by
  cases ho : s.owner? t with
  | none => exact accumulate_of_none ho
  | some owner =>
    obtain ⟨k, r⟩ := owner
    obtain ⟨id, -, rfl⟩ := h.owned_of_ownedAt? ho
    have haccumulate : s.accumulate t = s.absorbAt k (Tiling.tileRegion s.desc.size id) t := by
      unfold accumulate
      rw [ho]
    rw [haccumulate, absorbAt_of_outside (not_overlaps_of_beyond hx id)]

/-- A tile whose number does not fit a word is folded into no owned one. -/
theorem Counted.owner?_of_wraps (h : Counted s) (hwraps : 2 ^ 32 ≤ s.cellId t) : s.owner? t = none := by
  refine Option.not_isSome_iff_eq_none.1 fun hsome => ?_
  exact absurd (h.lt_of_mem (h.reachable.indexed.ownedAt?_isSome.1 hsome)) (Nat.not_lt.2 hwraps)

/-- A tile that is taken is folded as any other. -/
theorem Counted.tryAccumulate_eq (h : Counted s) (hx : s.desc.size.x < 2 ^ 32) {r : SparseBuffer × Tile}
    (htry : s.tryAccumulate t = .ok r) : r = s.accumulate t := by
  have hi := h.reachable.indexed
  have hword := h.cellWord_eq hx ((exists_tryAccumulate_iff hi).1 ⟨r, htry⟩) t
  rcases Nat.lt_or_ge (s.cellId t) (2 ^ 32) with hlt | hwraps
  · unfold tryAccumulate at htry
    rw [hword, Nat.mod_eq_of_lt hlt] at htry
    unfold accumulate owner?
    split at htry
    · exact (Except.ok.inj htry).symm
    · cases htry
  · rcases tryAccumulate_cases h.reachable.owns hi htry with hr | rfl
    · exact hr
    · exact (accumulate_of_none (h.owner?_of_wraps hwraps)).symm

/-- A tile that is refused is not folded either. -/
theorem Counted.accumulate_of_refused (h : Counted s) (hx : s.desc.size.x < 2 ^ 32)
    (hnone : s.ownedAt? (s.cellWord t).toNat = none) : s.accumulate t = (s, t) := by
  have hi := h.reachable.indexed
  refine accumulate_of_none (Option.not_isSome_iff_eq_none.1 fun hsome => ?_)
  have hid : s.cellId t ∈ s.tileIds := hi.ownedAt?_isSome.1 hsome
  have hword := h.cellWord_eq hx hid t
  rw [Nat.mod_eq_of_lt (h.lt_of_mem hid)] at hword
  rw [← hword, ← hi.ownedAt?_isSome, hnone] at hid
  cases hid

/-- **Which tiles are taken.** The width of an image is a word. In its columns, and as far down as the number of a cell
fits a word, a tile is taken just if the cell of its lower corner is that of an owned tile. Beyond the last column and
further down no cell is owned; there a tile is taken if the number of its cell is, as a word, that of an owned tile,
and neither the buffer nor the tile is changed. A tile that is taken is folded as any other; one that is not is refused
by the number of its cell and leaves the buffer as it is. -/
theorem tile_taken_by_cell_number (h : Counted s) (hx : s.desc.size.x < 2 ^ 32) (t : Tile) :
    let columns := (Tiling.tileCount s.desc.size).x
    let owned := ∃ u ∈ s.tiles, u.cell = t.cell
    let taken := ∃ r, s.tryAccumulate t = .ok r
    (t.cell.x < columns → s.cellId t < 2 ^ 32 → (taken ↔ owned)) ∧
    (columns ≤ t.cell.x ∨ 2 ^ 32 ≤ s.cellId t → ¬ owned ∧ (taken ↔ s.cellId t % 2 ^ 32 ∈ s.tileIds) ∧
      ∀ r, s.tryAccumulate t = .ok r → r = (s, t)) ∧
    (∀ r, s.tryAccumulate t = .ok r → r = s.accumulate t) ∧
    (∀ e, s.tryAccumulate t = .error e → e = .tileNotOwned (s.cellWord t).toNat ∧ s.accumulate t = (s, t)) := by
  intro columns owned taken
  have ho := h.reachable.owns
  have htaken : taken ↔ s.cellId t % 2 ^ 32 ∈ s.tileIds :=
    (exists_tryAccumulate_iff h.reachable.indexed).trans (h.cellWord_mem_iff hx t)
  refine ⟨fun hcell hlt => ?_, fun hout => ⟨?_, htaken, fun r hr => ?_⟩, fun r hr => h.tryAccumulate_eq hx hr,
    fun e he => ?_⟩
  · rw [htaken, Nat.mod_eq_of_lt hlt]
    exact ho.cellId_mem_iff hcell
  · rintro ⟨u, hu, hcell⟩
    rcases hout with hbeyond | hwraps
    · have hlt := ho.cell_x_lt hu
      rw [hcell] at hlt
      exact Nat.not_le.2 hlt hbeyond
    · have hlt := h.lt_of_mem (List.mem_map_of_mem (Array.mem_toList_iff.2 hu))
      rw [← ho.cellId_of_cell_eq hu hcell] at hlt
      exact Nat.not_le.2 hlt hwraps
  · rw [h.tryAccumulate_eq hx hr]
    rcases hout with hbeyond | hwraps
    · exact accumulate_of_beyond ho hbeyond
    · exact accumulate_of_none (h.owner?_of_wraps hwraps)
  · obtain ⟨hnone, rfl⟩ := tryAccumulate_eq_error he
    exact ⟨rfl, h.accumulate_of_refused hx hnone⟩

/-- Of two by two tiles a buffer owns the third, in the cell below the first one. A tile there is taken, and one in
the cell beside the first is refused. -/
theorem tile_taken_by_cell_number_below :
    let d : BufferDesc := ⟨⟨128, 128⟩, .rgba32f, .ofList [.color, .accum], ⟨8, 8⟩⟩
    let below : Tile := .blank ⟨⟨0, 64⟩, ⟨1, 65⟩⟩ 0
    let beside : Tile := .blank ⟨⟨64, 0⟩, ⟨65, 1⟩⟩ 0
    d.size.x < 2 ^ 32 ∧ ∃ s, createWord d [2] = .ok s ∧ Counted s ∧ (∃ r, s.tryAccumulate below = .ok r) ∧
      s.tryAccumulate beside = .error (.tileNotOwned 1) := by
  have hd : BufferDesc.validate ⟨⟨128, 128⟩, .rgba32f, .ofList [.color, .accum], ⟨8, 8⟩⟩ = .ok () := rfl
  intro d below beside
  obtain ⟨s, hs⟩ := exists_create hd (inRangeWord d [2])
  have hcounted : Counted s := .create hs
  have ho := hcounted.reachable.owns
  obtain ⟨hdesc, hids⟩ := tileIds_of_create hs
  have hids : s.tileIds = [2] := hids.trans (by decide)
  have hx : s.desc.size.x < 2 ^ 32 := by
    rw [hdesc]
    decide
  have hcolumns : (Tiling.tileCount s.desc.size).x = 2 := by
    rw [hdesc]
    decide
  have hbelow : s.cellId below = 2 := by
    rw [cellId, hcolumns]
    decide
  have hbeside : s.cellId beside = 1 := by
    rw [cellId, hcolumns]
    decide
  obtain ⟨htaken, -, -, -⟩ := tile_taken_by_cell_number hcounted hx below
  obtain ⟨htaken', -, -, hrefused⟩ := tile_taken_by_cell_number hcounted hx beside
  rw [hcolumns] at htaken htaken'
  rw [hbelow] at htaken
  rw [hbeside] at htaken'
  refine ⟨by decide, s, hs, hcounted, (htaken (by decide) (by decide)).2 ((ho.cellId_mem_iff ?_).1 ?_), ?_⟩
  · rw [hcolumns]
    decide
  · rw [hids, hbelow]
    decide
  · cases htry : s.tryAccumulate beside with
    | ok r =>
      have howned := (htaken' (by decide) (by decide)).1 ⟨r, htry⟩
      have hmem := (ho.cellId_mem_iff (by rw [hcolumns]; decide)).2 howned
      rw [hids, hbeside] at hmem
      exact absurd hmem (by decide)
    | error e =>
      have hword := hcounted.cellWord_eq hx (hids ▸ List.mem_singleton_self 2) beside
      rw [hbeside, Nat.mod_eq_of_lt (by decide)] at hword
      rw [(hrefused e htry).1, hword]

/-- A new buffer takes what has the number of a tile that it chose. -/
theorem exists_tryAccumulate_of_create {d : BufferDesc} {ids : List Nat} (hs : createWord d ids = .ok s)
    (hx : d.size.x < 2 ^ 32) (ht : (t.cell.rowMajor (Tiling.tileCount d.size).x) % 2 ^ 32 ∈
      kept (Tiling.tileCount d.size).area (inRangeWord d ids)) : ∃ r, s.tryAccumulate t = .ok r := by
  have hcounted : Counted s := .create hs
  obtain ⟨rfl, hids⟩ := tileIds_of_create hs
  rw [exists_tryAccumulate_iff hcounted.reachable.indexed, hcounted.cellWord_mem_iff hx, hids]
  exact ht

/-- The cell of a tile to the right of the image is beyond both columns, and the tile is taken for the third one. -/
theorem tile_taken_beyond_image :
    let d : BufferDesc := ⟨⟨128, 128⟩, .rgba32f, .ofList [.color, .accum], ⟨8, 8⟩⟩
    let right : Tile := .blank ⟨⟨128, 0⟩, ⟨129, 1⟩⟩ 0
    ∃ s, createWord d [2] = .ok s ∧ (∃ r, s.tryAccumulate right = .ok r) ∧ ¬ ∃ u ∈ s.tiles, u.cell = right.cell := by
  have hd : BufferDesc.validate ⟨⟨128, 128⟩, .rgba32f, .ofList [.color, .accum], ⟨8, 8⟩⟩ = .ok () := rfl
  intro d right
  obtain ⟨s, hs⟩ := exists_create hd (inRangeWord d [2])
  have hcounted : Counted s := .create hs
  refine ⟨s, hs, exists_tryAccumulate_of_create hs (by decide) (by decide), ?_⟩
  rintro ⟨u, hu, hcell⟩
  have hlt := hcounted.reachable.owns.cell_x_lt hu
  rw [hcell, (tileIds_of_create hs).1] at hlt
  exact absurd hlt (by decide)

/-- The cell of a tile far below the image has a number that wraps, and the tile is taken for the fifth one. -/
theorem tile_taken_far_below :
    let d : BufferDesc := ⟨⟨4160, 64⟩, .rgba32f, .ofList [.color, .accum], ⟨8, 8⟩⟩
    let below : Tile := .blank ⟨⟨0, 4228890880⟩, ⟨1, 4228890881⟩⟩ 0
    ∃ s, createWord d [4] = .ok s ∧ (∃ r, s.tryAccumulate below = .ok r) ∧ ¬ ∃ u ∈ s.tiles, u.cell = below.cell := by
  have hd : BufferDesc.validate ⟨⟨4160, 64⟩, .rgba32f, .ofList [.color, .accum], ⟨8, 8⟩⟩ = .ok () := rfl
  intro d below
  obtain ⟨s, hs⟩ := exists_create hd (inRangeWord d [4])
  have hcounted : Counted s := .create hs
  refine ⟨s, hs, exists_tryAccumulate_of_create hs (by decide) (by decide), ?_⟩
  rintro ⟨u, hu, hcell⟩
  have hlt := hcounted.lt_of_mem (List.mem_map_of_mem (Array.mem_toList_iff.2 hu))
  rw [← hcounted.reachable.owns.cellId_of_cell_eq hu hcell, cellId, (tileIds_of_create hs).1] at hlt
  exact absurd hlt (by decide)

end AdaptiveFrame.SparseBuffer
