import AdaptiveFrame.Proofs.Buffer.SparseFold
import Mathlib.Data.List.Induction

/-!
# What every sparse buffer keeps

Of a list of tiles a sparse buffer takes those that the image has, each where the list names it first (`kept`).
Whatever is done to the buffer, it owns some tiles of the image, and their tasks stay the same until others are chosen
(`Owns`); it finds its tiles by their numbers (`Indexed`). `Reachable` are the buffers that any use of one can lead to.
-/

namespace AdaptiveFrame.SparseBuffer

open FrameBuffer

variable {d : BufferDesc} {s s' : SparseBuffer} {ids : List Nat} {id : Nat}

/-! ## Choosing from any list -/

/-- What is taken already, or not in the image, is not taken. -/
theorem Taken.own_of_not {n : Nat} {pre : List Nat} {owned : Array OwnedTile × Array (Option Nat)}
    (h : Taken d n pre owned) (hid : ¬ (id < n ∧ id ∉ pre)) : SparseBuffer.own d owned id = owned := by
  obtain ⟨tiles, slots⟩ := owned
  have hslot : slots[id]? ≠ some none := by
    by_cases hmem : id ∈ pre
    · obtain ⟨k, hk⟩ := List.mem_iff_getElem?.1 hmem
      have htaken : slots[id]? = some (some k) := h.taken k id hk
      rw [htaken]
      simp
    · have hout : slots[id]? = none := Array.getElem?_eq_none (h.slots ▸ by simp [hmem] at hid; exact hid)
      rw [hout]
      simp
  unfold SparseBuffer.own
  dsimp only
  split
  · rename_i hnone
    exact absurd hnone hslot
  · rfl

/-- The numbers below `n` that a list names, in the order in which it names them first. -/
def kept (n : Nat) (ids : List Nat) : List Nat := (ids.filter (· < n)).eraseDups

theorem mem_kept {n : Nat} : id ∈ kept n ids ↔ id ∈ ids ∧ id < n := by
  rw [kept, List.mem_eraseDups, List.mem_filter, decide_eq_true_eq]

theorem kept_concat (n : Nat) (ids : List Nat) (id : Nat) :
    kept n (ids ++ [id]) = if id < n ∧ id ∉ kept n ids then kept n ids ++ [id] else kept n ids := by
  have hlast : kept n (ids ++ [id]) =
      kept n ids ++ (([id].filter (· < n)).removeAll (ids.filter (· < n))).eraseDups := by
    rw [kept, List.filter_append, List.eraseDups_append]
    rfl
  rw [hlast]
  by_cases hlt : id < n
  · by_cases hmem : id ∈ ids
    · rw [if_neg fun h => h.2 (mem_kept.2 ⟨hmem, hlt⟩)]
      simp [List.removeAll, hlt, hmem]
    · rw [if_pos ⟨hlt, fun h => hmem (mem_kept.1 h).1⟩]
      simp [List.removeAll, hlt, hmem, List.eraseDups_cons]
  · rw [if_neg fun h => hlt h.1]
    simp [List.removeAll, hlt]

/-- Going through any list takes the tiles of the image in it, each where the list names it first. -/
theorem taken_kept (d : BufferDesc) (n : Nat) (ids : List Nat) :
    Taken d n (kept n ids) (ids.foldl (SparseBuffer.own d) (#[], Array.replicate n none)) := by
  induction ids using List.reverseRecOn with
  | nil => exact taken_nil d n
  | append_singleton ids id ih =>
    rw [List.foldl_concat, kept_concat]
    by_cases hid : id < n ∧ id ∉ kept n ids
    · rw [if_pos hid]
      exact ih.own hid.1 hid.2
    · rw [if_neg hid, ih.own_of_not hid]
      exact ih

theorem Taken.nodup {n : Nat} {pre : List Nat} {owned : Array OwnedTile × Array (Option Nat)}
    (h : Taken d n pre owned) : pre.Nodup := by
  refine List.nodup_iff_getElem?_ne_getElem?.2 fun i j hij hj heq => ?_
  have hi := List.getElem?_eq_getElem (l := pre) (i := j) hj
  have hslot := h.taken j _ hi
  rw [h.taken i _ (heq.trans hi)] at hslot
  cases hslot
  exact Nat.lt_irrefl _ hij

/-- The slots lead to the taken tiles, and these back to their slots. -/
theorem Taken.slot_iff {n : Nat} {pre : List Nat} {owned : Array OwnedTile × Array (Option Nat)}
    (h : Taken d n pre owned) {k : Nat} : owned.2[id]? = some (some k) ↔ pre[k]? = some id := by
  refine ⟨fun hk => ?_, h.taken k id⟩
  have hid : id < n := h.slots ▸ (Array.getElem?_eq_some_iff.1 hk).1
  have hmem : id ∈ pre := by
    by_contra hfree
    rw [h.free id hid hfree] at hk
    cases hk
  obtain ⟨j, hj⟩ := List.mem_iff_getElem?.1 hmem
  rw [h.taken j id hj] at hk
  cases hk
  exact hj

/-- Which tiles are taken, and in which order, is all there is to a choice. -/
theorem Taken.unique {n : Nat} {pre : List Nat} {owned owned' : Array OwnedTile × Array (Option Nat)}
    (h : Taken d n pre owned) (h' : Taken d n pre owned') : owned = owned' := by
  refine Prod.ext (Array.toList_inj.1 (h.tiles.trans h'.tiles.symm)) (Array.ext_getElem? fun id => ?_)
  rcases Nat.lt_or_ge id n with hid | hid
  · by_cases hmem : id ∈ pre
    · obtain ⟨k, hk⟩ := List.mem_iff_getElem?.1 hmem
      rw [h.taken k id hk, h'.taken k id hk]
    · rw [h.free id hid hmem, h'.free id hid hmem]
  · rw [Array.getElem?_eq_none (h.slots ▸ hid), Array.getElem?_eq_none (h'.slots ▸ hid)]

theorem exists_kept (s : SparseBuffer) (ids : List Nat) :
    ∃ kept, kept.Nodup ∧ (∀ id, id ∈ kept ↔ id ∈ ids ∧ id < (Tiling.tileCount s.desc.size).area) ∧
      s.setTiles ids = s.setTiles kept := by
  have htaken := taken_kept s.desc (Tiling.tileCount s.desc.size).area ids
  refine ⟨kept _ ids, htaken.nodup, fun id => mem_kept, ?_⟩
  have hsame := htaken.unique (taken_setTiles s htaken.nodup fun id hid => (mem_kept.1 hid).2)
  unfold setTiles at hsame ⊢
  dsimp only at hsame ⊢
  rw [hsame]

/-- The tiles that are owned are those of the image that the list names, where it names them first. -/
theorem tileIds_setTiles_eq (s : SparseBuffer) (ids : List Nat) :
    (s.setTiles ids).tileIds = kept (Tiling.tileCount s.desc.size).area ids := by
  have htaken := taken_kept s.desc (Tiling.tileCount s.desc.size).area ids
  show (ids.foldl (own s.desc) _).1.toList.map OwnedTile.id = _
  rw [htaken.tiles, List.map_map]
  exact List.map_id _

/-- Whatever list tiles are chosen from, the buffer owns those that its tiles name. -/
theorem owns_tileIds_setTiles (s : SparseBuffer) (hd : s.desc.Valid) (ids : List Nat) :
    Owns (s.setTiles ids).tileIds (s.setTiles ids) := by
  obtain ⟨kept, hnd, hmem, heq⟩ := s.exists_kept ids
  have hlt : ∀ id ∈ kept, id < (Tiling.tileCount s.desc.size).area := fun id hid => ((hmem id).1 hid).2
  rw [heq, tileIds_setTiles s hnd hlt]
  exact owns_setTiles s hd hnd hlt

/-! ## What keeps the tasks -/

theorem regions_setAccumIds (tiles : Array OwnedTile) (n : Int) :
    (tiles.map fun u => { u with accumId := n }).toList.map OwnedTile.region = tiles.toList.map OwnedTile.region := by
  rw [Array.toList_map, List.map_map]
  rfl

theorem sameTasks_beginFrame (s : SparseBuffer) : SameTasks s s.beginFrame :=
  ⟨rfl, regions_setAccumIds .., rfl, rfl, rfl⟩

theorem sameTasks_clear (s : SparseBuffer) : SameTasks s s.clear :=
  ⟨rfl, regions_setAccumIds .., rfl, rfl, Array.size_replicate⟩

theorem labels_setAccumIds (tiles : Array OwnedTile) (n : Int) :
    (tiles.map fun u => { u with accumId := n }).toList.map (fun u => (u.id, u.accumId)) =
      (tiles.toList.map fun u => (u.id, u.accumId)).map fun l => (l.1, n) := by
  rw [Array.toList_map, List.map_map, List.map_map]
  rfl

/-- The error of a frame at its end. -/
def finalVariance (s : SparseBuffer) : Float32 :=
  if s.tracker.isEnabled then largestError (s.taskOrder.map s.tracker.get) else s.life.variance

theorem endFrame_eq (s : SparseBuffer) :
    s.endFrame = { s with life := { s.life with variance := s.finalVariance } } := by
  unfold endFrame finalVariance
  cases s.tracker.isEnabled with
  | true => rfl
  | false => rfl

theorem life_endFrame (s : SparseBuffer) : ∃ variance, s.endFrame.life = { s.life with variance } := by
  rw [endFrame_eq]
  exact ⟨_, rfl⟩

theorem patch_endFrame (s : SparseBuffer) (i : Nat) : s.endFrame.patch i = s.patch i := by
  rw [endFrame_eq]
  rfl

theorem sameTasks_endFrame (s : SparseBuffer) : SameTasks s s.endFrame := by
  rw [endFrame_eq]
  exact ⟨rfl, rfl, rfl, rfl, rfl⟩

theorem sameTasks_setLife (s : SparseBuffer) (life : Lifecycle) (h : life.desc = s.desc) :
    SameTasks s (setLife s life) := ⟨h, rfl, rfl, rfl, rfl⟩

/-- What a new buffer is made of. -/
theorem eq_of_create (h : create d ids = .ok s) :
    d.Valid ∧ s = setTiles
      ⟨⟨d, -1, Binary32.posInf, .fresh d.size.area, [], .empty, 0⟩, #[], #[], .disabled, #[]⟩ ids := by
  unfold create Lifecycle.create at h
  cases hv : d.validate with
  | error e =>
    rw [hv] at h
    cases h
  | ok u =>
    rw [hv] at h
    cases h
    exact ⟨BufferDesc.valid_of_validate hv, rfl⟩

theorem validate_of_create (h : create d ids = .ok s) : d.validate = .ok () := by
  unfold create Lifecycle.create at h
  cases hv : d.validate with
  | error e =>
    rw [hv] at h
    cases h
  | ok u => rfl

/-- Every valid description makes a buffer. -/
theorem exists_create (hd : d.validate = .ok ()) (ids : List Nat) : ∃ s, create d ids = .ok s := by
  unfold create Lifecycle.create
  rw [hd]
  exact ⟨_, rfl⟩

theorem tileIds_of_create (h : create d ids = .ok s) :
    s.desc = d ∧ s.tileIds = kept (Tiling.tileCount d.size).area ids := by
  obtain ⟨-, rfl⟩ := eq_of_create h
  exact ⟨rfl, tileIds_setTiles_eq ..⟩

theorem eq_of_commit (h : s.commit = .ok s') : ∃ pipeline,
    Pipeline.build s.life.imageOps s.desc false = .ok pipeline ∧ s' = { s with life := { s.life with pipeline } } := by
  unfold commit Lifecycle.commit at h
  cases hp : Pipeline.build s.life.imageOps s.life.desc false with
  | error e =>
    rw [hp] at h
    cases h
  | ok pipeline =>
    rw [hp] at h
    cases h
    exact ⟨pipeline, hp, rfl⟩

/-- A buffer with committed operations. -/
def withOps (s : SparseBuffer) (imageOps : List ImageOp) (pipeline : Pipeline) : SparseBuffer :=
  { s with life := { s.life with imageOps, pipeline } }

theorem sameTasks_withOps (s : SparseBuffer) {ops : List ImageOp} {pl : Pipeline} : SameTasks s (s.withOps ops pl) :=
  ⟨rfl, rfl, rfl, rfl, rfl⟩

theorem commit_setImageOps {ops : List ImageOp} {pl : Pipeline} (h : Pipeline.build ops s.desc false = .ok pl) :
    (setImageOps s ops).commit = .ok (s.withOps ops pl) := by
  have h : Pipeline.build (setImageOps s ops).life.imageOps (setImageOps s ops).life.desc false = .ok pl := h
  unfold commit Lifecycle.commit
  rw [h]
  rfl

theorem eq_of_tryAccumulate {t left : Tile} (h : s.tryAccumulate t = .ok (s', left)) :
    ∃ k r, k < s.tiles.size ∧ s' = (s.absorbAt k r t).1 := by
  unfold tryAccumulate at h
  split at h
  · rename_i index region ho
    exact ⟨index, region, lt_of_ownedAt? ho, (congrArg Prod.fst (Except.ok.inj h)).symm⟩
  · cases h

theorem sameTasks_setTaskError (s : SparseBuffer) (i : Nat) (e : Float32) : SameTasks s (s.setTaskError i e) := by
  unfold setTaskError
  split
  · exact ⟨rfl, rfl, rfl, rfl, rfl⟩
  · exact .refl s

theorem sameTasks_setTaskAccumId (s : SparseBuffer) (i : Nat) (n : Int) : SameTasks s (s.setTaskAccumId i n) :=
  ⟨rfl, rfl, rfl, rfl, Array.size_setIfInBounds ..⟩

/-! ## Every step owns some tiles -/

/-- What frames, tiles and clearing do to a sparse buffer: its tiles stay, and the errors of its tasks are measured. -/
inductive Turn : SparseBuffer → SparseBuffer → Prop
  | setImageOps (s : SparseBuffer) (ops : List ImageOp) : Turn s (setImageOps s ops)
  | commit {s s' : SparseBuffer} : s.commit = .ok s' → Turn s s'
  | beginFrame (s : SparseBuffer) : Turn s s.beginFrame
  | accumulate (s : SparseBuffer) (t : Tile) : Turn s (s.accumulate t).1
  | tryAccumulate {s s' : SparseBuffer} {t left : Tile} : s.tryAccumulate t = .ok (s', left) → Turn s s'
  | accumulateAll (s : SparseBuffer) (tiles : List Tile) : Turn s (s.accumulateAll tiles)
  | setTaskAccumId (s : SparseBuffer) (i : Nat) (n : Int) : Turn s (s.setTaskAccumId i n)
  | endFrame (s : SparseBuffer) : Turn s s.endFrame
  | setStatus (s : SparseBuffer) (status : FrameStatus) : Turn s (setStatus s status)
  | clear (s : SparseBuffer) : Turn s s.clear
  | unmap (s : SparseBuffer) : Turn s (unmap s)

/-- A turn leaves the tasks and the numbers of the owned tiles alone. -/
theorem Turn.same (hs : Turn s s') : SameTasks s s' ∧ s'.tileIds = s.tileIds := by
  have hnumbers : ∀ n : Int, (s.tiles.map fun u => { u with accumId := n }).toList.map OwnedTile.id = s.tileIds := by
    intro n
    rw [Array.toList_map, List.map_map]
    rfl
  cases hs with
  | setImageOps ops => exact ⟨sameTasks_setLife s { s.life with imageOps := ops } rfl, rfl⟩
  | commit hc =>
    obtain ⟨pipeline, -, rfl⟩ := eq_of_commit hc
    exact ⟨sameTasks_setLife s { s.life with pipeline } rfl, rfl⟩
  | beginFrame => exact ⟨sameTasks_beginFrame s, hnumbers _⟩
  | accumulate t =>
    refine ⟨(accumulate_keeps s t).1, ?_⟩
    rw [tileIds_eq, tileIds_eq, (accumulate_frame s t).1]
  | tryAccumulate hc =>
    obtain ⟨k, r, hk, rfl⟩ := eq_of_tryAccumulate hc
    refine ⟨(absorbAt_keeps hk _).1, ?_⟩
    rw [tileIds_eq, tileIds_eq, (absorbAt_frame hk _).1]
  | accumulateAll tiles =>
    refine ⟨(accumulateAll_keeps s tiles).1, ?_⟩
    rw [tileIds_eq, tileIds_eq, (accumulateAll_frame s tiles).1]
  | setTaskAccumId i n => exact ⟨sameTasks_setTaskAccumId s i n, rfl⟩
  | endFrame =>
    refine ⟨sameTasks_endFrame s, ?_⟩
    rw [endFrame_eq]
    rfl
  | setStatus status => exact ⟨sameTasks_setLife s { s.life with status } rfl, rfl⟩
  | clear => exact ⟨sameTasks_clear s, hnumbers 0⟩
  | unmap => exact ⟨sameTasks_setLife s { s.life with mappings := s.life.mappings - 1 } rfl, rfl⟩

/-- Whatever is done to a sparse buffer. -/
inductive Step : SparseBuffer → SparseBuffer → Prop
  | setTiles (s : SparseBuffer) (ids : List Nat) : Step s (s.setTiles ids)
  | setImageOps (s : SparseBuffer) (ops : List ImageOp) : Step s (setImageOps s ops)
  | commit {s s' : SparseBuffer} : s.commit = .ok s' → Step s s'
  | beginFrame (s : SparseBuffer) : Step s s.beginFrame
  | accumulate (s : SparseBuffer) (t : Tile) : Step s (s.accumulate t).1
  | tryAccumulate {s s' : SparseBuffer} {t left : Tile} : s.tryAccumulate t = .ok (s', left) → Step s s'
  | accumulateAll (s : SparseBuffer) (tiles : List Tile) : Step s (s.accumulateAll tiles)
  | setTaskError (s : SparseBuffer) (i : Nat) (e : Float32) : Step s (s.setTaskError i e)
  | setTaskAccumId (s : SparseBuffer) (i : Nat) (n : Int) : Step s (s.setTaskAccumId i n)
  | endFrame (s : SparseBuffer) : Step s s.endFrame
  | setStatus (s : SparseBuffer) (status : FrameStatus) : Step s (setStatus s status)
  | clear (s : SparseBuffer) : Step s s.clear
  | unmap (s : SparseBuffer) : Step s (unmap s)

inductive Reachable : SparseBuffer → Prop
  | create {d : BufferDesc} {ids : List Nat} {s : SparseBuffer} : create d ids = .ok s → Reachable s
  | step {s s' : SparseBuffer} : Reachable s → Step s s' → Reachable s'

theorem Turn.step (hs : Turn s s') : Step s s' := by
  cases hs with
  | setImageOps ops => exact .setImageOps s ops
  | commit hc => exact .commit hc
  | beginFrame => exact .beginFrame s
  | accumulate t => exact .accumulate s t
  | tryAccumulate hc => exact .tryAccumulate hc
  | accumulateAll tiles => exact .accumulateAll s tiles
  | setTaskAccumId i n => exact .setTaskAccumId s i n
  | endFrame => exact .endFrame s
  | setStatus status => exact .setStatus s status
  | clear => exact .clear s
  | unmap => exact .unmap s

theorem Step.cases_turn (hs : Step s s') :
    (∃ ids, s' = s.setTiles ids) ∨ (∃ i e, s' = s.setTaskError i e) ∨ Turn s s' := by
  cases hs with
  | setTiles ids => exact .inl ⟨ids, rfl⟩
  | setTaskError i e => exact .inr (.inl ⟨i, e, rfl⟩)
  | setImageOps ops => exact .inr (.inr (.setImageOps s ops))
  | commit hc => exact .inr (.inr (.commit hc))
  | beginFrame => exact .inr (.inr (.beginFrame s))
  | accumulate t => exact .inr (.inr (.accumulate s t))
  | tryAccumulate hc => exact .inr (.inr (.tryAccumulate hc))
  | accumulateAll tiles => exact .inr (.inr (.accumulateAll s tiles))
  | setTaskAccumId i n => exact .inr (.inr (.setTaskAccumId s i n))
  | endFrame => exact .inr (.inr (.endFrame s))
  | setStatus status => exact .inr (.inr (.setStatus s status))
  | clear => exact .inr (.inr (.clear s))
  | unmap => exact .inr (.inr (.unmap s))

theorem tileIds_setTaskError (s : SparseBuffer) (i : Nat) (e : Float32) : (s.setTaskError i e).tileIds = s.tileIds := by
  unfold SparseBuffer.setTaskError
  split <;> rfl

/-- A step chooses other tiles, or it leaves the tasks and the numbers of the owned tiles alone. -/
theorem Step.choice (hs : Step s s') : (∃ ids, s' = s.setTiles ids) ∨ SameTasks s s' ∧ s'.tileIds = s.tileIds := by
  rcases hs.cases_turn with hids | ⟨i, e, rfl⟩ | hturn
  · exact .inl hids
  · exact .inr ⟨sameTasks_setTaskError s i e, tileIds_setTaskError s i e⟩
  · exact .inr hturn.same

theorem Owns.step (h : Owns s.tileIds s) (hs : Step s s') : Owns s'.tileIds s' := by
  rcases hs.choice with ⟨ids, rfl⟩ | ⟨hsame, hids⟩
  · exact owns_tileIds_setTiles s h.valid ids
  · rw [hids]
    exact hsame.owns h

theorem Reachable.owns (h : Reachable s) : Owns s.tileIds s := by
  induction h with
  | create h =>
    obtain ⟨hd, rfl⟩ := eq_of_create h
    refine owns_tileIds_setTiles _ ?_ _
    exact hd
  | step _ hs ih => exact ih.step hs

theorem Owns.region_eq (h : Owns s.tileIds s) {u : OwnedTile} (hu : u ∈ s.tiles) :
    u.region = Tiling.tileRegion s.desc.size u.id := by
  have hregions := h.regions
  rw [tileIds, List.map_map] at hregions
  exact List.map_inj_left.1 hregions u (Array.mem_toList_iff.2 hu)

/-! ## Tiles by their number -/

/-- Every tile of the image has a slot, which leads to it if it is owned. -/
structure Indexed (s : SparseBuffer) : Prop where
  size : s.slots.size = (Tiling.tileCount s.desc.size).area
  slot_iff : ∀ id k : Nat, s.slots[id]? = some (some k) ↔ s.tileIds[k]? = some id

theorem indexed_setTiles (s : SparseBuffer) (ids : List Nat) : Indexed (s.setTiles ids) := by
  have htaken := taken_kept s.desc (Tiling.tileCount s.desc.size).area ids
  refine ⟨htaken.slots, fun id k => ?_⟩
  rw [tileIds_setTiles_eq]
  exact htaken.slot_iff

theorem Indexed.keep (h : Indexed s) (hs : SameTasks s s') (hids : s'.tileIds = s.tileIds) : Indexed s' := by
  refine ⟨?_, ?_⟩
  · rw [hs.slots, hs.desc]
    exact h.size
  · rw [hs.slots, hids]
    exact h.slot_iff

theorem Reachable.indexed (h : Reachable s) : Indexed s := by
  induction h with
  | create h =>
    obtain ⟨-, rfl⟩ := eq_of_create h
    exact indexed_setTiles ..
  | step _ hs ih =>
    rcases hs.choice with ⟨ids, rfl⟩ | ⟨hsame, hids⟩
    · exact indexed_setTiles ..
    · exact ih.keep hsame hids

namespace Indexed

theorem slot_of_not_mem (h : Indexed s) (hlt : id < (Tiling.tileCount s.desc.size).area) (hid : id ∉ s.tileIds) :
    s.slots[id]? = some none := by
  cases hslot : s.slots[id]? with
  | none => exact absurd (h.size ▸ Array.getElem?_eq_none_iff.1 hslot) (Nat.not_le.2 hlt)
  | some slot =>
    cases slot with
    | none => rfl
    | some k => exact absurd (List.mem_of_getElem? ((h.slot_iff id k).1 hslot)) hid

/-- Numbers of owned tiles are those that something is found under. -/
theorem ownedAt?_isSome (h : Indexed s) {n : Nat} : (s.ownedAt? n).isSome = true ↔ n ∈ s.tileIds := by
  have htile : ∀ k : Nat, (s.tiles[k]?).map OwnedTile.id = s.tileIds[k]? := fun k => by simp [tileIds]
  rw [List.mem_iff_getElem?]
  unfold ownedAt?
  cases hslot : (s.slots[n]?).join with
  | none =>
    refine iff_of_false (by simp) ?_
    rintro ⟨k, hk⟩
    rw [(h.slot_iff _ k).2 hk] at hslot
    cases hslot
  | some k =>
    have hk := (h.slot_iff _ k).1 (Option.join_eq_some_iff.1 hslot)
    refine iff_of_true ?_ ⟨k, hk⟩
    obtain ⟨u, hu, -⟩ := Option.map_eq_some_iff.1 ((htile k).trans hk)
    show ((s.tiles[k]?).map _).isSome = true
    rw [hu]
    rfl

end Indexed

end AdaptiveFrame.SparseBuffer
