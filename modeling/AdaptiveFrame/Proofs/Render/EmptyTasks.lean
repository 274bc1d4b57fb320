import AdaptiveFrame.Proofs.Buffer.CellLookup
import AdaptiveFrame.Proofs.Buffer.Choosing
import AdaptiveFrame.Proofs.Render.DeviceFrame

/-!
# Tasks without pixels

A tile at the border of the image has tasks wholly outside of it. They count as converged from the moment the tile is
chosen: no tile reaches them, no frame schedules them, and clearing settles them again. So what a sparse buffer made of
a list of tiles stays as it is through all frames that follow (`tiles_chosen_for_good`).
-/

namespace AdaptiveFrame

namespace SparseBuffer

open FrameBuffer

variable {d : BufferDesc} {s s' s'' : SparseBuffer} {ids : List Nat} {i : Nat}

/-- The tasks without pixels count as converged. -/
def EmptySettled (s : SparseBuffer) : Prop := s.desc.has .variance = true → ∀ i, i < taskCount s →
  (taskRegionOf s.desc s.tiles i).isEmpty = true → s.taskError i = 0

namespace EmptySettled

/-- What measures no task without pixels keeps them settled. -/
theorem keep (h : EmptySettled s) (hs : SameTasks s s') (ho : Owns ids s)
    (herror : ∀ i, i < taskCount s → i ∉ s.taskOrder → s'.taskError i = s.taskError i) : EmptySettled s' := by
  intro hv i hi hempty
  rw [hs.desc] at hv
  rw [hs.taskCount] at hi
  rw [hs.taskRegionOf] at hempty
  refine (herror i hi fun hmem => ?_).trans (h hv i hi hempty)
  rw [(ho.mem_taskOrder_iff_taskCount.1 hmem).2] at hempty
  cases hempty

/-- Settling the tasks without pixels of a tracker settles them. -/
theorem of_settle (ho : Owns ids s) {tiles : Array OwnedTile} {t : ErrorTracker}
    (ht : s.tracker = settleEmptyTasks s.desc tiles t)
    (htiles : ∀ i, taskRegionOf s.desc s.tiles i = taskRegionOf s.desc tiles i) : EmptySettled s := by
  intro hv i hi hempty
  rw [htiles] at hempty
  have hsize := ho.size_errors hv
  rw [ht, ← ho.taskCount_eq] at hsize
  have hlt : i < t.errors.size := by
    rw [settleEmptyTasks, ErrorTracker.mapErrors, Array.size_mapIdx] at hsize
    rw [hsize]
    exact hi
  show s.tracker.get i = 0
  rw [ht, settleEmptyTasks, ErrorTracker.get_mapErrors t _ hlt, if_pos hempty]

theorem accumulate (h : EmptySettled s) (ho : Owns ids s) (t : Tile) : EmptySettled (s.accumulate t).1 := by
  refine h.keep (accumulate_keeps s t).1 ho fun i hi hout => ?_
  have hpatch := ho.patch_accumulate (i := i) (ho.taskCount_eq ▸ hi) t
  rw [if_neg fun htakes => hout (ho.mem_taskOrder_of_takes htakes)] at hpatch
  exact congrArg Patch.error hpatch

theorem accumulateAll (h : EmptySettled s) (ho : Owns ids s) (tiles : List Tile) :
    EmptySettled (s.accumulateAll tiles) := by
  have hall : Owns ids (s.accumulateAll tiles) ∧ EmptySettled (s.accumulateAll tiles) :=
    Writes.inv_foldl (I := fun c : SparseBuffer => Owns ids c ∧ EmptySettled c) ⟨ho, h⟩
      fun c t _ hc => ⟨(accumulate_keeps c t).1.owns hc.1, hc.2.accumulate hc.1 t⟩
  exact hall.2

theorem turn (h : EmptySettled s) (ho : Owns s.tileIds s) (hi : Indexed s) (hs : Turn s s') : EmptySettled s' := by
  cases hs with
  | accumulate t => exact h.accumulate ho t
  | accumulateAll tiles => exact h.accumulateAll ho tiles
  | @tryAccumulate _ t left htry =>
    rcases tryAccumulate_cases ho hi htry with hfolded | hleft
    · rw [show s' = (s.accumulate t).1 from congrArg Prod.fst hfolded]
      exact h.accumulate ho t
    · rw [show s' = s from congrArg Prod.fst hleft]
      exact h
  | clear => exact .of_settle ((sameTasks_clear s).owns ho) rfl (sameTasks_clear s).taskRegionOf
  | commit hc =>
    have hsame := (Turn.commit hc).same.1
    obtain ⟨pipeline, -, rfl⟩ := eq_of_commit hc
    exact h.keep hsame ho fun _ _ _ => rfl
  | endFrame =>
    refine h.keep (sameTasks_endFrame s) ho fun _ _ _ => ?_
    rw [endFrame_eq]
    rfl
  | setImageOps ops => exact h.keep (Turn.setImageOps s ops).same.1 ho fun _ _ _ => rfl
  | beginFrame => exact h.keep (Turn.beginFrame s).same.1 ho fun _ _ _ => rfl
  | setTaskAccumId i n => exact h.keep (Turn.setTaskAccumId s i n).same.1 ho fun _ _ _ => rfl
  | setStatus status => exact h.keep (Turn.setStatus s status).same.1 ho fun _ _ _ => rfl
  | unmap => exact h.keep (Turn.unmap s).same.1 ho fun _ _ _ => rfl

/-- Nor does a task that has pixels take another one's error. -/
theorem setTaskError (h : EmptySettled s) (ho : Owns ids s) (hi : i ∈ s.taskOrder) (e : Float32) :
    EmptySettled (s.setTaskError i e) := by
  refine h.keep (sameTasks_setTaskError s i e) ho fun j _ hout => ?_
  have hne : ¬ (⟨i, 0⟩ : Point).rowMajor s.tracker.grid.x = j := by
    rw [Point.rowMajor, Nat.zero_mul, Nat.zero_add]
    rintro rfl
    exact hout hi
  unfold SparseBuffer.setTaskError
  split
  · exact (ErrorTracker.get_update ..).trans (if_neg fun hj => hne hj.1)
  · rfl

end EmptySettled

/-! ## Runs -/

/-- What a list of tile numbers made of a buffer, and what its tasks without pixels come to. -/
structure Tended (d : BufferDesc) (ids : List Nat) (s : SparseBuffer) : Prop where
  desc : s.desc = d
  owns : Owns s.tileIds s
  indexed : Indexed s
  tileIds : s.tileIds = kept (Tiling.tileCount s.desc.size).area ids
  empty : EmptySettled s

theorem tended_setTiles (hdesc : s.desc = d) (hd : d.Valid) (ids : List Nat) : Tended d ids (s.setTiles ids) := by
  subst hdesc
  have howns := owns_tileIds_setTiles s hd ids
  exact ⟨rfl, howns, indexed_setTiles s ids, tileIds_setTiles_eq s ids, .of_settle howns rfl fun _ => rfl⟩

namespace Tended

theorem keep (h : Tended d ids s) (hs : SameTasks s s') (hids : s'.tileIds = s.tileIds) (he : EmptySettled s') :
    Tended d ids s' where
  desc := hs.desc.trans h.desc
  owns := hids ▸ hs.owns h.owns
  indexed := h.indexed.keep hs hids
  tileIds := by rw [hids, hs.desc, h.tileIds]
  empty := he

theorem turn (h : Tended d ids s) (hs : Turn s s') : Tended d ids s' :=
  h.keep hs.same.1 hs.same.2 (h.empty.turn h.owns h.indexed hs)

/-- A frame is a course of turns. -/
theorem after (h : Tended d ids s) (render : PixelRenderer) (shot : Shot) :
    Tended d ids (Frame.after render s shot) :=
  Frame.after_keeps h (fun s h => h.turn (.beginFrame s)) (fun s status h => h.turn (.setStatus s status))
    (fun s tiles h => h.turn (.accumulateAll s tiles)) (fun s _ h => h.turn (.endFrame s)) (fun _ h => h) render shot

/-- The image hands a device the errors of tasks that have pixels. -/
theorem pushBack (h : Tended d ids s) (image : DenseBuffer) (hi : i ∈ s.taskOrder) :
    Tended d ids (DeviceGroup.pushBack image s i) ∧ SameTasks s (DeviceGroup.pushBack image s i) := by
  unfold DeviceGroup.pushBack
  split
  · rename_i id _
    have hset := h.keep (sameTasks_setTaskError s i _) (tileIds_setTaskError s i _)
      (h.empty.setTaskError h.owns hi (FrameBuffer.taskError image id))
    have hturn := Turn.setTaskAccumId (s.setTaskError i (FrameBuffer.taskError image id)) i (image.taskAccumId id)
    exact ⟨hset.turn hturn, (sameTasks_setTaskError s i _).trans hturn.same.1⟩
  · exact ⟨h, .refl s⟩

theorem pushBackAll (h : Tended d ids s) (image : DenseBuffer) :
    Tended d ids (s.taskOrder.foldl (DeviceGroup.pushBack image) s) := by
  have hall : Tended d ids (s.taskOrder.foldl (DeviceGroup.pushBack image) s) ∧
      SameTasks s (s.taskOrder.foldl (DeviceGroup.pushBack image) s) := by
    refine Writes.inv_foldl (I := fun c : SparseBuffer => Tended d ids c ∧ SameTasks s c) ⟨h, .refl s⟩ ?_
    intro c i hi hc
    obtain ⟨hback, hsame⟩ := hc.1.pushBack image (i := i) (by rw [hc.2.taskOrder]; exact hi)
    exact ⟨hback, hc.2.trans hsame⟩
  exact hall.1

/-- A device goes through its part of a frame, and is then handed back what the image knows. -/
theorem shared (h : Tended d ids s) {stop : Interruption} {render : PixelRenderer} {camera : Camera}
    {config : SamplingConfig} {g : DeviceGroup} {b : DenseBuffer} {k : Nat} (hk : g.devices[k]? = some s)
    (hk' : (g.render stop render camera config b).1.devices[k]? = some s') : Tended d ids s' := by
  obtain ⟨part, hpart, rfl⟩ := Option.map_eq_some_iff.1 ((List.getElem?_map ..).symm.trans hk')
  obtain ⟨s₀, first, hs₀, rfl⟩ := DeviceGroup.exists_renderPart hpart
  obtain rfl : s = s₀ := Option.some.inj (hk.symm.trans hs₀)
  rw [DeviceGroup.renderPart_eq]
  refine pushBackAll ?_ _
  dsimp only
  exact ((h.turn (.beginFrame s)).turn (.accumulateAll _ _)).turn (.endFrame _)

theorem not_mem_schedule (h : Tended d ids s) (hempty : (taskRegionOf s.desc s.tiles i).isEmpty = true)
    (threshold : Float32) (n : Nat) : i ∉ s.schedule threshold n := by
  have hout : i ∉ s.taskOrder := by
    intro hmem
    rw [(h.owns.mem_taskOrder_iff_taskCount.1 hmem).2] at hempty
    cases hempty
  unfold schedule
  split
  · exact fun hmem => hout (List.mem_filter.1 hmem).1
  · exact hout

end Tended

/-- What frames, tiles and clearing can make of a buffer, whether it is driven by itself or as one of the devices that
share an image. -/
inductive Later (s : SparseBuffer) : SparseBuffer → Prop
  | start : Later s s
  | turn {s' s'' : SparseBuffer} : Later s s' → Turn s' s'' → Later s s''
  | frame {s' : SparseBuffer} (stop : Interruption) (render : PixelRenderer) (camera : Camera)
      (config : SamplingConfig) : Later s s' → Later s (Frame.render stop render camera config s').1
  | shared {s' s'' : SparseBuffer} (stop : Interruption) (render : PixelRenderer) (camera : Camera)
      (config : SamplingConfig) (g : DeviceGroup) (b : DenseBuffer) (k : Nat) : Later s s' →
      g.devices[k]? = some s' → (g.render stop render camera config b).1.devices[k]? = some s'' → Later s s''

theorem Tended.later (h : Tended d ids s) (hs : Later s s') : Tended d ids s' := by
  induction hs with
  | start => exact h
  | turn _ hturn ih => exact ih.turn hturn
  | frame stop render camera config _ ih => exact ih.after render ⟨stop, camera, config⟩
  | shared stop render camera config g b k _ hk hk' ih => exact ih.shared hk hk'

/-- **Tiles are chosen once and for all.** From every valid description whose tiles can be counted in words, and every
list of tile numbers, a buffer is made, and other tiles can be chosen from any list later on. Either way the buffer keeps
what it made of the list (`ChosenFrom`) through all frames, tiles and clearing that follow; and all the time a task
wholly outside the image has error zero, if errors are kept, and is never scheduled. The tasks of the chosen tiles have
to be few enough for a word, too, which then counts them. -/
theorem tiles_chosen_for_good (d : BufferDesc) (ids : List Nat) (hd : d.validate = .ok ()) (hfits : d.TilesFit)
    (htasks : (kept (Tiling.tileCount d.size).area ids).length * d.tasksPerTile.area < 2 ^ 32) :
    (∃ s, createWord d ids = .ok s) ∧
    ∀ s, (createWord d ids = .ok s ∨ ∃ r, Reachable r ∧ r.desc = d ∧ s = r.setTilesWord ids) → ChosenFrom ids s ∧
      ∀ s', Later s s' → s'.desc = d ∧ ChosenFrom ids s' ∧ s'.taskTotalWord.toNat = taskCount s' ∧
        ∀ i, i < taskCount s' → (taskRegionOf d s'.tiles i).isEmpty = true →
          (d.has .variance = true → s'.taskError i = 0) ∧ ∀ threshold n, i ∉ s'.schedule threshold n := by
  rw [createWord_eq hfits]
  refine ⟨exists_create hd ids, fun s hs => ?_⟩
  have htended : Tended d ids s := by
    rcases hs with hs | ⟨r, hr, rfl, rfl⟩
    · obtain ⟨hvalid, rfl⟩ := eq_of_create hs
      exact tended_setTiles (d := d) rfl hvalid ids
    · rw [setTilesWord_eq hfits]
      exact tended_setTiles rfl hr.owns.valid ids
  refine ⟨chosenFrom htended.owns htended.indexed htended.tileIds, fun s' hs' => ?_⟩
  have htended' := htended.later hs'
  have hcount : taskCount s' < 2 ^ 32 := by
    rw [htended'.owns.taskCount_eq, htended'.tileIds, htended'.desc]
    exact htasks
  refine ⟨htended'.desc, chosenFrom htended'.owns htended'.indexed htended'.tileIds, toNat_taskTotalWord hcount,
    fun i hi hempty => ?_⟩
  rw [← htended'.desc] at hempty ⊢
  exact ⟨fun hv => htended'.empty hv i hi hempty, htended'.not_mem_schedule hempty⟩

/-- Of two tiles the second is one pixel wide, so of its four tasks only the first has pixels. It is named first, and
the tile that the image does not have is left out; after a frame its second task still has error zero. -/
theorem tiles_chosen_for_good_border :
    let d : BufferDesc := ⟨⟨65, 1⟩, .none, .ofList [.accum, .variance], ⟨32, 32⟩⟩
    let render : PixelRenderer := fun _ _ _ => .ofColor (.splat 1)
    (d.validate = .ok () ∧ d.TilesFit ∧
      (kept (Tiling.tileCount d.size).area [1, 9, 1, 0]).length * d.tasksPerTile.area < 2 ^ 32) ∧
    ∃ s, createWord d [1, 9, 1, 0] = .ok s ∧
      let s' := (Frame.render .none render .standard ⟨0.5, 1⟩ s.clear).1
      s'.tileIds = [1, 0] ∧ s'.slots[0]? = some (some 1) ∧ s'.taskError 1 = 0 ∧ 1 ∉ s'.schedule 0.5 1 := by
  have hd : BufferDesc.validate ⟨⟨65, 1⟩, .none, .ofList [.accum, .variance], ⟨32, 32⟩⟩ = .ok () := rfl
  intro d render
  have hfits : d.TilesFit := ⟨by decide, by decide, by decide⟩
  have htasks : (kept (Tiling.tileCount d.size).area [1, 9, 1, 0]).length * d.tasksPerTile.area < 2 ^ 32 := by decide
  obtain ⟨⟨s, hs⟩, hchosen⟩ := tiles_chosen_for_good d [1, 9, 1, 0] hd hfits htasks
  have hlater : Later s (Frame.render .none render .standard ⟨0.5, 1⟩ s.clear).1 :=
    .frame _ _ _ _ (.turn .start (.clear s))
  obtain ⟨hdesc, hkeeps, -, hempty⟩ := (hchosen s (.inl hs)).2 _ hlater
  refine ⟨⟨hd, hfits, htasks⟩, s, hs, ?_⟩
  generalize (Frame.render .none render .standard ⟨0.5, 1⟩ s.clear).1 = s' at hdesc hkeeps hempty
  have hids : s'.tileIds = [1, 0] := by
    rw [hkeeps.tileIds, hdesc]
    decide
  have hsize : s'.tiles.size = 2 := by simpa [tileIds] using congrArg List.length hids
  have hcount : 1 < taskCount s' := by
    show 1 < s'.tiles.size * s'.desc.tasksPerTile.x * s'.desc.tasksPerTile.y
    rw [hsize, hdesc]
    decide
  have hregion : (taskRegionOf d s'.tiles 1).isEmpty = true := by
    obtain ⟨u, hu, hid⟩ : ∃ u, s'.tiles[0]? = some u ∧ u.id = 1 := by
      have hfirst := congrArg (fun ids : List Nat => ids[0]?) hids
      simpa [tileIds] using hfirst
    have htile := hkeeps.regions u (Array.mem_iff_getElem?.2 ⟨0, hu⟩)
    rw [hid, hdesc] at htile
    rw [taskRegionOf, show tileIndexOf d 1 = 0 by decide, hu]
    dsimp only [OwnedTile.origin, OwnedTile.cell]
    rw [htile]
    decide
  obtain ⟨hzero, hnever⟩ := hempty 1 hcount hregion
  exact ⟨hids, (hkeeps.slot_iff 0 1).2 (by rw [hids]; rfl), hzero (by decide), hnever 0.5 1⟩

/-- A valid image of 4294967295 by 1 pixels has 67108864 tiles, but a word counts none of them: the sum that is divided
wraps. A buffer that is to own the first one owns nothing. -/
theorem no_tiles_of_widest_image :
    let d : BufferDesc := ⟨⟨4294967295, 1⟩, .rgba32f, .ofList [.color, .accum], ⟨8, 8⟩⟩
    d.validate = .ok () ∧ 0 < (Tiling.tileCount d.size).area ∧ ∃ s, createWord d [0] = .ok s ∧ s.tileIds = [] := by
  have hd : BufferDesc.validate ⟨⟨4294967295, 1⟩, .rgba32f, .ofList [.color, .accum], ⟨8, 8⟩⟩ = .ok () := rfl
  intro d
  have hnone : inRangeWord d [0] = [] := by decide
  obtain ⟨s, hs⟩ := exists_create hd (inRangeWord d [0])
  refine ⟨hd, by decide, s, hs, ?_⟩
  rw [(tileIds_of_create hs).2, hnone]
  rfl

end SparseBuffer

end AdaptiveFrame
