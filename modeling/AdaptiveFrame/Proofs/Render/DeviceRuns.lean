import AdaptiveFrame.Proofs.Filter.Collecting
import AdaptiveFrame.Proofs.Render.Mirroring

/-!
# Runs on several devices

The tiles of an image that are dealt to any number of devices reach every task once, and operations that a
dense buffer commits are committed by all devices. A new group therefore mirrors a new buffer, and does so
through every run of frames and clears: whatever is read off the composed image is what the buffer that
rendered by itself gives.
-/

namespace AdaptiveFrame

open FrameBuffer SparseBuffer

variable {d : BufferDesc} {b b₀ : DenseBuffer} {ops : List ImageOp} {pl : Pipeline}

/-! ## Dealing tiles -/

namespace DeviceGroup

variable {tiles n k id : Nat}

theorem mem_share : id ∈ share tiles n k ↔ id < tiles ∧ id % n = k := by
  rw [share, List.mem_filter, List.mem_range, beq_iff_eq]

theorem nodup_share (tiles n k : Nat) : (share tiles n k).Nodup := List.nodup_range.filter _

/-- Every tile is dealt once. -/
theorem nodup_shares (tiles n : Nat) : ((List.range n).map (share tiles n)).flatten.Nodup := by
  rw [List.nodup_flatten]
  refine ⟨fun ids hids => ?_, List.pairwise_map.2 (List.nodup_range.imp fun {k l} hkl id hk hl => hkl ?_)⟩
  · obtain ⟨k, -, rfl⟩ := List.mem_map.1 hids
    exact nodup_share tiles n k
  · rw [← (mem_share.1 hk).2, ← (mem_share.1 hl).2]

theorem mem_shares (hn : 0 < n) (hid : id < tiles) : id ∈ ((List.range n).map (share tiles n)).flatten :=
  List.mem_flatten.2 ⟨share tiles n (id % n), List.mem_map_of_mem (List.mem_range.2 (Nat.mod_lt id hn)),
    mem_share.2 ⟨hid, rfl⟩⟩

end DeviceGroup

/-! ## Committing operations -/

theorem DeviceGroup.attach_eq {ss : List SparseBuffer} (hd : ∀ s ∈ ss, s.desc = d)
    (h : Pipeline.build ops d false = .ok pl) :
    attach ops ss = (ss.map fun s => s.withOps ops pl, .ok ()) := by
  induction ss with
  | nil => rfl
  | cons s ss ih =>
    have hbuild : Pipeline.build ops s.desc false = .ok pl := by rw [hd s (by simp), h]
    unfold attach
    dsimp only
    rw [commit_setImageOps hbuild, ih fun s' hs' => hd s' (by simp [hs'])]
    rfl

/-! ## A new group -/

/-- The device of a new group that owns some tiles. -/
def newDevice (life : Lifecycle) (ids : List Nat) : SparseBuffer := setTiles ⟨life, #[], #[], .disabled, #[]⟩ ids

/-- The tiles of the devices of a new group. -/
def shares (d : BufferDesc) (n : Nat) : List (List Nat) :=
  (List.range (max n 1)).map (DeviceGroup.share (Tiling.tileCount d.size).area (max n 1))

theorem SparseBuffer.create_eq (h : DenseBuffer.create d = .ok b) (ids : List Nat) :
    SparseBuffer.create d ids = .ok (newDevice b.life ids) := by
  unfold DenseBuffer.create at h
  unfold SparseBuffer.create
  cases hl : Lifecycle.create d with
  | error e =>
    rw [hl] at h
    cases h
  | ok life =>
    rw [hl] at h
    cases h
    rfl

/-- The tiles of an image can be dealt to any number of devices. -/
theorem DeviceGroup.create_eq (h : DenseBuffer.create d = .ok b) (n : Nat) :
    DeviceGroup.create d n = .ok ⟨(shares d n).map (newDevice b.life)⟩ := by
  have hdevices : ∀ ks : List Nat,
      (ks.mapM fun k => SparseBuffer.create d (share (Tiling.tileCount d.size).area (max n 1) k)) =
        .ok ((ks.map (share (Tiling.tileCount d.size).area (max n 1))).map (newDevice b.life)) := by
    intro ks
    induction ks with
    | nil => rfl
    | cons k ks ih =>
      rw [List.mapM_cons, SparseBuffer.create_eq h, ih]
      rfl
  unfold DeviceGroup.create
  dsimp only
  rw [hdevices]
  rfl

/-- A buffer that received nothing yet. -/
structure DenseBuffer.IsBlank (b : DenseBuffer) : Prop where
  intact : b.Intact
  frameId : b.life.frameId = -1
  pixels : b.pixels = .fill b.desc.image .blank
  tracker : ∃ grid, b.tracker = .fresh grid
  accumIds : ∃ n, b.accumIds = Array.replicate n 0

theorem DenseBuffer.isBlank_of_commit (h₀ : create d = .ok b₀) (hc : (setImageOps b₀ ops).commit = .ok b) :
    b.IsBlank ∧ b₀.life.desc = d ∧ b.desc = d ∧ b₀.life.frameId = b.life.frameId ∧
      Pipeline.build ops d true = .ok b.life.pipeline := by
  have hops : Intact (setImageOps b₀ ops) := (Intact.of_create h₀).setLife rfl
  have hb := hops.commit hc
  obtain ⟨-, rfl⟩ := eq_of_create h₀
  obtain ⟨pipeline, hbuild, rfl⟩ := eq_of_commit hc
  exact ⟨⟨hb, rfl, rfl, ⟨_, rfl⟩, ⟨_, rfl⟩⟩, rfl, rfl, rfl, hbuild⟩

section NewDevice

variable {life : Lifecycle} {ids : List Nat} {imageOps : List ImageOp}

/-- The patches of a new device look like those of a new buffer. -/
theorem agrees_newDevice (h : b.IsBlank) (hd : life.desc = b.desc) (hnd : ids.Nodup)
    (hlt : ∀ id ∈ ids, id < (Tiling.tileCount life.desc.size).area) : Agrees b (newDevice life ids) := by
  have hvalid : life.desc.Valid := hd ▸ h.intact.valid
  have ho : Owns ids (newDevice life ids) := owns_setTiles _ hvalid hnd hlt
  obtain ⟨grid, htracker⟩ := h.tracker
  obtain ⟨n, haccum⟩ := h.accumIds
  refine ⟨⟨ids, ho⟩, hd, ?_⟩
  intro i hi
  obtain ⟨id, hid⟩ := ho.tile_task hi
  have hregion : ((newDevice life ids).patch i).pixels.region =
      (b.patch ((newDevice life ids).denseId i)).pixels.region :=
    (ho.region_task hi).trans (congrArg (fun d => DenseBuffer.taskRegionOf d _) hd)
  have hstore : storeAt (newDevice life ids).tiles (tileIndexOf (newDevice life ids).desc i) =
      .fill (Tiling.tileRegion life.desc.size id) .blank :=
    storeAt_setTiles ⟨life, #[], #[], .disabled, #[]⟩ hnd hlt hid
  refine Patch.visible_ext hregion ?_ ?_ ?_
  · intro p hp
    have hin := ho.contains_store hid hp
    have hp' := hp
    rw [hstore, Raster.region_fill] at hin
    rw [hregion] at hp'
    have himage := DenseBuffer.image_contains_of_task h.intact.valid hp'
    have hleft : ((newDevice life ids).patch i).pixels.getD p .blank = .blank := by
      refine (Raster.getD_tabulate hp _ _).trans ?_
      rw [hstore, Raster.getD_fill hin]
    have hright : (b.patch ((newDevice life ids).denseId i)).pixels.getD p .blank = .blank := by
      refine (Raster.getD_tabulate hp' _ _).trans ?_
      rw [h.pixels, Raster.getD_fill himage]
    rw [hleft, hright]
  · refine (get_settleEmptyTasks _ _ _ (ho.mem_taskOrder.1 hi).2).trans ?_
    show ErrorTracker.get (if life.desc.has .variance then .fresh _ else .disabled) i = b.tracker.get _
    rw [htracker, ErrorTracker.get_fresh]
    split <;> exact ErrorTracker.get_fresh ..
  · refine (getD_replicate_zero ..).trans ?_
    show 0 = (b.accumIds[_]?).getD 0
    rw [haccum, getD_replicate_zero]

/-- A new device follows a new buffer with the same pixel operations. -/
theorem follows_newDevice (h : b.IsBlank) (hd : life.desc = b.desc) (hframe : life.frameId = b.life.frameId)
    (hpl : pl.pixelOps = b.life.pipeline.pixelOps) (hnd : ids.Nodup)
    (hlt : ∀ id ∈ ids, id < (Tiling.tileCount life.desc.size).area) :
    Follows b ((newDevice life ids).withOps imageOps pl) :=
  ⟨(agrees_newDevice h hd hnd hlt).of_same (sameTasks_withOps _) fun _ _ => rfl, hframe, hpl⟩

end NewDevice

/-- A new group mirrors a new buffer. -/
theorem mirrors_new (h₀ : DenseBuffer.create d = .ok b₀) (hc : (setImageOps b₀ ops).commit = .ok b) (n : Nat) :
    Mirrors b b ((shares d n).map fun ids =>
      (newDevice b₀.life ids).withOps (ops.filter ImageOp.isPixel) ⟨b.life.pipeline.pixelOps, []⟩) := by
  obtain ⟨hblank, hdesc₀, hdesc, hframe, -⟩ := DenseBuffer.isBlank_of_commit h₀ hc
  have hn : 0 < max n 1 := Nat.lt_of_lt_of_le Nat.one_pos (Nat.le_max_right ..)
  have hmem : ∀ ids ∈ shares d n, ids.Nodup ∧ ∀ id ∈ ids, id < (Tiling.tileCount b₀.life.desc.size).area := by
    intro ids hids
    obtain ⟨k, -, rfl⟩ := List.mem_map.1 hids
    rw [hdesc₀]
    exact ⟨DeviceGroup.nodup_share .., fun id hid => (DeviceGroup.mem_share.1 hid).1⟩
  have hvalid : d.Valid := hdesc ▸ hblank.intact.valid
  have hvalid₀ : b₀.life.desc.Valid := hdesc₀ ▸ hvalid
  refine ⟨⟨⟨hblank.intact, hblank.intact, ⟨b.life.status, rfl⟩, rfl, rfl, fun _ _ => rfl, rfl⟩, rfl⟩, ?_, ?_, ?_⟩
  · intro hpos
    rw [hblank.frameId] at hpos
    exact absurd hpos (by decide)
  · rw [DenseBuffer.taskOrder, hdesc]
    refine denseIds_perm hvalid ?_ (DeviceGroup.nodup_shares ..) ?_
    · intro ids hids
      obtain ⟨hnd, hlt⟩ := hmem ids hids
      exact ⟨(sameTasks_withOps _).owns (owns_setTiles _ hvalid₀ hnd hlt), hdesc₀⟩
    · intro id hid
      exact DeviceGroup.mem_shares hn hid
  · intro s hs
    obtain ⟨ids, hids, rfl⟩ := List.mem_map.1 hs
    obtain ⟨hnd, hlt⟩ := hmem ids hids
    exact follows_newDevice hblank (hdesc₀.trans hdesc.symm) hframe rfl hnd hlt

/-! ## Runs -/

/-- What the owner of an image does with it. -/
inductive RunStep where
  | frame (camera : Camera) (config : SamplingConfig)
  | clear

/-- A buffer after a run, and what its frames reported. -/
def DenseBuffer.drive (render : PixelRenderer) : List RunStep → DenseBuffer → DenseBuffer × List FrameStats
  | [], b => (b, [])
  | .frame camera config :: steps, b =>
    let (b, stats) := Frame.render .none render camera config b
    let (b, rest) := drive render steps b
    (b, stats :: rest)
  | .clear :: steps, b => drive render steps b.clear

/-- The image of a group after a run on its devices, and what the frames reported. -/
def DeviceGroup.drive (render : PixelRenderer) :
    List RunStep → DeviceGroup → DenseBuffer → DenseBuffer × List FrameStats
  | [], _, b => (b, [])
  | .frame camera config :: steps, g, b =>
    let (g, b, stats) := g.render .none render camera config b
    let (b, rest) := drive render steps g b
    (b, stats :: rest)
  | .clear :: steps, g, b => drive render steps g.clear b.clear

/-- A run keeps a group and a buffer alike, and their frames report the same. -/
theorem Mirrors.drive (render : PixelRenderer) (steps : List RunStep) {b c : DenseBuffer} {ss : List SparseBuffer}
    (h : Mirrors b c ss) : DenseBuffer.Alike (b.drive render steps).1 (DeviceGroup.drive render steps ⟨ss⟩ c).1 ∧
      (DeviceGroup.drive render steps ⟨ss⟩ c).2 = (b.drive render steps).2 := by
  induction steps generalizing b c ss with
  | nil => exact ⟨h.alike, rfl⟩
  | cons step steps ih =>
    cases step with
    | frame camera config =>
      obtain ⟨c', ss', hrender, h'⟩ := h.frame render camera config
      obtain ⟨halike, hstats⟩ := ih h'
      unfold DeviceGroup.drive DenseBuffer.drive
      rw [hrender]
      exact ⟨halike, congrArg (_ :: ·) hstats⟩
    | clear => exact ih h.clear

/-- Two images that read the same: the frame number, its error, all that steers adaptive sampling and every
channel but those of the running means. -/
structure ReadsSame (b c : DenseBuffer) : Prop where
  frameId : frameId c = frameId b
  variance : variance c = variance b
  regions : c.tracker.regions = b.tracker.regions
  taskError : ∀ id, taskError c id = taskError b id
  taskAccumId : ∀ id, taskAccumId c id = taskAccumId b id
  channel : ∀ ch, ch ≠ .accum → ch ≠ .variance → (map? c ch).map Prod.fst = (map? b ch).map Prod.fst

theorem DenseBuffer.Alike.readsSame {c : DenseBuffer} (h : Alike b c) : ReadsSame b c := by
  obtain ⟨status, hlife⟩ := h.life
  refine ⟨?_, ?_, ?_, ?_, ?_, ?_⟩
  · show c.life.frameId = b.life.frameId
    rw [hlife]
  · show c.life.variance = b.life.variance
    rw [hlife]
  · rw [h.tracker]
  · intro id
    exact congrArg (fun t : ErrorTracker => t.get id) h.tracker
  · intro id
    exact congrArg (fun ids : Array Int => (ids[id]?).getD 0) h.accumIds
  · intro ch ha hv
    unfold map?
    rw [Option.map_map, Option.map_map]
    exact congrArg (Option.map id) (h.channel? ha hv)

/-- **Devices render what one buffer does.** Take any description, any number of devices and any operations
that a buffer of this description commits. The tiles can be dealt and all devices take the operations, and
whatever frames and clears follow, with whatever renderer, the frames report the same on the devices as
without them, and the image that they compose reads as the buffer that rendered by itself. -/
theorem devices_render_alike (d : BufferDesc) (n : Nat) (ops : List ImageOp) {b₀ b : DenseBuffer}
    (h₀ : DenseBuffer.create d = .ok b₀) (hc : (setImageOps b₀ ops).commit = .ok b) :
    ∃ g₀ g, DeviceGroup.create d n = .ok g₀ ∧ g₀.setImageOps ops = (g, .ok ()) ∧
      ∀ (render : PixelRenderer) (steps : List RunStep),
        let alone := b.drive render steps
        let shared := g.drive render steps b
        shared.2 = alone.2 ∧ ReadsSame alone.1 shared.1 := by
  obtain ⟨-, hdesc₀, -, -, hbuild⟩ := DenseBuffer.isBlank_of_commit h₀ hc
  have hpixels : Pipeline.build (ops.filter ImageOp.isPixel) d false = .ok ⟨b.life.pipeline.pixelOps, []⟩ :=
    Pipeline.collect_pixels hbuild
  refine ⟨⟨(shares d n).map (newDevice b₀.life)⟩, ⟨(shares d n).map fun ids =>
    (newDevice b₀.life ids).withOps (ops.filter ImageOp.isPixel) ⟨b.life.pipeline.pixelOps, []⟩⟩,
    DeviceGroup.create_eq h₀ n, ?_, fun render steps => ?_⟩
  · have hdevices : ∀ s ∈ (shares d n).map (newDevice b₀.life), s.desc = d := by
      intro s hs
      obtain ⟨ids, -, rfl⟩ := List.mem_map.1 hs
      exact hdesc₀
    unfold DeviceGroup.setImageOps
    dsimp only
    rw [DeviceGroup.attach_eq hdevices hpixels, List.map_map]
    rfl
  · obtain ⟨halike, hstats⟩ := (mirrors_new h₀ hc n).drive render steps
    exact ⟨hstats, halike.readsSame⟩

/-- A strip over two tiles on two devices, with an operation of each kind. -/
theorem devices_render_alike_strip :
    let ops : List ImageOp := [.pixel (.tint ⟨0, 0, 0.2⟩), .frame .markRed]
    let render : PixelRenderer := fun _ p i => .ofColor (.splat (.ofNat (p.x + i)))
    let frame : RunStep := .frame .standard ⟨0.5, 8⟩
    let steps := [frame, frame, frame, .clear, frame]
    ∃ b₀ b, (DenseBuffer.create ⟨⟨65, 1⟩, .rgba8, .ofList [.color, .accum, .variance], defaultTaskSize⟩ = .ok b₀ ∧
        (setImageOps b₀ ops).commit = .ok b) ∧
      ∃ g₀ g, DeviceGroup.create ⟨⟨65, 1⟩, .rgba8, .ofList [.color, .accum, .variance], defaultTaskSize⟩ 2 = .ok g₀ ∧
        g₀.devices.map tileIds = [[0], [1]] ∧ g₀.setImageOps ops = (g, .ok ()) ∧
        (g.drive render steps b).2.length = 4 ∧ (g.drive render steps b).2 = (b.drive render steps).2 ∧
        ReadsSame (b.drive render steps).1 (g.drive render steps b).1 := by
  intro ops render frame steps
  obtain ⟨b₀, b, hb₀, hb, hframes⟩ :
      ∃ b₀ b, DenseBuffer.create ⟨⟨65, 1⟩, .rgba8, .ofList [.color, .accum, .variance], defaultTaskSize⟩ = .ok b₀ ∧
        (setImageOps b₀ ops).commit = .ok b ∧ (b.drive render steps).2.length = 4 := ⟨_, _, rfl, rfl, rfl⟩
  have hdealt : (DeviceGroup.create ⟨⟨65, 1⟩, .rgba8, .ofList [.color, .accum, .variance], defaultTaskSize⟩ 2).map
      (fun g => g.devices.map tileIds) = .ok [[0], [1]] := rfl
  obtain ⟨g₀, g, hg₀, hg, hrun⟩ := devices_render_alike _ 2 ops hb₀ hb
  obtain ⟨hstats, hreads⟩ := hrun render steps
  rw [hg₀] at hdealt
  exact ⟨b₀, b, ⟨hb₀, hb⟩, g₀, g, hg₀, Except.ok.inj hdealt, hg, hstats ▸ hframes, hstats, hreads⟩

end AdaptiveFrame
