import AdaptiveFrame.Proofs.Render.Attaching
import AdaptiveFrame.Proofs.Render.DeviceRuns
import AdaptiveFrame.Proofs.Render.ImageOps

/-!
# Operations take effect on commit

A buffer keeps two lists of operations apart, those attached last and those of the last commit that was accepted. Only
the second ones act on tiles and frames, a commit that is refused leaves them at work, and one that finds nothing new
leaves the whole buffer as it is. A group of devices commits one device after another; since all devices have one
description, the first of them decides for all (`committed_operations_at_work`).
-/

namespace AdaptiveFrame

open AdaptiveFrame.Frame FrameBuffer

/-- The operations attached last, and those of the last commit that was accepted. -/
structure OpLists where
  attached : List ImageOp
  committed : List ImageOp

/-- The lists of a new buffer. -/
def OpLists.none : OpLists := ⟨[], []⟩

/-! ## Lives -/

namespace Lifecycle

variable {d : BufferDesc} {frameOps : Bool} {o : OpLists} {l l' : Lifecycle}

/-- What is attached and what is at work are as the lists say. -/
structure Holds (d : BufferDesc) (frameOps : Bool) (o : OpLists) (l : Lifecycle) : Prop where
  desc : l.desc = d
  attached : l.imageOps = o.attached
  atWork : Pipeline.build o.committed d frameOps = .ok l.pipeline

/-- A life that went on through frames or clearing. -/
def Continues (l l' : Lifecycle) : Prop := ∃ frameId variance status, l' = { l with frameId, variance, status }

theorem Holds.continues (h : Holds d frameOps o l) (hl : Continues l l') : Holds d frameOps o l' := by
  obtain ⟨_, _, _, rfl⟩ := hl
  exact ⟨h.desc, h.attached, h.atWork⟩

theorem Holds.attach (h : Holds d frameOps o l) (ops : List ImageOp) :
    Holds d frameOps { o with attached := ops } { l with imageOps := ops } := ⟨h.desc, rfl, h.atWork⟩

/-- What a commit puts to work are the operations attached last. -/
theorem Holds.commit (h : Holds d frameOps o l) {pl : Pipeline}
    (hbuild : Pipeline.build l.imageOps l.desc frameOps = .ok pl) :
    Holds d frameOps { o with committed := o.attached } { l with pipeline := pl } := by
  rw [h.attached, h.desc] at hbuild
  exact ⟨h.desc, h.attached, hbuild⟩

/-- Operations that were committed last are accepted again, and nothing changes at work. -/
theorem Holds.build_again (h : Holds d frameOps o l) (hsame : o.attached = o.committed) :
    Pipeline.build l.imageOps l.desc frameOps = .ok l.pipeline := by
  rw [h.attached, h.desc, hsame]
  exact h.atWork

end Lifecycle

/-! ## Buffers -/

namespace Frame

variable {β : Type} [FrameBuffer β]

/-- A buffer goes through a frame, or is cleared. -/
inductive Advance : β → β → Prop
  | frame (render : PixelRenderer) (shot : Shot) (b : β) : Advance b (after render b shot)
  | clear (b : β) : Advance b (FrameBuffer.clear b)

/-- What use can make of a buffer, told along with its lists of operations. In between it goes on in a given way. A
commit that is refused returns no buffer, so the old one stays. -/
inductive Used (go : β → β → Prop) (b : β) : OpLists → β → Prop
  | start : Used go b .none b
  | attach {o : OpLists} {c : β} (ops : List ImageOp) :
      Used go b o c → Used go b { o with attached := ops } (setImageOps c ops)
  | commit {o : OpLists} {c c' : β} :
      Used go b o c → FrameBuffer.commit c = .ok c' → Used go b { o with committed := o.attached } c'
  | go {o : OpLists} {c c' : β} : Used go b o c → go c c' → Used go b o c'

/-- The buffer with no operations at work. -/
def plain (b : β) : β := setLife b { life b with pipeline := .empty }

/-- What a buffer makes of lists of operations. `Works` says that operations are at work on it. -/
structure Heeds (d : BufferDesc) (frameOps : Bool) (Works : β → Pipeline → Prop) (o : OpLists) (c : β) : Prop where
  attached : (life c).imageOps = o.attached
  /-- The operations of the last commit are at work. -/
  atWork : ∃ pl, Pipeline.build o.committed d frameOps = .ok pl ∧ Works c pl
  accepted : ∀ ops pl, Pipeline.build ops d frameOps = .ok pl →
    ∃ c', FrameBuffer.commit (setImageOps c ops) = .ok c' ∧ Works c' pl
  refused : ∀ ops e, Pipeline.build ops d frameOps = .error e → FrameBuffer.commit (setImageOps c ops) = .error e
  /-- What is attached is neither read nor rendered with. -/
  idle : ∀ ops, (∀ ch, (map? (setImageOps c ops) ch).map Prod.fst = (map? c ch).map Prod.fst) ∧
    ∀ render events, reports render events (setImageOps c ops) = reports render events c ∧
      handleAll render events (setImageOps c ops) = setImageOps (handleAll render events c) ops
  /-- Committing once more leaves the whole buffer as it is. -/
  again : o.attached = o.committed → FrameBuffer.commit c = .ok c

end Frame

/-! ### Dense buffers -/

namespace DenseBuffer

variable {d : BufferDesc} {o : OpLists} {b c : DenseBuffer} {pl : Pipeline} {t : Tile}

/-- An image goes through frames that it renders by itself or with any group of devices, or is cleared. -/
inductive GoesOn : DenseBuffer → DenseBuffer → Prop
  | alone {b c : DenseBuffer} : Advance b c → GoesOn b c
  | shared (g : DeviceGroup) (render : PixelRenderer) (shot : Shot) (b : DenseBuffer) :
      GoesOn b (g.render shot.stop render shot.camera shot.config b).2.1

/-- Operations are at work: they recolor the tiles that are folded, and whatever the storage of their workers holds,
these make what is shown after a frame. -/
structure Works (b : DenseBuffer) (pl : Pipeline) : Prop where
  pipeline : b.life.pipeline = pl
  tiles : ∀ t : Tile, t.fitsCell = true → t.region.overlaps b.desc.image = true →
    (b.accumulate t).2 = pl.recolor ((plain b).accumulate t).2
  /-- The new color of a pixel is the one that is kept and displayed for it. -/
  colors : ∀ t : Tile, t.fitsCell = true → ∀ p, t.region.contains p = true → b.desc.image.contains p = true →
    let color := pl.tone (((plain b).accumulate t).2.sampleAt p).color
    (b.accumulate t).1.color.getD p .zero = color ∧ (b.accumulate t).1.DisplaysAs p color
  frames : b.desc.hasColor = true → ∀ (render : PixelRenderer) (shot : Shot) (workers : List FrameWorker),
    workers.map FrameWorker.op = pl.frameOps →
      (after render b shot).shownColor = (FrameWorker.processAll workers (after render b shot).frameImage).2

/-- A tile is left with the colors that it was folded to, recolored. -/
theorem tile_absorb (h : t.region.overlaps b.desc.image = true) : (b.absorb t).2 =
    b.life.pipeline.recolor ((b.pixels.foldTile (.dense b.desc) t).reflectTile (.dense b.desc) t) := by
  have hempty : (t.region.intersect b.desc.image).isEmpty = false := by simpa [Region.overlaps] using h
  obtain ⟨life, pixels, display, output, tracker, accumIds⟩ := b
  simp only [desc] at hempty ⊢
  simp only [absorb, hempty, Bool.false_eq_true, if_false]

/-- The color that a folded pixel keeps is the one that the tile is left with, and it is on display. -/
theorem color_absorb (h : b.Intact) {p : Point} (hp : b.desc.image.contains p = true)
    (ht : t.region.contains p = true) :
    (b.absorb t).1.color.getD p .zero = ((b.absorb t).2.sampleAt p).color ∧
      (b.absorb t).1.DisplaysAs p ((b.absorb t).2.sampleAt p).color := by
  have hin : b.pixels.region.contains p = true := by rw [h.pixels]; exact hp
  have hin' : (b.absorb t).1.pixels.region.contains p = true := by rw [pixels_absorb h]; exact hin
  have hmeets : t.region.overlaps b.desc.image = true := Region.overlaps_iff.2 ⟨p, ht, hp⟩
  have hleft : ((b.absorb t).2.sampleAt p).color = ((b.absorb t).1.pixels.getD p .blank).shown.color := by
    rw [tile_absorb hmeets, Store.color_left hin ht, pixels_absorb h]
  rw [hleft]
  exact ⟨Raster.getD_map hin' _ _ _, displays_iff.1 (displays_absorb h hp (.inl ht))⟩

theorem Intact.works (h : b.Intact) : b.Works b.life.pipeline := by
  have hleft : ∀ (c : DenseBuffer) (t : Tile), t.fitsCell = true → (c.accumulate t).2 = (c.absorb t).2 := by
    intro c t hfits
    rw [DenseBuffer.accumulate, if_pos hfits]
  have hrecolored : ∀ t : Tile, t.fitsCell = true → t.region.overlaps b.desc.image = true →
      (b.accumulate t).2 = b.life.pipeline.recolor ((plain b).accumulate t).2 := by
    intro t hfits hmeets
    rw [hleft b t hfits, hleft (plain b) t hfits, tile_absorb hmeets, tile_absorb (b := plain b) hmeets]
    rfl
  refine ⟨rfl, hrecolored, fun t hfits p ht hp => ?_, fun hcolor render shot workers hworkers => ?_⟩
  · have hnew := hrecolored t hfits (Region.overlaps_iff.2 ⟨p, ht, hp⟩)
    have htile : ((plain b).accumulate t).2.region.contains p = true := by
      rw [hleft (plain b) t hfits, tile_absorb (b := plain b) (Region.overlaps_iff.2 ⟨p, ht, hp⟩),
        Pipeline.region_recolor]
      exact ht
    have hcolor : ((b.absorb t).2.sampleAt p).color =
        b.life.pipeline.tone (((plain b).accumulate t).2.sampleAt p).color := by
      rw [← hleft b t hfits, hnew, Pipeline.sampleAt_recolor htile]
    obtain ⟨hkept, hshown⟩ := color_absorb h hp ht
    have hfolded : (b.accumulate t).1 = (b.absorb t).1.addRendered t.region.area := by
      rw [DenseBuffer.accumulate, if_pos hfits]
    rw [hcolor] at hkept hshown
    rw [hfolded]
    exact ⟨hkept, hshown⟩
  · rw [shownColor_after render shot h hcolor,
      (FrameWorker.processAll_eq workers (after render b shot).frameImage b.life.pipeline.pixelOps).2, hworkers]

/-- A new buffer has nothing attached and nothing at work. -/
theorem life_of_create (h : create d = .ok b) (frameOps : Bool) : b.life.Holds d frameOps .none := by
  obtain ⟨-, rfl⟩ := eq_of_create h
  exact ⟨rfl, rfl, rfl⟩

theorem commit_of_refused {e : FrameError} (h : Pipeline.build b.life.imageOps b.desc true = .error e) :
    b.commit = .error e := by
  have h : Pipeline.build b.life.imageOps b.life.desc true = .error e := h
  unfold commit Lifecycle.commit
  rw [h]
  rfl

/-- A buffer that came to lists of operations. There is an output exactly while there are frame operations. -/
structure Holds (d : BufferDesc) (o : OpLists) (b : DenseBuffer) : Prop where
  life : b.life.Holds d true o
  intact : b.Intact
  output : b.output.isSome = b.life.pipeline.hasFrameOps

namespace Holds

theorem of_create (h : create d = .ok b) : Holds d .none b := by
  have hintact := Intact.of_create h
  have hlife := life_of_create h true
  obtain ⟨-, rfl⟩ := eq_of_create h
  exact ⟨hlife, hintact, rfl⟩

theorem attach (h : Holds d o b) (ops : List ImageOp) : Holds d { o with attached := ops } (setImageOps b ops) :=
  ⟨h.life.attach ops, h.intact.setLife rfl, h.output⟩

theorem commit (h : Holds d o b) (hc : b.commit = .ok c) : Holds d { o with committed := o.attached } c := by
  have hintact := h.intact.commit hc
  obtain ⟨pipeline, hbuild, rfl⟩ := eq_of_commit hc
  refine ⟨h.life.commit hbuild, hintact, ?_⟩
  show Option.isSome (if pipeline.hasFrameOps then _ else _) = pipeline.hasFrameOps
  cases pipeline.hasFrameOps <;> rfl

/-- A buffer that was only folded into holds on to its lists. -/
theorem keep (h : Holds d o b) (hintact : c.Intact) (hlife : b.life.Continues c.life) (houtput : c.output = b.output) :
    Holds d o c := by
  refine ⟨h.life.continues hlife, hintact, ?_⟩
  obtain ⟨_, _, _, hl⟩ := hlife
  rw [houtput, hl]
  exact h.output

/-- Closing a frame makes an output only of frame operations. -/
theorem close (h : Holds d o b) (threshold : Float32) :
    Holds d o (complete ((complete b .worldRendered).endFrame threshold).postProcess .frameFinished) := by
  have hopened : Intact (complete b .worldRendered) := h.intact.setLife rfl
  have hintact : Intact (complete ((complete b .worldRendered).endFrame threshold).postProcess .frameFinished) :=
    (hopened.endFrame threshold).postProcess.setLife rfl
  rw [close_eq] at hintact ⊢
  refine ⟨h.life.continues ⟨_, _, _, rfl⟩, hintact, ?_⟩
  show b.finalOutput.isSome = b.life.pipeline.hasFrameOps
  unfold finalOutput
  split
  · rename_i hfinishes
    rw [Bool.and_eq_true] at hfinishes
    exact hfinishes.1.symm
  · exact h.output

theorem after (h : Holds d o b) (render : PixelRenderer) (shot : Shot) : Holds d o (Frame.after render b shot) := by
  obtain ⟨hintact, status, hlife⟩ := folded_intact render shot h.intact
  rw [after_eq]
  exact (h.keep hintact ⟨_, _, _, hlife⟩ (boxes_folded render shot b).2.2).close _

theorem shared (h : Holds d o b) (g : DeviceGroup) (render : PixelRenderer) (shot : Shot) :
    Holds d o (g.render shot.stop render shot.camera shot.config b).2.1 := by
  rw [DeviceGroup.render_eq]
  dsimp only
  generalize DeviceGroup.renderParts shot.stop render _ shot.config 0 g.devices = parts
  have hopened : Holds d o (if shot.stop.reaches ((parts.map DeviceGroup.Part.scheduled).foldr (· + ·) 0) then
      cancelFrame b.beginFrame else b.beginFrame) := by
    split
    · exact h.keep (h.intact.setLife rfl) ⟨_, _, _, rfl⟩ rfl
    · exact h.keep (h.intact.setLife rfl) ⟨_, _, _, rfl⟩ rfl
  have hjoined : Holds d o (DeviceGroup.joined shot.stop parts b) := by
    have hcomposed := composedFrom_composeAll hopened.intact (parts.map DeviceGroup.Part.device)
    obtain ⟨status, hlife⟩ := hcomposed.life
    exact hopened.keep hcomposed.intact ⟨_, _, _, hlife⟩ hcomposed.output
  exact hjoined.close _

theorem go (h : Holds d o b) (hgo : GoesOn b c) : Holds d o c := by
  cases hgo with
  | alone hadvance =>
    cases hadvance with
    | frame render shot => exact h.after render shot
    | clear => exact ⟨h.life.continues ⟨_, _, _, rfl⟩, h.intact.clear, h.output⟩
  | shared g render shot => exact h.shared g render shot

/-- Whatever use is made of a buffer, it holds on to the lists that are told along. -/
theorem used (h : Holds d .none b) (hused : Used GoesOn b o c) : Holds d o c := by
  induction hused with
  | start => exact h
  | attach ops _ ih => exact ih.attach ops
  | commit _ hc ih => exact ih.commit hc
  | go _ hgo ih => exact ih.go hgo

theorem commit_again (h : Holds d o b) (hsame : o.attached = o.committed) : b.commit = .ok b := by
  rw [commit_of_build (h.life.build_again hsame)]
  have houtput : (if b.life.pipeline.hasFrameOps then some (b.output.getD b.color) else none) = b.output := by
    rw [← h.output]
    cases b.output <;> rfl
  rw [houtput]

theorem heeds (h : Holds d o b) : Heeds d true Works o b where
  attached := h.life.attached
  atWork := ⟨_, h.life.atWork, h.intact.works⟩
  accepted ops pl hbuild := by
    rw [← h.life.desc] at hbuild
    have hc := commit_setImageOps (b := b) hbuild
    exact ⟨_, hc, ((h.attach ops).commit hc).intact.works⟩
  refused ops e hbuild := by
    rw [← h.life.desc] at hbuild
    exact commit_of_refused (b := setImageOps b ops) hbuild
  idle ops := by
    refine ⟨fun ch => ?_, fun render events => reports_setImageOps render ops ?_ (fun _ => rfl) events b⟩
    · rw [map?_fst, map?_fst]
      rfl
    · exact fun c shot => ⟨report_setImageOps render shot ops c, after_setImageOps render shot ops c⟩
  again := h.commit_again

end Holds

end DenseBuffer

/-! ### Sparse buffers -/

namespace SparseBuffer

variable {d : BufferDesc} {o : OpLists} {s s' : SparseBuffer} {t : Tile} {k : Nat} {r : Region}

/-- Operations are at work: they recolor the tiles that are folded. -/
structure Works (s : SparseBuffer) (pl : Pipeline) : Prop where
  pipeline : s.life.pipeline = pl
  tiles : ∀ (t : Tile) (k : Nat) (r : Region), s.owner? t = some (k, r) → t.region.overlaps r = true →
    (s.accumulate t).2 = pl.recolor ((plain s).accumulate t).2
  /-- The new color of a pixel is the one that the owned tile shows for it. -/
  colors : ∀ (t : Tile) (k : Nat) (r : Region), s.owner? t = some (k, r) → ∀ p, t.region.contains p = true →
    r.contains p = true → ∃ u, (s.accumulate t).1.tiles[k]? = some u ∧
      (u.shown.sampleAt p).color = pl.tone (((plain s).accumulate t).2.sampleAt p).color

theorem tile_absorbAt (hk : k < s.tiles.size) (h : t.region.overlaps r = true) :
    (s.absorbAt k r t).2 = s.life.pipeline.recolor
      (((storeAt s.tiles k).foldTile (.sparse s.desc) t).reflectTile (.sparse s.desc) t) := by
  have hempty : (t.region.intersect r).isEmpty = false := by simpa [Region.overlaps] using h
  obtain ⟨life, tiles, slots, tracker, accumIds⟩ := s
  simp only [desc] at hk ⊢
  simp only [absorbAt, hempty, Bool.false_eq_true, if_false, storeAt_modify_self hk]

/-- What an owned tile shows for a folded pixel is the color that the tile is left with. -/
theorem color_absorbAt {u : OwnedTile} (hu : s.tiles[k]? = some u) {p : Point} (ht : t.region.contains p = true)
    (hp : u.region.contains p = true) : ∃ u', (s.absorbAt k u.region t).1.tiles[k]? = some u' ∧
      (u'.shown.sampleAt p).color = ((s.absorbAt k u.region t).2.sampleAt p).color := by
  have hk : k < s.tiles.size := (Array.getElem?_eq_some_iff.1 hu).1
  have hmeets : t.region.overlaps u.region = true := Region.overlaps_iff.2 ⟨p, ht, hp⟩
  have hstore : storeAt s.tiles k = u.store := by rw [storeAt, hu]
  have hin : (u.store.receive (.sparse s.desc) s.life.pipeline t).region.contains p = true := hp
  refine ⟨u.mapStore (·.receive (.sparse s.desc) s.life.pipeline t), ?_, ?_⟩
  · rw [absorbAt_eq hk hmeets, received, Array.getElem?_modify, if_pos rfl, hu]
    rfl
  · rw [tile_absorbAt hk hmeets, hstore, Store.color_left hp ht]
    exact congrArg Sample.color (Raster.getD_map hin _ _ _)

theorem works (s : SparseBuffer) : s.Works s.life.pipeline := by
  have hleft : ∀ (s : SparseBuffer) (t : Tile) (k : Nat) (r : Region), s.owner? t = some (k, r) →
      s.accumulate t = s.absorbAt k r t := by
    intro s t k r ho
    rw [accumulate, ho]
  have hrecolored : ∀ (t : Tile) (k : Nat) (r : Region), s.owner? t = some (k, r) → t.region.overlaps r = true →
      (s.accumulate t).2 = s.life.pipeline.recolor ((plain s).accumulate t).2 ∧
        ((plain s).accumulate t).2.region = t.region := by
    intro t k r ho hmeets
    have hk : k < s.tiles.size := lt_of_ownedAt? ho
    rw [hleft s t k r ho, hleft (plain s) t k r ho, tile_absorbAt hk hmeets, tile_absorbAt (s := plain s) hk hmeets]
    exact ⟨rfl, Pipeline.region_recolor ..⟩
  refine ⟨rfl, fun t k r ho hmeets => (hrecolored t k r ho hmeets).1, fun t k r ho p ht hp => ?_⟩
  obtain ⟨-, u, hu, rfl⟩ := tile_of_ownedAt? ho
  obtain ⟨hnew, hsame⟩ := hrecolored t k u.region ho (Region.overlaps_iff.2 ⟨p, ht, hp⟩)
  obtain ⟨u', hu', hcolor⟩ := color_absorbAt hu ht hp
  rw [← hleft s t k u.region ho] at hu' hcolor
  refine ⟨u', hu', ?_⟩
  rw [hcolor, hnew, Pipeline.sampleAt_recolor (by rw [hsame]; exact ht)]

theorem commit_of_refused {e : FrameError} (h : Pipeline.build s.life.imageOps s.desc false = .error e) :
    s.commit = .error e := by
  have h : Pipeline.build s.life.imageOps s.life.desc false = .error e := h
  unfold commit Lifecycle.commit
  rw [h]
  rfl

theorem life_after (render : PixelRenderer) (shot : Shot) (s : SparseBuffer) :
    s.life.Continues (Frame.after render s shot).life := by
  obtain ⟨-, ⟨_, _, hlife⟩, -⟩ := after_frame render shot s
  exact ⟨_, _, _, hlife⟩

/-- Whatever use is made of a buffer, it holds on to the lists that are told along. -/
theorem holds_of_used (h : s.life.Holds d false .none) (hused : Used Advance s o s') : s'.life.Holds d false o := by
  induction hused with
  | start => exact h
  | attach ops _ ih => exact ih.attach ops
  | commit _ hc ih =>
    obtain ⟨pipeline, hbuild, rfl⟩ := eq_of_commit hc
    exact ih.commit hbuild
  | go _ hgo ih =>
    cases hgo with
    | frame render shot => exact ih.continues (life_after render shot _)
    | clear => exact ih.continues ⟨_, _, _, rfl⟩

theorem heeds (h : s.life.Holds d false o) : Heeds d false Works o s where
  attached := h.attached
  atWork := ⟨_, h.atWork, s.works⟩
  accepted ops pl hbuild := by
    rw [← h.desc] at hbuild
    exact ⟨_, commit_setImageOps hbuild, works _⟩
  refused ops e hbuild := by
    rw [← h.desc] at hbuild
    exact commit_of_refused (s := setImageOps s ops) hbuild
  idle ops := by
    refine ⟨fun _ => rfl, fun render events => reports_setImageOps render ops ?_ (fun _ => rfl) events s⟩
    exact fun c shot => ⟨report_setImageOps render shot ops c, after_setImageOps render shot ops c⟩
  again hsame := commit_setImageOps (h.build_again hsame)

end SparseBuffer

/-! ## Devices -/

namespace DeviceGroup

variable {d : BufferDesc} {o : OpLists} {g h h' : DeviceGroup} {ss ss' : List SparseBuffer} {ops : List ImageOp}

/-- What use can make of a group, told along with the pixel operations it was given last and those it took last. Frames
are rendered into images of any state. -/
inductive Used (g : DeviceGroup) : OpLists → DeviceGroup → Prop
  | start : Used g .none g
  | accepted {o : OpLists} {h h' : DeviceGroup} (ops : List ImageOp) : Used g o h →
      h.setImageOps ops = (h', .ok ()) → Used g ⟨ops.filter ImageOp.isPixel, ops.filter ImageOp.isPixel⟩ h'
  | refused {o : OpLists} {h h' : DeviceGroup} {e : FrameError} (ops : List ImageOp) : Used g o h →
      h.setImageOps ops = (h', .error e) → Used g { o with attached := ops.filter ImageOp.isPixel } h'
  | frame {o : OpLists} {h : DeviceGroup} (render : PixelRenderer) (shot : Shot) (image : DenseBuffer) : Used g o h →
      Used g o (h.render shot.stop render shot.camera shot.config image).1
  | clear {o : OpLists} {h : DeviceGroup} : Used g o h → Used g o h.clear

/-- What a group makes of lists of operations. -/
structure Heeds (d : BufferDesc) (o : OpLists) (h : DeviceGroup) : Prop where
  /-- The operations that were taken last are at work on every device. -/
  atWork : ∃ pl, Pipeline.build o.committed d false = .ok pl ∧ ∀ s ∈ h.devices, s.Works pl
  accepted : ∀ ops pl, Pipeline.build (ops.filter ImageOp.isPixel) d false = .ok pl →
    ∃ h', h.setImageOps ops = (h', .ok ()) ∧ ∀ s ∈ h'.devices, s.Works pl
  /-- The first device refuses, and no other is asked. -/
  refused : ∀ ops e, Pipeline.build (ops.filter ImageOp.isPixel) d false = .error e → ∃ s ss, h.devices = s :: ss ∧
    h.setImageOps ops = (⟨FrameBuffer.setImageOps s (ops.filter ImageOp.isPixel) :: ss⟩, .error e)
  /-- What is attached is not rendered with. -/
  idle : ∀ h', h'.withAttached [] = h.withAttached [] →
    ∀ render events, results render events h' = results render events h
  /-- Taking the same operations once more leaves all devices as they are, but for what was attached in between. -/
  again : ∀ ops, ops.filter ImageOp.isPixel = o.committed → ∃ h', h.setImageOps ops = (h', .ok ()) ∧
    h'.withAttached [] = h.withAttached [] ∧ (o.attached = o.committed → h' = h)

theorem attach_of_refused {s : SparseBuffer} {e : FrameError} (hbuild : Pipeline.build ops s.desc false = .error e) :
    attach ops (s :: ss) = (FrameBuffer.setImageOps s ops :: ss, .error e) := by
  unfold attach
  dsimp only
  rw [SparseBuffer.commit_of_refused (s := FrameBuffer.setImageOps s ops) hbuild]

/-! ### Devices through a frame -/

theorem life_renderPart (stop : Interruption) (render : PixelRenderer) (ctx : FrameContext) (config : SamplingConfig)
    (first : Nat) (s : SparseBuffer) : s.life.Continues (renderPart stop render ctx config first s).device.life := by
  rw [renderPart_eq]
  dsimp only
  generalize Frame.tiles render ctx _ = tiles
  obtain ⟨-, status, hfolded⟩ := SparseBuffer.accumulateAll_keeps s.beginFrame tiles
  obtain ⟨variance, hclosed⟩ := SparseBuffer.life_endFrame (s.beginFrame.accumulateAll tiles)
  rw [hclosed, hfolded]
  exact ⟨_, _, _, rfl⟩

theorem life_pushBack (b : DenseBuffer) (s : SparseBuffer) (i : Nat) : (pushBack b s i).life = s.life := by
  unfold pushBack SparseBuffer.setTaskError
  split
  · dsimp only [SparseBuffer.setTaskAccumId]
    split <;> rfl
  · rfl

theorem life_pushBackAll (b : DenseBuffer) (tasks : List Nat) (s : SparseBuffer) :
    (tasks.foldl (pushBack b) s).life = s.life :=
  Writes.inv_foldl (I := fun c : SparseBuffer => c.life = s.life) rfl fun c i _ hc => (life_pushBack b c i).trans hc

/-! ### Runs of a group -/

/-- Devices that came to lists of operations. Those after the first are never asked to take what is refused. -/
def Hold (d : BufferDesc) (o : OpLists) : List SparseBuffer → Prop
  | [] => False
  | s :: ss => s.life.Holds d false o ∧ ∀ s' ∈ ss, s'.life.Holds d false ⟨o.committed, o.committed⟩

namespace Hold

/-- All devices have the description and the operations at work in common. -/
theorem forall_mem (h : Hold d o ss) :
    ∀ s ∈ ss, s.desc = d ∧ Pipeline.build o.committed d false = .ok s.life.pipeline := by
  cases ss with
  | nil => exact h.elim
  | cons s ss =>
    rintro s' (_ | ⟨_, hs'⟩)
    · exact ⟨h.1.desc, h.1.atWork⟩
    · exact ⟨(h.2 s' hs').desc, (h.2 s' hs').atWork⟩

/-- Unless something was refused last, what is attached to all devices is at work. -/
theorem attached_of_same (h : Hold d o ss) (hsame : o.attached = o.committed) :
    ∀ s ∈ ss, s.life.imageOps = o.committed := by
  cases ss with
  | nil => exact h.elim
  | cons s ss =>
    rintro s' (_ | ⟨_, hs'⟩)
    · exact h.1.attached.trans hsame
    · exact (h.2 s' hs').attached

theorem of_forall (hne : ss ≠ []) (hall : ∀ s ∈ ss, s.life.Holds d false ⟨ops, ops⟩) : Hold d ⟨ops, ops⟩ ss := by
  cases ss with
  | nil => exact absurd rfl hne
  | cons s ss => exact ⟨hall s (by simp), fun s' hs' => hall s' (by simp [hs'])⟩

theorem ne_nil (h : Hold d o ss) : ss ≠ [] := by
  rintro rfl
  exact h

/-- When all devices took operations, these are attached to all of them. -/
theorem taken {pl : Pipeline} (h : Hold d o ss) (hbuild : Pipeline.build ops d false = .ok pl) :
    Hold d ⟨ops, ops⟩ (ss.map fun s => s.withOps ops pl) := by
  refine of_forall (by simpa using h.ne_nil) ?_
  simp only [List.forall_mem_map]
  exact fun s hs => ⟨(h.forall_mem s hs).1, rfl, hbuild⟩

/-- A refusal changes what is attached to the first device. -/
theorem refused {s : SparseBuffer} (h : Hold d o (s :: ss)) (ops : List ImageOp) :
    Hold d { o with attached := ops } (FrameBuffer.setImageOps s ops :: ss) := ⟨h.1.attach ops, h.2⟩

theorem clear (h : Hold d o ss) : Hold d o (ss.map SparseBuffer.clear) := by
  cases ss with
  | nil => exact h
  | cons s ss =>
    refine ⟨h.1.continues ⟨_, _, _, rfl⟩, ?_⟩
    simp only [List.forall_mem_map]
    exact fun s' hs' => (h.2 s' hs').continues ⟨_, _, _, rfl⟩

theorem frame (h : Hold d o g.devices) (stop : Interruption) (render : PixelRenderer) (camera : Camera)
    (config : SamplingConfig) (image : DenseBuffer) :
    Hold d o (g.render stop render camera config image).1.devices := by
  rw [render_eq]
  dsimp only
  generalize context image.beginFrame camera config = ctx
  generalize finished stop config _ image = image
  have hgoes : ∀ (first : Nat) (s : SparseBuffer), s.life.Continues
      (((renderPart stop render ctx config first s).device.taskOrder.foldl (pushBack image)
        (renderPart stop render ctx config first s).device).life) := by
    intro first s
    rw [life_pushBackAll]
    exact life_renderPart stop render ctx config first s
  cases hss : g.devices with
  | nil => exact (h.ne_nil hss).elim
  | cons s ss =>
    rw [hss] at h
    refine ⟨h.1.continues (hgoes 0 s), ?_⟩
    simp only [List.forall_mem_map]
    intro part hpart
    obtain ⟨k, hk⟩ := List.mem_iff_getElem?.1 hpart
    obtain ⟨s', first, hs', rfl⟩ := exists_renderPart hk
    exact (h.2 s' (List.mem_of_getElem? hs')).continues (hgoes first s')

end Hold

section Set

variable (hold : Hold d o h.devices)

include hold

theorem setImageOps_taken {pl : Pipeline} (hbuild : Pipeline.build (ops.filter ImageOp.isPixel) d false = .ok pl) :
    h.setImageOps ops = (⟨h.devices.map fun s => s.withOps (ops.filter ImageOp.isPixel) pl⟩, .ok ()) := by
  unfold DeviceGroup.setImageOps
  rw [attach_eq (fun s hs => (hold.forall_mem s hs).1) hbuild]

theorem setImageOps_refused {e : FrameError} (hbuild : Pipeline.build (ops.filter ImageOp.isPixel) d false = .error e) :
    ∃ s ss, h.devices = s :: ss ∧
      h.setImageOps ops = (⟨FrameBuffer.setImageOps s (ops.filter ImageOp.isPixel) :: ss⟩, .error e) := by
  cases hss : h.devices with
  | nil => exact (hold.ne_nil hss).elim
  | cons s ss =>
    have hdesc : s.desc = d := (hold.forall_mem s (by simp [hss])).1
    refine ⟨s, ss, rfl, ?_⟩
    unfold DeviceGroup.setImageOps
    rw [hss, attach_of_refused (hdesc.symm ▸ hbuild)]

end Set

/-- Whatever use is made of a group, its devices hold on to the lists that are told along. -/
theorem hold_of_used (h₀ : Hold d .none g.devices) (hused : Used g o h) : Hold d o h.devices := by
  induction hused with
  | start => exact h₀
  | @accepted o h h' ops _ hset ih =>
    cases hbuild : Pipeline.build (ops.filter ImageOp.isPixel) d false with
    | ok pl =>
      rw [setImageOps_taken ih hbuild] at hset
      obtain ⟨rfl, -⟩ := Prod.mk.inj hset
      exact ih.taken hbuild
    | error e =>
      obtain ⟨s, ss, -, heq⟩ := setImageOps_refused ih hbuild
      rw [heq] at hset
      cases hset
  | @refused o h h' e ops _ hset ih =>
    cases hbuild : Pipeline.build (ops.filter ImageOp.isPixel) d false with
    | ok pl =>
      rw [setImageOps_taken ih hbuild] at hset
      cases hset
    | error e' =>
      obtain ⟨s, ss, hss, heq⟩ := setImageOps_refused ih hbuild
      rw [heq] at hset
      obtain ⟨rfl, -⟩ := Prod.mk.inj hset
      rw [hss] at ih
      exact ih.refused _
  | frame render shot image _ ih => exact ih.frame ..
  | clear _ ih => exact ih.clear

/-- Groups that differ in what is attached render the same. -/
theorem results_congr (render : PixelRenderer) (events : List Event) (hsame : h'.withAttached [] = h.withAttached []) :
    results render events h' = results render events h := by
  rw [← results_withAttached render [] events h', hsame, results_withAttached]

theorem heeds (hold : Hold d o h.devices) : Heeds d o h := by
  obtain ⟨pl, hbuild, hpl⟩ : ∃ pl, Pipeline.build o.committed d false = .ok pl ∧
      ∀ s ∈ h.devices, s.life.pipeline = pl := by
    obtain ⟨s, hs⟩ := List.exists_mem_of_ne_nil _ hold.ne_nil
    refine ⟨_, (hold.forall_mem s hs).2, fun s' hs' => ?_⟩
    exact Except.ok.inj ((hold.forall_mem s' hs').2.symm.trans (hold.forall_mem s hs).2)
  refine ⟨⟨pl, hbuild, fun s hs => hpl s hs ▸ s.works⟩, ?_, ?_, ?_, ?_⟩
  · intro ops pl hbuild
    refine ⟨_, setImageOps_taken hold hbuild, ?_⟩
    simp only [List.forall_mem_map]
    exact fun s _ => SparseBuffer.works (s.withOps _ pl)
  · exact fun ops e hbuild => setImageOps_refused hold hbuild
  · exact fun h' hsame render events => results_congr render events hsame
  · intro ops hops
    have hdevices : ∀ s ∈ h.devices, s.withOps (ops.filter ImageOp.isPixel) pl =
        FrameBuffer.setImageOps s (ops.filter ImageOp.isPixel) := by
      rintro s hs
      rw [← hpl s hs]
      rfl
    refine ⟨_, setImageOps_taken hold (hops ▸ hbuild), ?_, fun hsame => ?_⟩
    · rw [List.map_congr_left hdevices, withAttached, List.map_map]
      rfl
    · refine congrArg DeviceGroup.mk ((List.map_congr_left fun s hs => ?_).trans (List.map_id _))
      rw [hdevices s hs, hops, ← hold.attached_of_same hsame s hs]
      rfl

end DeviceGroup

/-! ## All kinds of buffers -/

/-- **Operations take effect on commit.** From every valid description buffers of all kinds are made, and whatever use
is made of them, they heed the lists of operations that they are given. Those of the last commit that was accepted act
on tiles and frames, none before the first. A commit is refused if the operations do not suit the description, and then
changes nothing but what is attached; in a group the first device refuses, and the others are left as they are. No
reading, no schedule, no frame and no report depends on what is attached only. Committing once more what was committed
last leaves everything as it is. -/
theorem committed_operations_at_work (d : BufferDesc) (hd : d.validate = .ok ()) :
    (∃ b, DenseBuffer.create d = .ok b ∧ ∀ o c, Used DenseBuffer.GoesOn b o c → Heeds d true DenseBuffer.Works o c ∧
      ∀ (ops : List ImageOp) (g : DeviceGroup) (render : PixelRenderer) (shot : Shot),
        let frame : DenseBuffer → DeviceGroup × DenseBuffer × FrameStats :=
          g.render shot.stop render shot.camera shot.config
        frame (setImageOps c ops) = ((frame c).1, setImageOps (frame c).2.1 ops, (frame c).2.2)) ∧
    (∀ ids, ∃ s, SparseBuffer.create d ids = .ok s ∧ ∀ o t, Used Advance s o t → Heeds d false SparseBuffer.Works o t) ∧
    ∀ n, ∃ g, DeviceGroup.create d n = .ok g ∧ ∀ o h, DeviceGroup.Used g o h → DeviceGroup.Heeds d o h := by
  obtain ⟨b, hb⟩ : ∃ b, DenseBuffer.create d = .ok b := by
    unfold DenseBuffer.create Lifecycle.create
    rw [hd]
    exact ⟨_, rfl⟩
  have hnew := DenseBuffer.life_of_create hb false
  have hdense := DenseBuffer.Holds.of_create hb
  refine ⟨⟨b, hb, fun o c hused => ⟨(hdense.used hused).heeds, ?_⟩⟩, fun ids => ?_, fun n => ?_⟩
  · exact fun ops g render shot => DeviceGroup.render_setImageOps render ops shot.stop shot.config shot.camera g c
  · refine ⟨_, SparseBuffer.create_eq hb ids, fun o t hused => ?_⟩
    exact SparseBuffer.heeds (SparseBuffer.holds_of_used hnew hused)
  · refine ⟨_, DeviceGroup.create_eq hb n, fun o h hused => ?_⟩
    refine DeviceGroup.heeds (DeviceGroup.hold_of_used (.of_forall ?_ ?_) hused)
    · have hlen : ((shares d n).map (newDevice b.life)).length = max n 1 := by simp [shares]
      refine List.ne_nil_of_length_pos ?_
      rw [hlen]
      exact Nat.lt_of_lt_of_le Nat.one_pos (Nat.le_max_right ..)
    · simp only [List.forall_mem_map]
      exact fun _ _ => hnew

/-- Operations are put to work on a strip over two tiles. A second list has its operations in the wrong order, a third
one needs a channel that the strip lacks; both are refused, and after a frame the first list is still at work. Two
devices take the pixel operation of it, and take it again. -/
theorem committed_operations_at_work_strip :
    let d : BufferDesc := ⟨⟨65, 1⟩, .rgba32f, .ofList [.color, .accum], defaultTaskSize⟩
    let tint : PixelOp := .tint ⟨0, 0, 0.2⟩
    let render : PixelRenderer := fun _ p i => .ofColor (.splat (.ofNat (p.x + i)))
    d.validate = .ok () ∧ ∃ b c e, DenseBuffer.create d = .ok b ∧
      (setImageOps b [.pixel tint, .frame .markRed]).commit = .ok c ∧ c.commit = .ok c ∧
      (setImageOps c [.frame .blur, .pixel tint]).commit = .error (.opOrder 1 "tile_debug") ∧
      (setImageOps c [.frame .depth]).commit = .error (.missingChannel "frame_depth" .depth) ∧
      e = after render (setImageOps c [.frame .depth]) ⟨.none, .standard, ⟨0.5, 1⟩⟩ ∧
      e.life.imageOps = [.frame .depth] ∧ e.life.pipeline = ⟨[tint], [.markRed]⟩ ∧
      ∃ g h, DeviceGroup.create d 2 = .ok g ∧ g.setImageOps [.pixel tint, .frame .markRed] = (h, .ok ()) ∧
        h.setImageOps [.pixel tint, .frame .depth] = (h, .ok ()) := by
  have hd : BufferDesc.validate ⟨⟨65, 1⟩, .rgba32f, .ofList [.color, .accum], defaultTaskSize⟩ = .ok () := rfl
  intro d tint render
  obtain ⟨⟨b, hb, hdense⟩, -, hdevices⟩ := committed_operations_at_work d hd
  obtain ⟨c, hc, hworks⟩ := (hdense _ _ .start).1.accepted [.pixel tint, .frame .markRed] ⟨[tint], [.markRed]⟩ rfl
  have hused : Used DenseBuffer.GoesOn b ⟨[.pixel tint, .frame .markRed], [.pixel tint, .frame .markRed]⟩ c :=
    .commit (.attach _ .start) hc
  have hheeds := (hdense _ _ hused).1
  have hframe := Used.go (.attach [.frame .depth] hused)
    (.alone (.frame render ⟨.none, .standard, ⟨0.5, 1⟩⟩ (setImageOps c [.frame .depth])))
  obtain ⟨hattached, ⟨pl, hbuild, hworks'⟩, -⟩ := (hdense _ _ hframe).1
  obtain ⟨g, hg, hgroup⟩ := hdevices 2
  obtain ⟨h, hset, -⟩ := (hgroup _ _ .start).accepted [.pixel tint, .frame .markRed] ⟨[tint], []⟩ rfl
  obtain ⟨h', hset', -, hsame⟩ := (hgroup _ _ (.accepted _ .start hset)).again [.pixel tint, .frame .depth] rfl
  refine ⟨hd, b, c, _, hb, hc, hheeds.again rfl, hheeds.refused _ _ rfl, hheeds.refused _ _ rfl, rfl,
    hattached, ?_, g, h, hg, hset, ?_⟩
  · exact hworks'.pipeline.trans (Except.ok.inj hbuild).symm
  · rw [hset', hsame rfl]

end AdaptiveFrame
