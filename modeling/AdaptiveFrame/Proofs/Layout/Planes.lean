import AdaptiveFrame.Layout.Planes
import AdaptiveFrame.Proofs.Accum.Receive
import AdaptiveFrame.Proofs.Layout.Access

/-!
# Channels of stored pixels

The array of a channel is what can be read off the stored pixels (`Store.plane`). Where a view finds the pixels,
changing the arrays of all channels at one of them is changing the stored pixel, so a tile is folded into the
arrays as it is into the store.
-/

namespace AdaptiveFrame

namespace Raster

variable {α β : Type} {g : Raster β} {v : View} {part : Region} {p : Point} {keep : Bool} {read : β → α}

/-- The array of a channel: a value for each position, or nothing if the channel is not kept. -/
def plane (g : Raster β) (keep : Bool) (read : β → α) : Array α := if keep then (g.map read).cells else #[]

theorem size_plane (g : Raster β) (keep : Bool) (read : β → α) :
    (g.plane keep read).size = if keep then g.region.area else 0 := by
  unfold plane
  split
  · exact (g.map read).size_eq
  · rfl

/-- A channel with positions is empty only if it is not kept. -/
theorem isEmpty_plane (hpos : 0 < g.region.area) (keep : Bool) (read : β → α) : (g.plane keep read).isEmpty = !keep := by
  rw [Array.isEmpty, size_plane]
  cases keep with
  | true => simpa using Nat.ne_of_gt hpos
  | false => rfl

section Found

variable (hf : v.Finds g.region part) (hp : part.contains p = true)

include hf hp

theorem isEmpty_plane_of_found (keep : Bool) (read : β → α) : (g.plane keep read).isEmpty = !keep :=
  isEmpty_plane (Region.area_pos_of_contains (hf p hp).1) keep read

theorem read?_plane (d : β) : v.read? (g.plane true read) p = some (read (g.getD p d)) :=
  (View.Finds.read? (g := g.map read) hf hp (read d)).trans (congrArg some (getD_map (hf p hp).1 read d _))

theorem readKept?_plane (d : β) (a : α) :
    v.readKept? (g.plane keep read) p a = some (if keep then read (g.getD p d) else a) := by
  rw [View.readKept?, isEmpty_plane_of_found hf hp]
  cases keep with
  | true => exact read?_plane hf hp d
  | false => rfl

theorem modify?_plane {f : β → β} {f' : α → α} (h : ∀ a, read (f a) = f' (read a)) :
    v.modify? (g.plane true read) p f' = some ((g.modify p f).plane true read) := by
  rw [plane, plane, if_pos rfl, if_pos rfl, map_modify h]
  exact View.Finds.modify? (g := g.map read) hf hp f'

theorem write?_plane {f : β → β} {a : α} (h : ∀ b, read (f b) = a) :
    v.write? (g.plane true read) p a = some ((g.modify p f).plane true read) := by
  have hmap : (g.modify p f).map read = (g.map read).modify p fun _ => a := map_modify h g p
  rw [plane, plane, if_pos rfl, if_pos rfl, hmap]
  exact View.Finds.write? (g := g.map read) hf hp a

theorem modifyKept?_plane {f : β → β} {f' : α → α} (h : keep = true → ∀ a, read (f a) = f' (read a)) :
    v.modifyKept? (g.plane keep read) p f' = some ((g.modify p f).plane keep read) := by
  rw [View.modifyKept?, isEmpty_plane_of_found hf hp]
  cases keep with
  | true => exact modify?_plane hf hp (h rfl)
  | false => rfl

end Found

/-- A channel that a change leaves alone. -/
theorem plane_modify_of_same {f : β → β} (h : ∀ a, read (f a) = read a) (g : Raster β) (p : Point) (keep : Bool) :
    (g.modify p f).plane keep read = g.plane keep read := by
  have hid : (g.map read).modify p id = g.map read := by
    refine ext_cells rfl (Array.ext_getElem? fun i => ?_)
    rw [modify, Array.getElem?_modify, Option.map_id, id, ite_self]
  have hmap : (g.modify p f).map read = (g.map read).modify p id := map_modify h g p
  unfold plane
  rw [hmap, hid]

theorem plane_modifyOn_of_same {f : Point → β → β} (h : ∀ p a, read (f p a) = read a) (g : Raster β) (r : Region)
    (keep : Bool) : (g.modifyOn r f).plane keep read = g.plane keep read := by
  rw [modifyOn_eq_foldl]
  exact Writes.inv_foldl (I := fun k : Raster β => k.plane keep read = g.plane keep read) rfl
    fun k p _ hk => (plane_modify_of_same (h p) k p keep).trans hk

theorem plane_fill (r : Region) (b : β) (keep : Bool) (read : β → α) :
    (fill r b).plane keep read = if keep then Array.replicate r.area (read b) else #[] := by
  unfold plane
  split
  · exact Array.map_replicate
  · rfl

end Raster

/-! ## Means -/

namespace Means

variable {d : BufferDesc} {rule : FoldRule} {g : Store} {v : View} {part : Region} {t : Tile} {p : Point}

/-- The means of stored pixels. -/
def ofStore (d : BufferDesc) (g : Store) : Means :=
  ⟨g.plane (d.has .accum) Pixel.accum, g.plane (d.has .variance) Pixel.oddMean⟩

/-- The rule folds the means that a description asks for. -/
structure Ruled (d : BufferDesc) (rule : FoldRule) : Prop where
  accumulates : rule.accumulates = d.has .accum
  estimates : rule.estimates = d.has .variance
  accum : d.has .variance = true → d.has .accum = true

theorem ruled_dense (h : d.has .variance = true → d.has .accum = true) : Ruled d (.dense d) := ⟨rfl, rfl, h⟩

theorem ruled_sparse (h : d.has .variance = true → d.has .accum = true) : Ruled d (.sparse d) := ⟨rfl, rfl, h⟩

section Found

variable (hr : Ruled d rule) (hf : v.Finds g.region part)

include hr hf

theorem fold?_eq (hp : part.contains p = true) (k : Int) (s : Sample) :
    (ofStore d g).fold? v k (rule.weight k) p s.color = some (ofStore d (g.modify p (Pixel.fold rule k s))) := by
  obtain ⟨hacc, hest, himp⟩ := hr
  unfold fold? ofStore
  dsimp only
  rw [Raster.isEmpty_plane_of_found hf hp, Raster.isEmpty_plane_of_found hf hp]
  cases ha : d.has .accum with
  | false =>
    have hv : d.has .variance = false := Bool.eq_false_iff.2 fun hv => by simp [himp hv] at ha
    rw [hv]
    rfl
  | true =>
    have hmean : ∀ px, (Pixel.fold rule k s px).accum = Blend.lerp4 px.accum s.color (rule.weight k) := by
      intro px
      rw [Pixel.fold, hacc, ha]
      rfl
    rw [Raster.modify?_plane hf hp hmean]
    cases hu : rule.updatesError k with
    | true =>
      obtain ⟨hv, hodd⟩ := Bool.and_eq_true_iff.1 hu
      have hmean : ∀ px, (Pixel.fold rule k s px).oddMean = Blend.lerp4 px.oddMean s.color (Blend.oddWeight k) := by
        intro px
        rw [Pixel.fold, hu]
        rfl
      rw [← hest, hv, hodd, Raster.modify?_plane hf hp hmean]
      rfl
    | false =>
      have hsame : ∀ px, (Pixel.fold rule k s px).oddMean = px.oddMean := by
        intro px
        rw [Pixel.fold, hu]
        rfl
      have hkept : (!!d.has .variance && Blend.isOdd k) = false := by rw [Bool.not_not, ← hest]; exact hu
      rw [hkept, Raster.plane_modify_of_same hsame]
      rfl

theorem foldTile?_eq (hpart : part = t.region.intersect g.region) :
    (ofStore d g).foldTile? v (rule.weight t.accumId) part t = some (ofStore d (g.foldTile rule t)) := by
  rw [Store.foldTile, Raster.modifyOn_eq_foldl, ← hpart]
  refine foldlM_eq_some (R := ofStore d) (I := fun h : Store => h.region = g.region) rfl fun h p hp hh => ⟨?_, hh⟩
  have hp := Region.mem_points.1 hp
  have ht : t.region.contains p = true := (Region.contains_intersect_iff.1 (hpart ▸ hp)).1
  rw [Tile.sample?_eq ht]
  exact fold?_eq hr (g := h) (by rwa [hh]) hp ..

end Found

/-- The means give the errors of all pixels that have both. -/
theorem error?_eq {r : Region} (hv : d.has .variance = true) (ha : d.has .accum = true) (hf : v.Finds g.region part)
    (hr : ∀ p, (r.intersect g.region).contains p = true → part.contains p = true) :
    (ofStore d g).error? v (r.intersect g.region) = some (g.meanError r) := by
  have hsum : (r.intersect g.region).points.foldlM (fun (sum : Float32) p => do
      return sum + Blend.pixelError (← v.read? (ofStore d g).accum p) (← v.read? (ofStore d g).oddMean p)) 0 =
      some ((r.intersect g.region).points.foldl (fun sum p =>
        sum + Blend.pixelError (g.getD p .blank).accum (g.getD p .blank).oddMean) 0) := by
    refine foldlM_eq_some (R := id) (I := fun _ => True) trivial fun sum p hp _ => ⟨?_, trivial⟩
    have hp := hr p (Region.mem_points.1 hp)
    have haccum : v.read? (ofStore d g).accum p = some (g.getD p .blank).accum := by
      rw [ofStore, ha]
      exact Raster.read?_plane hf hp .blank
    have hodd : v.read? (ofStore d g).oddMean p = some (g.getD p .blank).oddMean := by
      rw [ofStore, hv]
      exact Raster.read?_plane hf hp .blank
    rw [haccum, hodd]
    rfl
  rw [error?, hsum]
  rfl

end Means

/-! ## Guides -/

namespace Guides

variable {d : BufferDesc} {g : Store} {v : View} {part : Region} {t : Tile} {p : Point}

/-- The guide channels of stored pixels. -/
def ofStore (d : BufferDesc) (g : Store) : Guides where
  depth := g.plane (d.has .depth) (·.shown.depth)
  normal := g.plane (d.has .normal) (·.shown.normal)
  albedo := g.plane (d.has .albedo) (·.shown.albedo)
  primitiveId := g.plane (d.has .primitiveId) (·.shown.ids.primitiveId)
  objectId := g.plane (d.has .objectId) (·.shown.ids.objectId)
  instanceId := g.plane (d.has .instanceId) (·.shown.ids.instanceId)

section Found

variable (hf : v.Finds g.region part) (hp : part.contains p = true)

include hf hp

/-- Identifiers are stored in all channels that are kept. -/
theorem storeIds?_eq {f : Pixel → Pixel} {ids : Ids} (h : ∀ px, (f px).shown.ids = ids) (depth : Array Float32)
    (normal albedo : Array Vec3) :
    storeIds? { ofStore d g with depth, normal, albedo } v p ids =
      some { ofStore d (g.modify p f) with depth, normal, albedo } := by
  have hprimitive : v.modifyKept? (ofStore d g).primitiveId p (fun _ => ids.primitiveId) =
      some (ofStore d (g.modify p f)).primitiveId :=
    Raster.modifyKept?_plane hf hp fun _ px => congrArg Ids.primitiveId (h px)
  have hobject : v.modifyKept? (ofStore d g).objectId p (fun _ => ids.objectId) =
      some (ofStore d (g.modify p f)).objectId :=
    Raster.modifyKept?_plane hf hp fun _ px => congrArg Ids.objectId (h px)
  have hinstance : v.modifyKept? (ofStore d g).instanceId p (fun _ => ids.instanceId) =
      some (ofStore d (g.modify p f)).instanceId :=
    Raster.modifyKept?_plane hf hp fun _ px => congrArg Ids.instanceId (h px)
  unfold storeIds?
  dsimp only
  rw [hprimitive, hobject, hinstance]
  rfl

theorem fold?_eq (k : Int) (s : Sample) :
    (ofStore d g).fold? v ((FoldRule.dense d).weight k) ((FoldRule.dense d).storesIds k) p s =
      some (ofStore d (g.modify p (Pixel.fold (.dense d) k s))) := by
  have hdepth : v.modifyKept? (ofStore d g).depth p (fun z => Blend.depth z s.depth ((FoldRule.dense d).weight k)) =
      some (ofStore d (g.modify p (Pixel.fold (.dense d) k s))).depth :=
    Raster.modifyKept?_plane hf hp fun hkeep px => if_pos hkeep
  have hnormal : v.modifyKept? (ofStore d g).normal p (fun n => Blend.lerp3 n s.normal ((FoldRule.dense d).weight k)) =
      some (ofStore d (g.modify p (Pixel.fold (.dense d) k s))).normal :=
    Raster.modifyKept?_plane hf hp fun hkeep px => if_pos hkeep
  have halbedo : v.modifyKept? (ofStore d g).albedo p (fun a => Blend.lerp3 a s.albedo ((FoldRule.dense d).weight k)) =
      some (ofStore d (g.modify p (Pixel.fold (.dense d) k s))).albedo :=
    Raster.modifyKept?_plane hf hp fun hkeep px => if_pos hkeep
  unfold fold?
  rw [hdepth, hnormal, halbedo]
  dsimp only [Option.bind_eq_bind, Option.bind_some]
  split
  · rename_i hids
    exact storeIds?_eq hf hp (f := Pixel.fold (.dense d) k s) (fun px => if_pos hids) _ _ _
  · rename_i hids
    have hsame : ∀ px, (Pixel.fold (.dense d) k s px).shown.ids = px.shown.ids := fun px => if_neg hids
    have hplane : ∀ {α : Type} (read : Ids → α) (keep : Bool),
        (g.modify p (Pixel.fold (.dense d) k s)).plane keep (fun px => read px.shown.ids) =
          g.plane keep fun px => read px.shown.ids := by
      intro α read keep
      refine Raster.plane_modify_of_same ?_ g p keep
      exact fun px => congrArg read (hsame px)
    unfold ofStore
    rw [hplane Ids.primitiveId, hplane Ids.objectId, hplane Ids.instanceId]

theorem overwrite?_eq (s : Sample) :
    (ofStore d g).overwrite? v p s = some (ofStore d (g.modify p fun px => { px with shown := s })) := by
  have hdepth : v.modifyKept? (ofStore d g).depth p (fun _ => s.depth) =
      some (ofStore d (g.modify p fun px => { px with shown := s })).depth :=
    Raster.modifyKept?_plane hf hp fun _ _ => rfl
  have hnormal : v.modifyKept? (ofStore d g).normal p (fun _ => s.normal) =
      some (ofStore d (g.modify p fun px => { px with shown := s })).normal :=
    Raster.modifyKept?_plane hf hp fun _ _ => rfl
  have halbedo : v.modifyKept? (ofStore d g).albedo p (fun _ => s.albedo) =
      some (ofStore d (g.modify p fun px => { px with shown := s })).albedo :=
    Raster.modifyKept?_plane hf hp fun _ _ => rfl
  unfold overwrite?
  rw [hdepth, hnormal, halbedo]
  exact storeIds?_eq hf hp (f := fun px => { px with shown := s }) (fun _ => rfl) _ _ _

end Found

theorem foldTile?_eq (hf : v.Finds g.region part) (hpart : part = t.region.intersect g.region) :
    (ofStore d g).foldTile? v ((FoldRule.dense d).weight t.accumId) ((FoldRule.dense d).storesIds t.accumId) part t =
      some (ofStore d (g.foldTile (.dense d) t)) := by
  rw [Store.foldTile, Raster.modifyOn_eq_foldl, ← hpart]
  refine foldlM_eq_some (R := ofStore d) (I := fun h : Store => h.region = g.region) rfl fun h p hp hh => ⟨?_, hh⟩
  have hp := Region.mem_points.1 hp
  have ht : t.region.contains p = true := (Region.contains_intersect_iff.1 (hpart ▸ hp)).1
  rw [Tile.sample?_eq ht]
  exact fold?_eq (g := h) (by rwa [hh]) hp ..

end Guides

/-- The stored pixels with a tile copied over them. -/
def Store.copyTile (g : Store) (t : Tile) : Store := g.modifyOn t.region fun p px => { px with shown := t.sampleAt p }

theorem Guides.overwriteTile?_eq {d : BufferDesc} {g : Store} {v : View} {part : Region} {t : Tile}
    (hf : v.Finds g.region part) (hpart : part = t.region.intersect g.region) :
    (ofStore d g).overwriteTile? v part t = some (ofStore d (g.copyTile t)) := by
  rw [Store.copyTile, Raster.modifyOn_eq_foldl, ← hpart]
  refine foldlM_eq_some (R := ofStore d) (I := fun h : Store => h.region = g.region) rfl fun h p hp hh => ⟨?_, hh⟩
  have hp := Region.mem_points.1 hp
  have ht : t.region.contains p = true := (Region.contains_intersect_iff.1 (hpart ▸ hp)).1
  rw [Tile.sample?_eq ht]
  exact overwrite?_eq (g := h) (by rwa [hh]) hp _

/-- Copying samples leaves the means alone. -/
theorem Means.ofStore_copyTile (d : BufferDesc) (g : Store) (t : Tile) : ofStore d (g.copyTile t) = ofStore d g := by
  unfold ofStore Store.copyTile
  congr 1
  all_goals
    refine Raster.plane_modifyOn_of_same ?_ g t.region _
    exact fun _ _ => rfl

/-- Showing colors leaves the other channels alone. -/
theorem ofStore_showColors (d : BufferDesc) (g : Store) (t : Tile) :
    Means.ofStore d (g.showColors t) = Means.ofStore d g ∧ Guides.ofStore d (g.showColors t) = Guides.ofStore d g := by
  unfold Means.ofStore Guides.ofStore Store.showColors
  constructor <;> congr 1
  all_goals
    refine Raster.plane_modifyOn_of_same ?_ g t.region _
    exact fun _ _ => rfl

/-- Folding leaves the shown colors alone. -/
theorem color_foldTile (rule : FoldRule) (g : Store) (t : Tile) (keep : Bool) :
    (g.foldTile rule t).plane keep (·.shown.color) = g.plane keep (·.shown.color) := by
  unfold Store.foldTile
  refine Raster.plane_modifyOn_of_same ?_ g t.region keep
  exact fun _ _ => rfl

/-! ## Displayed color -/

namespace Raster

/-- The values of a raster, none if there is no raster. -/
def cellsOf {α : Type} : Option (Raster α) → Array α
  | some g => g.cells
  | none => #[]

end Raster

section Encoding

variable {format : ColorFormat} {g : Point} {part : Region} {color : Raster Vec4} {shown : Raster Rgba8}

/-- Encodes the colors of pixels over an image. -/
def paint (format : ColorFormat) (color : Raster Vec4) (ps : List Point) (shown : Raster Rgba8) : Raster Rgba8 :=
  match Color.encoding? format with
  | some encode => ps.foldl (fun s p => s.modify p fun _ => encode (color.getD p .zero)) shown
  | none => shown

theorem region_paint (ps : List Point) : (paint format color ps shown).region = shown.region := by
  unfold paint
  split
  · exact Raster.region_foldl_modify ..
  · rfl

theorem paint_append (ps qs : List Point) :
    paint format color (ps ++ qs) shown = paint format color qs (paint format color ps shown) := by
  unfold paint
  split
  · rw [List.foldl_append]
  · rfl

theorem foldl_paint {ι : Type} (row : ι → List Point) (ys : List ι) :
    ys.foldl (fun s y => paint format color (row y) s) shown = paint format color (ys.flatMap row) shown := by
  induction ys generalizing shown with
  | nil =>
    unfold paint
    split <;> rfl
  | cons y ys ih => rw [List.foldl_cons, ih, List.flatMap_cons, paint_append]

/-- A stretch of a row is encoded pixel by pixel. -/
theorem encodeSpan?_eq (hc : color.region = .ofSize g) (hs : shown.region = .ofSize g) {x y n : Nat} (hx : x + n ≤ g.x)
    (hy : y < g.y) : encodeSpan? format color.cells ⟨y * g.x + x, n⟩ ⟨y * g.x + x, n⟩ shown.cells =
      some (paint format color ((List.range' x n).map fun x => ⟨x, y⟩) shown).cells := by
  unfold encodeSpan? paint
  cases Color.encoding? format with
  | none => rfl
  | some encode =>
    dsimp only
    rw [Nat.min_self, List.range'_eq_map_range, List.map_map, List.foldl_map]
    refine foldlM_eq_some (R := Raster.cells) (I := fun s : Raster Rgba8 => s.region = .ofSize g) hs
      fun s i hi hs => ⟨?_, hs⟩
    have hi : i < n := List.mem_range.1 hi
    have hp : (Region.ofSize g).contains ⟨x + i, y⟩ = true :=
      Region.contains_ofSize.2 ⟨by show x + i < g.x; omega, hy⟩
    have hindex : y * g.x + x + i = (Region.ofSize g).index ⟨x + i, y⟩ := Nat.add_assoc ..
    have hlt := Region.index_lt hp
    rw [← hindex] at hlt
    have hread : (⟨y * g.x + x, n⟩ : Span).read? color.cells i = some (color.getD ⟨x + i, y⟩ .zero) := by
      rw [Span.read?_eq hi (by rw [color.size_eq, hc]; exact hlt), ← Array.getElem?_eq_getElem, hindex]
      exact Raster.getElem?_of_region hc hp .zero
    rw [hread, Option.bind_eq_bind, Option.bind_some,
      Span.write?_eq hi (by show y * g.x + x + i < _; rw [s.size_eq, hs]; exact hlt)]
    have hmodify : ∀ e : Rgba8, (s.modify ⟨x + i, y⟩ fun _ => e).cells = s.cells.setIfInBounds (y * g.x + x + i) e := by
      intro e
      rw [Raster.cells_modify, hs, ← hindex]
      exact (setIfInBounds_eq_modify (by rw [s.size_eq, hs]; exact hlt) fun _ => e).symm
    exact congrArg some (hmodify _).symm

/-- The rows of a part of an image are slices of its arrays, which are encoded one after another. -/
theorem encodeRows?_eq {cut : Cut} {first : Nat} (h : cut.Reaches g first part) (hpos : 0 < part.area)
    (hc : color.region = .ofSize g) (hs : shown.region = .ofSize g) :
    encodeRows? format (.rows cut g.x first) part color.cells shown.cells =
      some (paint format color part.points shown).cells := by
  obtain ⟨count, hcut, hpart⟩ := h
  obtain ⟨hwide, hhigh⟩ := Region.area_pos_iff.1 hpos
  have hlast : ∀ y, part.lower.y ≤ y → y < part.upper.y →
      part.upper.x ≤ g.x ∧ first ≤ y ∧ y < g.y ∧ (y + 1 - first) * g.x ≤ count := by
    intro y hlo hup
    have hp := hpart ⟨part.upper.x - 1, y⟩ (Region.contains_iff.2 (by dsimp only; omega))
    dsimp only at hp
    exact ⟨by omega, hp.2⟩
  have hshown : shown.cells.isEmpty = false := by
    have hp := hlast part.lower.y (Nat.le_refl _) hhigh
    rw [Array.isEmpty, shown.size_eq, hs]
    exact decide_eq_false (Nat.ne_of_gt (Region.area_pos_iff.2 ⟨by show 0 < g.x; omega, by show 0 < g.y; omega⟩))
  rw [encodeRows?, hshown, Region.points, ← foldl_paint]
  refine foldlM_eq_some (R := Raster.cells) (I := fun s : Raster Rgba8 => s.region = .ofSize g) hs
    fun s y hy hs => ⟨?_, (region_paint _).trans hs⟩
  have hy := List.mem_range'_1.1 hy
  have hheight : part.height = part.upper.y - part.lower.y := rfl
  obtain ⟨hx, hfirst, hrow, hcount⟩ := hlast y hy.1 (by omega)
  have hindex : ∀ x, (View.rows cut g.x first).index? ⟨x, y⟩ = some ((y - first) * g.x + x) := by
    intro x
    show (Count.sub? y first).bind _ = _
    rw [Count.sub?_eq hfirst]
    rfl
  have hrows : first * g.x + (y - first) * g.x = y * g.x := by
    rw [← Nat.add_mul, Nat.add_sub_cancel' hfirst]
  have hslice : (⟨first * g.x, count⟩ : Span).slice? ((y - first) * g.x + part.lower.x)
      ((y - first) * g.x + part.upper.x) = some ⟨y * g.x + part.lower.x, part.width⟩ := by
    have hbound : (y - first) * g.x + part.upper.x ≤ count := by
      refine Nat.le_trans ?_ hcount
      rw [Nat.succ_sub hfirst, Nat.succ_mul]
      omega
    have hwidth : (y - first) * g.x + part.upper.x - ((y - first) * g.x + part.lower.x) = part.width := by
      rw [Region.width_eq]
      omega
    rw [Span.slice?, if_pos (by dsimp only; omega), hwidth, ← Nat.add_assoc, hrows]
  have harea : (Region.ofSize g).area = g.area := rfl
  have hcut : (View.rows cut g.x first).cut g.area = some ⟨first * g.x, count⟩ := hcut
  rw [hindex, hindex, color.size_eq, s.size_eq, hc, hs, harea, hcut]
  dsimp only [Option.bind_eq_bind, Option.bind_some]
  rw [hslice]
  exact encodeSpan?_eq hc hs (by rw [Region.width_eq]; omega) hrow

end Encoding

end AdaptiveFrame
