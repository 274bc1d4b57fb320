import AdaptiveFrame.Proofs.Filter.Working
import AdaptiveFrame.Proofs.Layout.Filters

/-!
# What filters see

A filter makes a pixel of those pixels of the image that lie in a window around it, each taken once (`sees_window`).
The blur reads them from its copy of the image, the denoiser from the image that it was given, so what one row has
become does not count for the next one, and images that agree on a window agree on the pixel in its middle.

The denoiser's radius is read as a signed word. One that does not fit leaves nothing to be seen, and the image stays.
-/

namespace AdaptiveFrame

open FrameImage (window)

variable {α : Type} {size p q : Point} {radius : Nat}

/-! ## Windows -/

/-- Within a radius along both axes. -/
def Near (radius : Nat) (p q : Point) : Prop :=
  (q.x ≤ p.x + radius ∧ p.x ≤ q.x + radius) ∧ q.y ≤ p.y + radius ∧ p.y ≤ q.y + radius

instance (radius : Nat) (p q : Point) : Decidable (Near radius p q) := inferInstanceAs (Decidable (_ ∧ _))

/-- Every pixel of the image within the radius is there once, and nothing else. -/
def Sees (size : Point) (radius : Nat) (p : Point) (seen : List Point) : Prop :=
  ∀ q, seen.count q = if (q.x < size.x ∧ q.y < size.y) ∧ Near radius p q then 1 else 0

theorem contains_window : (window (.ofSize size) radius p).contains q = true ↔
    (q.x < size.x ∧ q.y < size.y) ∧ Near radius p q := by
  rw [window, Region.contains_intersect_iff, Region.contains_ofSize, Region.contains_iff]
  simp only [Near, Point.sub_x, Point.sub_y, Point.add_x, Point.add_y, Point.square_x, Point.square_y]
  omega

theorem mem_window : q ∈ (window (.ofSize size) radius p).points ↔ (q.x < size.x ∧ q.y < size.y) ∧ Near radius p q := by
  rw [Region.mem_points, contains_window]

theorem sees_window (size : Point) (radius : Nat) (p : Point) :
    Sees size radius p (window (.ofSize size) radius p).points := by
  intro q
  rw [List.Nodup.count (Region.nodup_points _)]
  simp only [mem_window]

/-! ## Rows -/

/-- An image is recomputed row by row, also if it has no pixels. -/
theorem recomputeRows?_image {pixel? : Point → Option α} {f : Point → α} {g : Raster α} {width : Nat} (d : α)
    (hwidth : 0 < width) (hx : 0 < size.x → width = size.x) (hg : g.region = .ofSize size)
    (hpixel : ∀ p, (Region.ofSize size).contains p = true → pixel? p = some (f p)) :
    recomputeRows? width pixel? g.cells = some (Raster.tabulate (.ofSize size) f).cells := by
  by_cases hpos : 0 < size.x ∧ 0 < size.y
  · rw [hx hpos.1]
    exact recomputeRows?_eq d hpos.1 hpos.2 hg hpixel
  · have harea : (Region.ofSize size).area = 0 := by
      have hzero : ¬ 0 < (Region.ofSize size).area := mt Region.area_pos_iff.1 hpos
      omega
    have hold : g.cells = #[] := Array.size_eq_zero_iff.1 (by rw [g.size_eq, hg, harea])
    have hnew : (Raster.tabulate (.ofSize size) f).cells = #[] :=
      Array.size_eq_zero_iff.1 ((Raster.tabulate (.ofSize size) f).size_eq.trans harea)
    have hrows : (Span.whole 0).chunks? width = some [] := by
      unfold Span.chunks?
      show (Count.div? (0 + width - 1) width).bind _ = _
      rw [Count.div?_eq _ hwidth, Nat.div_eq_of_lt (by omega)]
      rfl
    rw [hold, hnew, recomputeRows?, List.size_toArray, List.length_nil, hrows]
    rfl

/-- An image without columns cannot be cut into rows. -/
theorem recomputeRows?_zero (pixel? : Point → Option α) (cells : Array α) : recomputeRows? 0 pixel? cells = none := rfl

/-! ## Blurring -/

/-- The blur makes one image of another, whatever its storage was left with. -/
structure Blurs (size : Point) (color out : Raster Vec4) : Prop where
  input : color.region = .ofSize size
  output : out.region = .ofSize size
  run : ∀ scratch, recomputeRows? size.x (FrameImage.boxMean? size (FrameWorker.refill scratch color.cells))
    color.cells = some out.cells

/-- The mean of the colors of some pixels. -/
def meanOver (color : Raster Vec4) (seen : List Point) : Vec4 :=
  (seen.foldl (fun sum q => sum + color.getD q .zero) .zero).divBy (.ofNat seen.length)

theorem meanOver_congr {color color' : Raster Vec4} {seen : List Point}
    (h : ∀ q ∈ seen, color.getD q .zero = color'.getD q .zero) : meanOver color seen = meanOver color' seen := by
  have hfold : seen.foldl (fun sum q => sum + color.getD q .zero) .zero =
      seen.foldl (fun sum q => sum + color'.getD q .zero) .zero :=
    List.foldl_ext _ _ _ fun sum q hq => by rw [h q hq]
  rw [meanOver, meanOver, hfold]

theorem boxMean_eq {color : Raster Vec4} (hc : color.region = .ofSize size) (p : Point) :
    FrameImage.boxMean color p = meanOver color (window (.ofSize size) 1 p).points := by
  rw [meanOver, Region.length_points, FrameImage.boxMean, hc]

theorem exists_blurs {color : Raster Vec4} (hx : 0 < size.x) (hc : color.region = .ofSize size) :
    Blurs size color (.tabulate (.ofSize size) (FrameImage.boxMean color)) where
  input := hc
  output := rfl
  run scratch := by
    rw [FrameWorker.refill_eq]
    exact recomputeRows?_image .zero hx (fun _ => rfl) hc fun p hp => FrameImage.boxMean?_eq hc hp

theorem Blurs.unique {color out out' : Raster Vec4} (h : Blurs size color out) (h' : Blurs size color out') :
    out = out' :=
  Raster.ext_cells (h.output.trans h'.output.symm) (Option.some.inj ((h.run #[]).symm.trans (h'.run #[])))

/-- A pixel of a blurred image is the mean over its window. -/
theorem Blurs.getD {color out : Raster Vec4} (h : Blurs size color out) (hp : p.x < size.x ∧ p.y < size.y) :
    out.getD p .zero = meanOver color (window (.ofSize size) 1 p).points := by
  rw [h.unique (exists_blurs (Nat.zero_lt_of_lt hp.1) h.input), Raster.getD_tabulate (Region.contains_ofSize.2 hp),
    boxMean_eq h.input]

/-- Images that agree on a window are blurred to the same color in its middle. -/
theorem Blurs.congr {color color' out out' : Raster Vec4} (h : Blurs size color out) (h' : Blurs size color' out')
    (hp : p.x < size.x ∧ p.y < size.y)
    (hagree : ∀ q, q.x < size.x ∧ q.y < size.y → Near 1 p q → color.getD q .zero = color'.getD q .zero) :
    out.getD p .zero = out'.getD p .zero := by
  rw [h.getD hp, h'.getD hp]
  refine meanOver_congr fun q hq => ?_
  obtain ⟨hq, hnear⟩ := mem_window.1 hq
  exact hagree q hq hnear

theorem not_blurs (hx : size.x = 0) (color out : Raster Vec4) : ¬ Blurs size color out := by
  intro h
  have hrun := h.run #[]
  rw [hx, recomputeRows?_zero] at hrun
  cases hrun

/-! ## Denoising -/

namespace Denoiser

/-- The denoiser makes one image of another and its guides. -/
structure Smooths (d : Denoiser) (size : Point) (color : Raster Vec3) (albedo normal : Option (Raster Vec3))
    (out : Raster Vec3) : Prop where
  input : color.region = .ofSize size
  inputAlbedo : Guides size albedo
  inputNormal : Guides size normal
  output : out.region = .ofSize size
  run : recomputeRows? (max size.x 1) (d.pixel? size color.cells (albedo.map Raster.cells) (normal.map Raster.cells))
    (Array.replicate size.area .zero) = some out.cells

/-- The weighted mean over some pixels, the pixel's own color if all weights vanish. -/
def meanOver (d : Denoiser) (color : Raster Vec3) (albedo normal : Option (Raster Vec3)) (p : Point)
    (seen : List Point) : Vec3 :=
  let sums := seen.foldl (fun (sums : Vec3 × Float32) q =>
    (sums.1 + (color.getD q .zero).scale (d.weight color albedo normal p q), sums.2 + d.weight color albedo normal p q))
    (.zero, 0)
  if 0 < sums.2 then sums.1.divBy sums.2 else color.getD p .zero

/-- Images that look the same at a pixel. -/
structure AgreeAt (color color' : Raster Vec3) (albedo albedo' normal normal' : Option (Raster Vec3)) (q : Point) :
    Prop where
  color : color.getD q .zero = color'.getD q .zero
  albedo : albedo.map (·.getD q .zero) = albedo'.map (·.getD q .zero)
  normal : normal.map (·.getD q .zero) = normal'.map (·.getD q .zero)

theorem guideFactor_congr {guide guide' : Option (Raster Vec3)}
    (hp : guide.map (·.getD p .zero) = guide'.map (·.getD p .zero))
    (hq : guide.map (·.getD q .zero) = guide'.map (·.getD q .zero)) (sigma w : Float32) :
    guideFactor guide sigma p q w = guideFactor guide' sigma p q w := by
  cases guide with
  | none => cases guide' with
    | none => rfl
    | some g' => cases hp
  | some g => cases guide' with
    | none => cases hp
    | some g' =>
      have hp : g.getD p .zero = g'.getD p .zero := Option.some.inj hp
      have hq : g.getD q .zero = g'.getD q .zero := Option.some.inj hq
      simp only [guideFactor, hp, hq]

variable {d : Denoiser} {color color' : Raster Vec3} {albedo albedo' normal normal' : Option (Raster Vec3)}

theorem weight_congr (hp : AgreeAt color color' albedo albedo' normal normal' p)
    (hq : AgreeAt color color' albedo albedo' normal normal' q) :
    d.weight color albedo normal p q = d.weight color' albedo' normal' p q := by
  unfold weight
  dsimp only
  rw [hp.color, hq.color, guideFactor_congr hp.albedo hq.albedo, guideFactor_congr hp.normal hq.normal]

theorem meanOver_congr {seen : List Point} (hp : AgreeAt color color' albedo albedo' normal normal' p)
    (h : ∀ q ∈ seen, AgreeAt color color' albedo albedo' normal normal' q) :
    d.meanOver color albedo normal p seen = d.meanOver color' albedo' normal' p seen := by
  have hstep : ∀ (sums : Vec3 × Float32) (q : Point), q ∈ seen →
      (sums.1 + (color.getD q .zero).scale (d.weight color albedo normal p q),
        sums.2 + d.weight color albedo normal p q) =
      (sums.1 + (color'.getD q .zero).scale (d.weight color' albedo' normal' p q),
        sums.2 + d.weight color' albedo' normal' p q) := by
    intro sums q hq
    rw [(h q hq).color, weight_congr hp (h q hq)]
  rw [meanOver, meanOver, List.foldl_ext _ _ _ hstep, hp.color]

theorem neighbors_eq (h : d.radius < 2 ^ 63) (image : Region) (p : Point) :
    d.neighbors image p = (window image d.radius p).points := by
  have hreach : d.reach = d.radius := if_pos h
  rw [neighbors, hreach, if_neg (by omega), Int.toNat_natCast]

theorem neighbors_eq_nil (h : 2 ^ 63 ≤ d.radius) (h' : d.radius < 2 ^ 64) (image : Region) (p : Point) :
    d.neighbors image p = [] := by
  have hreach : d.reach = d.radius - 2 ^ 64 := if_neg (by omega)
  rw [neighbors, if_pos (by omega)]

theorem exists_smooths (d : Denoiser) (hc : color.region = .ofSize size) (ha : Guides size albedo)
    (hn : Guides size normal) : d.Smooths size color albedo normal
      (.tabulate (.ofSize size) fun p => d.pixel color albedo normal p (color.getD p .zero)) := by
  have hrun := recomputeRows?_image (g := .fill (.ofSize size) .zero) .zero (show 0 < max size.x 1 by omega)
    (show 0 < size.x → max size.x 1 = size.x by omega) rfl fun p hp => pixel?_eq d hc ha hn hp
  exact ⟨hc, ha, hn, rfl, hrun⟩

theorem Smooths.unique {out out' : Raster Vec3} (h : d.Smooths size color albedo normal out)
    (h' : d.Smooths size color albedo normal out') : out = out' :=
  Raster.ext_cells (h.output.trans h'.output.symm) (Option.some.inj (h.run.symm.trans h'.run))

/-- A pixel of a denoised image is the weighted mean over its neighbors. -/
theorem Smooths.getD {out : Raster Vec3} (h : d.Smooths size color albedo normal out)
    (hp : p.x < size.x ∧ p.y < size.y) :
    out.getD p .zero = d.meanOver color albedo normal p (d.neighbors (.ofSize size) p) := by
  rw [h.unique (exists_smooths d h.input h.inputAlbedo h.inputNormal),
    Raster.getD_tabulate (Region.contains_ofSize.2 hp), pixel, h.input]
  rfl

theorem Smooths.getD_window {out : Raster Vec3} (hr : d.radius < 2 ^ 63) (h : d.Smooths size color albedo normal out)
    (hp : p.x < size.x ∧ p.y < size.y) :
    out.getD p .zero = d.meanOver color albedo normal p (window (.ofSize size) d.radius p).points := by
  rw [h.getD hp, neighbors_eq hr]

/-- Images that agree on a window are denoised to the same color in its middle. -/
theorem Smooths.congr {out out' : Raster Vec3} (hr : d.radius < 2 ^ 63) (h : d.Smooths size color albedo normal out)
    (h' : d.Smooths size color' albedo' normal' out') (hp : p.x < size.x ∧ p.y < size.y)
    (hagree : ∀ q, q.x < size.x ∧ q.y < size.y → Near d.radius p q →
      AgreeAt color color' albedo albedo' normal normal' q) : out.getD p .zero = out'.getD p .zero := by
  rw [h.getD_window hr hp, h'.getD_window hr hp]
  refine meanOver_congr (hagree p hp ⟨by omega, by omega⟩) fun q hq => ?_
  obtain ⟨hq, hnear⟩ := mem_window.1 hq
  exact hagree q hq hnear

/-- Where nothing is seen, a pixel keeps its color. -/
theorem Smooths.getD_beyond {out : Raster Vec3} (hr : 2 ^ 63 ≤ d.radius) (hr' : d.radius < 2 ^ 64)
    (h : d.Smooths size color albedo normal out) (hp : p.x < size.x ∧ p.y < size.y) :
    out.getD p .zero = color.getD p .zero := by
  rw [h.getD hp, neighbors_eq_nil hr hr']
  exact if_neg (show ¬ (0 : Float32) < 0 by decide)

end Denoiser

/-! ## Both filters -/

/-- Filters make every pixel of its window in the image they are given, in which each pixel of the image is once. The
blur does so if there is a column at all, the denoiser if its radius is a signed word. Beyond that the image stays. -/
theorem filters_see_windows (size : Point) :
    (∀ radius p, Sees size radius p (window (.ofSize size) radius p).points) ∧
    (0 < size.x → ∀ color, color.region = .ofSize size → ∃ out, Blurs size color out) ∧
    (size.x = 0 → ∀ color out, ¬ Blurs size color out) ∧
    (∀ color out p, Blurs size color out → p.x < size.x ∧ p.y < size.y →
      out.getD p .zero = meanOver color (window (.ofSize size) 1 p).points) ∧
    (∀ color color' out out' p, Blurs size color out → Blurs size color' out' → p.x < size.x ∧ p.y < size.y →
      (∀ q, q.x < size.x ∧ q.y < size.y → Near 1 p q → color.getD q .zero = color'.getD q .zero) →
      out.getD p .zero = out'.getD p .zero) ∧
    ∀ d : Denoiser,
      (∀ color albedo normal, color.region = .ofSize size → Denoiser.Guides size albedo → Denoiser.Guides size normal →
        ∃ out, d.Smooths size color albedo normal out) ∧
      (d.radius < 2 ^ 63 → ∀ color albedo normal out p, d.Smooths size color albedo normal out →
        p.x < size.x ∧ p.y < size.y →
        out.getD p .zero = d.meanOver color albedo normal p (window (.ofSize size) d.radius p).points) ∧
      (d.radius < 2 ^ 63 → ∀ color color' albedo albedo' normal normal' out out' p,
        d.Smooths size color albedo normal out → d.Smooths size color' albedo' normal' out' →
        p.x < size.x ∧ p.y < size.y →
        (∀ q, q.x < size.x ∧ q.y < size.y → Near d.radius p q →
          Denoiser.AgreeAt color color' albedo albedo' normal normal' q) →
        out.getD p .zero = out'.getD p .zero) ∧
      (2 ^ 63 ≤ d.radius → d.radius < 2 ^ 64 → ∀ color albedo normal out p, d.Smooths size color albedo normal out →
        p.x < size.x ∧ p.y < size.y → out.getD p .zero = color.getD p .zero) := by
  refine ⟨sees_window size, fun hx color hc => ⟨_, exists_blurs hx hc⟩, not_blurs, fun color out p h => h.getD,
    fun color color' out out' p => Blurs.congr, fun d => ⟨fun color albedo normal hc ha hn => ?_, ?_, ?_, ?_⟩⟩
  · exact ⟨_, d.exists_smooths hc ha hn⟩
  · exact fun hr color albedo normal out p h => h.getD_window hr
  · exact fun hr color color' albedo albedo' normal normal' out out' p h => h.congr hr
  · exact fun hr hr' color albedo normal out p h => h.getD_beyond hr hr'

/-- A radius that is no signed word leaves a pixel out that lies next to another one, and both as they were. -/
theorem window_lost_on_pair :
    ¬ Sees ⟨2, 1⟩ (2 ^ 64 - 1) ⟨0, 0⟩ (({ radius := 2 ^ 64 - 1 } : Denoiser).visited ⟨2, 1⟩ ⟨0, 0⟩) ∧
    recomputeRows? 2 (({ radius := 2 ^ 64 - 1 } : Denoiser).pixel? ⟨2, 1⟩ #[.zero, .one] none none) #[.zero, .zero] =
      some #[.zero, .one] := by
  refine ⟨fun hsees => ?_, rfl⟩
  exact absurd (hsees ⟨1, 0⟩) (by decide)

end AdaptiveFrame
