import AdaptiveFrame.Filter.Pipeline

/-!
# Which operations are accepted

Operations are accepted one by one, pixel operations before frame operations. A list that a dense buffer
accepts therefore falls into the two kinds, and devices as well as dense buffers accept its pixel operations
by themselves.
-/

namespace AdaptiveFrame.Pipeline

variable {d : BufferDesc} {i j : Nat} {seen allow : Bool} {p : PixelOp} {f : FrameOp} {ops : List ImageOp}
  {pl : Pipeline}

/-- Only the channels that a buffer serves decide what it accepts. -/
theorem collect_congr {d' : BufferDesc} (h : ImageOp.serves d' = ImageOp.serves d) (ops : List ImageOp) :
    collect d' allow i seen ops = collect d allow i seen ops := by
  have hmissing : ∀ op : ImageOp, op.missing? d' = op.missing? d := by
    intro op
    rw [ImageOp.missing?, ImageOp.missing?, h]
  induction ops generalizing i seen with
  | nil => rfl
  | cons op ops ih =>
    cases op with
    | pixel p => simp only [collect, hmissing, ih]
    | frame f => simp only [collect, hmissing, ih]

/-- A pixel operation is accepted before all frame operations, if the buffer has its channels. -/
theorem collect_pixel (h : collect d allow i seen (.pixel p :: ops) = .ok pl) :
    seen = false ∧ (ImageOp.pixel p).missing? d = none ∧
      ∃ rest, collect d allow (i + 1) false ops = .ok rest ∧ pl = ⟨p :: rest.pixelOps, rest.frameOps⟩ := by
  unfold collect at h
  cases seen with
  | true => cases h
  | false =>
    cases hm : (ImageOp.pixel p).missing? d with
    | some ch =>
      simp only [hm] at h
      cases h
    | none =>
      cases hrest : collect d allow (i + 1) false ops with
      | error e =>
        simp only [hm, hrest] at h
        cases h
      | ok rest =>
        simp only [hm, hrest] at h
        cases h
        exact ⟨rfl, rfl, rest, rfl, rfl⟩

/-- A frame operation that is accepted leaves only frame operations to come. -/
theorem collect_frame (h : collect d true i seen (.frame f :: ops) = .ok pl) :
    ∃ rest, collect d true (i + 1) true ops = .ok rest ∧ pl = ⟨rest.pixelOps, f :: rest.frameOps⟩ := by
  unfold collect at h
  cases hm : (ImageOp.frame f).missing? d with
  | some ch =>
    simp only [hm] at h
    cases h
  | none =>
    cases hrest : collect d true (i + 1) true ops with
    | error e =>
      simp only [hm, hrest] at h
      cases h
    | ok rest =>
      simp only [hm, hrest] at h
      cases h
      exact ⟨rest, rfl, rfl⟩

/-- Devices accept the pixel operations of a list that a dense buffer accepts. -/
theorem collect_pixels (h : collect d true i seen ops = .ok pl) :
    collect d false j false (ops.filter ImageOp.isPixel) = .ok ⟨pl.pixelOps, []⟩ := by
  induction ops generalizing i j seen pl with
  | nil =>
    cases h
    rfl
  | cons op ops ih =>
    cases op with
    | pixel p =>
      obtain ⟨-, hm, rest, hrest, rfl⟩ := collect_pixel h
      have hkeep : (ImageOp.pixel p :: ops).filter ImageOp.isPixel = .pixel p :: ops.filter ImageOp.isPixel := rfl
      rw [hkeep]
      unfold collect
      simp only [hm, ih hrest]
      rfl
    | frame f =>
      obtain ⟨rest, hrest, rfl⟩ := collect_frame h
      have hpixels := ih (j := j) hrest
      exact hpixels

/-- A list that is accepted puts its operations to work. -/
theorem collect_append {pixelOps : List PixelOp} {frameOps : List FrameOp}
    (h : collect d true i seen (pixelOps.map .pixel ++ frameOps.map .frame) = .ok pl) :
    pl = ⟨pixelOps, frameOps⟩ := by
  induction pixelOps generalizing i seen pl with
  | nil =>
    induction frameOps generalizing i seen pl with
    | nil =>
      cases h
      rfl
    | cons f frameOps ih =>
      obtain ⟨rest, hrest, rfl⟩ := collect_frame h
      have hrest := ih hrest
      subst hrest
      rfl
  | cons p pixelOps ih =>
    obtain ⟨-, -, rest, hrest, rfl⟩ := collect_pixel h
    have hrest := ih hrest
    subst hrest
    rfl

/-- The pixel operations of a list that is accepted are accepted by themselves. -/
theorem collect_of_append {pixelOps : List PixelOp} {frameOps : List ImageOp}
    (h : collect d allow i seen (pixelOps.map .pixel ++ frameOps) = .ok pl) :
    collect d allow i seen (pixelOps.map .pixel) = .ok ⟨pixelOps, []⟩ := by
  induction pixelOps generalizing i seen pl with
  | nil => rfl
  | cons p pixelOps ih =>
    obtain ⟨rfl, hm, rest, hrest, rfl⟩ := collect_pixel h
    rw [List.map_cons]
    unfold collect
    simp only [hm, ih hrest]
    rfl

end AdaptiveFrame.Pipeline
