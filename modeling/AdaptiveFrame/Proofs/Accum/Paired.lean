import AdaptiveFrame.Proofs.Accum.Means

/-!
# Two runs side by side

The same samples reach two pixels that may hold different things. Channel by channel they agree
(`Pixel.SameOn`) once a sample has replaced what was stored, and go on agreeing from there. `Kept` are the
relations between two pixels that every sample keeps and that are strong enough for the errors to be the
same; patches whose pixels are related by one of them (`Patch.Paired`) stay so under the tiles of their task.
-/

namespace AdaptiveFrame

variable {rule : FoldRule} {pl pl' : Pipeline} {k : Int} {s : Sample} {px qx : Pixel} {ch : Channel}

/-! ## Weights that replace -/

namespace Blend

theorem weight_of_isFirst (h : isFirst k = true) : Scalar.atLeast (weight k : Float32) (Scalar.ofNat 1) = true := by
  have hk : k ≤ 0 := of_decide_eq_true h
  have hweight : (weight k : Float32) = weight ((0 : Nat) : Int) := by
    rw [weight, weight, Int.toNat_of_nonpos hk, Int.toNat_natCast]
  rw [hweight]
  exact weight_first

theorem oddWeight_of_le (h : k ≤ 1) : Scalar.atLeast (oddWeight k : Float32) (Scalar.ofNat 1) = true := by
  have hmax : max k.toNat 1 = max ((1 : Nat) : Int).toNat 1 := by omega
  have hweight : (oddWeight k : Float32) = oddWeight ((1 : Nat) : Int) := by rw [oddWeight, oddWeight, hmax]
  rw [hweight]
  exact oddWeight_first

end Blend

namespace FoldRule

theorem weight_of_isFirst (rule : FoldRule) (h : Blend.isFirst k = true) :
    Scalar.atLeast (rule.weight k) (Scalar.ofNat 1) = true := by
  unfold weight
  split
  · exact Blend.weight_of_isFirst h
  · decide

/-- Whether samples are folded into a channel. Color and identifiers always are. -/
def covers (rule : FoldRule) : Channel → Bool
  | .accum => rule.accumulates
  | .variance => rule.estimates
  | .depth => rule.blendsDepth
  | .normal => rule.blendsNormal
  | .albedo => rule.blendsAlbedo
  | .color | .primitiveId | .objectId | .instanceId => true

/-- Whether the sample with id `k` replaces what a pixel holds in a channel. The color is not held: it is
made anew by every sample. -/
def replaces (rule : FoldRule) (k : Int) : Channel → Bool
  | .accum => rule.accumulates && Blend.isFirst k
  | .variance => rule.updatesError k && k ≤ 1
  | .depth => rule.blendsDepth && Blend.isFirst k
  | .normal => rule.blendsNormal && Blend.isFirst k
  | .albedo => rule.blendsAlbedo && Blend.isFirst k
  | .primitiveId | .objectId | .instanceId => Blend.isFirst k
  | .color => false

end FoldRule

/-! ## Agreeing on a channel -/

namespace Pixel

/-- Two pixels that hold the same in a channel. The identifiers are held together. -/
def SameOn : Channel → Pixel → Pixel → Prop
  | .color, px, qx => px.shown.color = qx.shown.color
  | .accum, px, qx => px.accum = qx.accum
  | .variance, px, qx => px.oddMean = qx.oddMean
  | .depth, px, qx => px.shown.depth = qx.shown.depth
  | .normal, px, qx => px.shown.normal = qx.shown.normal
  | .albedo, px, qx => px.shown.albedo = qx.shown.albedo
  | .primitiveId, px, qx | .objectId, px, qx | .instanceId, px, qx => px.shown.ids = qx.shown.ids

theorem sameOn_refl (ch : Channel) (px : Pixel) : SameOn ch px px := by cases ch <;> rfl

/-- A sample leaves two pixels agreeing on a channel if they did, or if it replaces what they held. -/
theorem SameOn.fold (h : rule.replaces k ch = true ∨ SameOn ch px qx) :
    SameOn ch (px.fold rule k s) (qx.fold rule k s) := by
  have hids : rule.replaces k .primitiveId = true ∨ px.shown.ids = qx.shown.ids →
      (px.fold rule k s).shown.ids = (qx.fold rule k s).shown.ids := by
    rintro (h | h)
    · have hstores : rule.storesIds k = true := Bool.or_eq_true_iff.2 (.inr h)
      simp only [Pixel.fold, hstores, if_true]
    · simp only [Pixel.fold, h]
  cases ch with
  | color => exact h.resolve_left Bool.false_ne_true
  | accum =>
    rcases h with h | h
    · obtain ⟨haccum, hfirst⟩ := Bool.and_eq_true_iff.1 h
      simp only [SameOn, Pixel.fold, haccum, if_true, Blend.lerp4_of_full (rule.weight_of_isFirst hfirst)]
    · simp only [SameOn, Pixel.fold, show px.accum = qx.accum from h]
  | variance =>
    rcases h with h | h
    · obtain ⟨hupdates, hle⟩ := Bool.and_eq_true_iff.1 h
      have hfull := Blend.oddWeight_of_le (of_decide_eq_true hle)
      simp only [SameOn, Pixel.fold, hupdates, if_true, Blend.lerp4_of_full hfull]
    · simp only [SameOn, Pixel.fold, show px.oddMean = qx.oddMean from h]
  | depth =>
    rcases h with h | h
    · obtain ⟨hblends, hfirst⟩ := Bool.and_eq_true_iff.1 h
      simp only [SameOn, Pixel.fold, hblends, if_true, Blend.depth_of_full (rule.weight_of_isFirst hfirst)]
    · simp only [SameOn, Pixel.fold, show px.shown.depth = qx.shown.depth from h]
  | normal =>
    rcases h with h | h
    · obtain ⟨hblends, hfirst⟩ := Bool.and_eq_true_iff.1 h
      simp only [SameOn, Pixel.fold, hblends, if_true, Blend.lerp3_of_full (rule.weight_of_isFirst hfirst)]
    · simp only [SameOn, Pixel.fold, show px.shown.normal = qx.shown.normal from h]
  | albedo =>
    rcases h with h | h
    · obtain ⟨hblends, hfirst⟩ := Bool.and_eq_true_iff.1 h
      simp only [SameOn, Pixel.fold, hblends, if_true, Blend.lerp3_of_full (rule.weight_of_isFirst hfirst)]
    · simp only [SameOn, Pixel.fold, show px.shown.albedo = qx.shown.albedo from h]
  | primitiveId => exact hids h
  | objectId => exact hids h
  | instanceId => exact hids h

/-- Which color is shown does not matter to the other channels. -/
theorem sameOn_setColor (hch : ch ≠ .color) (c c' : Vec4) : SameOn ch (px.setColor c) (qx.setColor c') ↔ SameOn ch px qx := by
  cases ch with
  | color => exact absurd rfl hch
  | _ => rfl

/-- Whatever the pixel operations make of the color, the other channels go on agreeing. -/
theorem SameOn.receive (hch : ch ≠ .color) (h : rule.replaces k ch = true ∨ SameOn ch px qx) :
    SameOn ch (px.receive rule pl k s) (qx.receive rule pl' k s) :=
  (sameOn_setColor hch _ _).2 (SameOn.fold h)

/-- The same pixel operations show the same color, if the mean that they start from is the same. -/
theorem sameOn_color_receive (hpl : pl.pixelOps = pl'.pixelOps)
    (h : rule.accumulates = true → SameOn .accum (px.receive rule pl k s) (qx.receive rule pl' k s)) :
    SameOn .color (px.receive rule pl k s) (qx.receive rule pl' k s) := by
  have htone : pl.tone = pl'.tone := by
    funext c
    unfold Pipeline.tone
    rw [hpl]
  show pl.tone ((px.fold rule k s).reflect rule s).color = pl'.tone ((qx.fold rule k s).reflect rule s).color
  rw [htone]
  cases ha : rule.accumulates with
  | true =>
    have hmean : (px.fold rule k s).accum = (qx.fold rule k s).accum := h ha
    simp only [reflect, ha, if_true, hmean]
  | false => simp only [reflect, ha, Bool.false_eq_true, if_false]

end Pixel

/-! ## Relations that samples keep -/

/-- A relation between the pixels of two runs, by the number of samples they received, that survives every
sample and starting over. -/
structure Kept (rule : FoldRule) (pl pl' : Pipeline) (Q : Int → Pixel → Pixel → Prop) : Prop where
  receive : ∀ {k px qx}, Q k px qx → ∀ s, Q (k + 1) (px.receive rule pl k s) (qx.receive rule pl' k s)
  /-- Where an error is taken from the means they are the same. -/
  means : ∀ {k px qx}, rule.updatesError k = true → Q k px qx → ∀ s,
    (px.receive rule pl k s).SameOn .accum (qx.receive rule pl' k s) ∧
      (px.receive rule pl k s).SameOn .variance (qx.receive rule pl' k s)
  restart : ∀ {k px qx}, Q k px qx → Q 0 px qx

/-- Pixels that differ in their color at most. -/
def Pixel.SameButColor (px qx : Pixel) : Prop := ∀ ch, ch ≠ .color → px.SameOn ch qx

/-- Pixels that agree on every channel that samples have replaced by now: the odd samples replace theirs with
the second sample, all others with the first. -/
def Pixel.AgreeFrom (rule : FoldRule) (k : Int) (px qx : Pixel) : Prop :=
  ∀ ch, rule.covers ch = true → (if ch = .variance then 1 else 0) < k → px.SameOn ch qx

/-- Image operations only reach the color. -/
theorem Kept.sameButColor (rule : FoldRule) (pl pl' : Pipeline) : Kept rule pl pl' fun _ => Pixel.SameButColor where
  receive h _ := fun ch hch => .receive hch (.inr (h ch hch))
  means _ h _ := ⟨.receive (by decide) (.inr (h _ (by decide))), .receive (by decide) (.inr (h _ (by decide)))⟩
  restart h := h

/-- With the same pixel operations equal pixels stay equal. -/
theorem Kept.eq (hpl : pl.pixelOps = pl'.pixelOps) : Kept rule pl pl' fun _ px qx => px = qx := by
  have hreceive : ∀ (k : Int) (px : Pixel) (s : Sample), px.receive rule pl k s = px.receive rule pl' k s := by
    intro k px s
    unfold Pixel.receive Pipeline.tone
    rw [hpl]
  refine ⟨?_, ?_, id⟩
  · rintro k px _ rfl s
    exact hreceive k px s
  · rintro k px _ - rfl s
    rw [hreceive]
    exact ⟨rfl, rfl⟩

namespace Pixel.AgreeFrom

theorem receive (hpl : pl.pixelOps = pl'.pixelOps) (h : px.AgreeFrom rule k qx) (s : Sample) :
    (px.receive rule pl k s).AgreeFrom rule (k + 1) (qx.receive rule pl' k s) := by
  have hothers : ∀ ch, ch ≠ .color → rule.covers ch = true → (if ch = .variance then 1 else 0) < k + 1 →
      (px.receive rule pl k s).SameOn ch (qx.receive rule pl' k s) := by
    intro ch hch hcovers hlt
    refine .receive hch ?_
    rcases Int.lt_or_eq_of_le (Int.lt_add_one_iff.1 hlt) with hlt | rfl
    · exact .inr (h ch hcovers hlt)
    · -- This sample is the one that replaces the channel.
      refine .inl ?_
      cases ch with
      | color => exact absurd rfl hch
      | variance =>
        have hestimates : rule.estimates = true := hcovers
        rw [FoldRule.replaces, FoldRule.updatesError, hestimates]
        rfl
      | accum | depth | normal | albedo => exact Bool.and_eq_true_iff.2 ⟨hcovers, rfl⟩
      | primitiveId | objectId | instanceId => rfl
  intro ch hcovers hlt
  by_cases hch : ch = .color
  · subst hch
    exact sameOn_color_receive hpl fun ha => hothers .accum (by decide) ha hlt
  · exact hothers ch hch hcovers hlt

theorem means (haccum : rule.estimates = true → rule.accumulates = true) (hu : rule.updatesError k = true)
    (h : px.AgreeFrom rule k qx) (s : Sample) :
    (px.receive rule pl k s).SameOn .accum (qx.receive rule pl' k s) ∧
      (px.receive rule pl k s).SameOn .variance (qx.receive rule pl' k s) := by
  have hestimates : rule.estimates = true := (Bool.and_eq_true_iff.1 hu).1
  refine ⟨.receive (by decide) ?_, .receive (by decide) ?_⟩
  · rcases Int.lt_or_le 0 k with hlt | hle
    · exact .inr (h .accum (haccum hestimates) hlt)
    · exact .inl (Bool.and_eq_true_iff.2 ⟨haccum hestimates, decide_eq_true hle⟩)
  · rcases Int.lt_or_le 1 k with hlt | hle
    · exact .inr (h .variance hestimates hlt)
    · exact .inl (Bool.and_eq_true_iff.2 ⟨hu, decide_eq_true hle⟩)

end Pixel.AgreeFrom

/-- Pixels agree on what samples have replaced, whatever they held at first. -/
theorem Kept.agreeFrom (hpl : pl.pixelOps = pl'.pixelOps)
    (haccum : rule.estimates = true → rule.accumulates = true) :
    Kept rule pl pl' (Pixel.AgreeFrom rule) where
  receive h s := h.receive hpl s
  means hu h s := h.means haccum hu s
  restart _ := fun _ _ hlt => absurd hlt (by split <;> decide)

/-! ## Patches -/

/-- Patches of one task whose pixels are related, by the number of samples they received. -/
structure Patch.Paired (Q : Int → Pixel → Pixel → Prop) (x y : Patch) : Prop where
  region : x.pixels.region = y.pixels.region
  pixels : ∀ p, x.pixels.region.contains p = true → Q x.accumId (x.pixels.getD p .blank) (y.pixels.getD p .blank)
  error : x.error = y.error
  accumId : x.accumId = y.accumId

namespace Patch.Paired

variable {Q : Int → Pixel → Pixel → Prop} {x y x' y' : Patch} {t : Tile}

/-- Patches stay related when both get a new error and count. -/
theorem of_pixels (h : Paired Q x y) (hx : x'.pixels = x.pixels) (hy : y'.pixels = y.pixels)
    (he : x'.error = y'.error) (ha : x'.accumId = y'.accumId)
    (hcount : ∀ px qx, Q x.accumId px qx → Q x'.accumId px qx) : Paired Q x' y' := by
  refine ⟨?_, ?_, he, ha⟩
  · rw [hx, hy]
    exact h.region
  · intro p hp
    rw [hx] at hp ⊢
    rw [hy]
    exact hcount _ _ (h.pixels p hp)

/-- The next tile of their task leaves patches related. -/
theorem receive (hQ : Kept rule pl pl' Q) (h : Paired Q x y) (hregion : t.region = x.pixels.region)
    (hcount : t.accumId = x.accumId) : Paired Q (x.receive rule pl t) (y.receive rule pl' t) := by
  have hget : ∀ p, x.pixels.region.contains p = true →
      (x.pixels.receive rule pl t).getD p .blank =
        (x.pixels.getD p .blank).receive rule pl x.accumId (t.sampleAt p) ∧
      (y.pixels.receive rule pl' t).getD p .blank =
        (y.pixels.getD p .blank).receive rule pl' x.accumId (t.sampleAt p) := by
    intro p hp
    have hin : t.region.contains p = true := hregion ▸ hp
    rw [Store.getD_receive hp, Store.getD_receive (h.region ▸ hp), if_pos hin, if_pos hin, hcount]
    exact ⟨rfl, rfl⟩
  refine ⟨h.region, ?_, ?_, rfl⟩
  · intro p hp
    obtain ⟨hx, hy⟩ := hget p hp
    show Q (t.accumId + 1) ((x.pixels.receive rule pl t).getD p .blank) ((y.pixels.receive rule pl' t).getD p .blank)
    rw [hcount, hx, hy]
    exact hQ.receive (h.pixels p hp) _
  · show (if rule.updatesError t.accumId then _ else x.error) = if rule.updatesError t.accumId then _ else y.error
    by_cases hu : rule.updatesError t.accumId = true
    · rw [if_pos hu, if_pos hu]
      refine Store.meanError_congr ?_ fun p hp => ?_
      · show x.pixels.region.intersect x.pixels.region = y.pixels.region.intersect y.pixels.region
        rw [h.region]
      · have hp : x.pixels.region.contains p = true := (Region.contains_intersect_iff.1 hp).2
        obtain ⟨hx, hy⟩ := hget p hp
        rw [hx, hy]
        exact hQ.means (hcount ▸ hu) (h.pixels p hp) _
    · rw [if_neg hu, if_neg hu, h.error]

end Patch.Paired

end AdaptiveFrame
