import AdaptiveFrame.Proofs.Filter.Collecting

/-!
# The first operation at fault

A list of operations is checked in one pass, position by position: a pixel operation for its place, then
the operation for the channels it reads. The pass is followed with the list cut in two, into the operations
that it is through with and those to come; no position that it is through with is at fault. So the answer is
that of the first position at fault, and without one the list falls into the pixel operations and the frame
operations behind them.

Buffers that never hold the whole image skip frame operations before their channels are looked at. They
agree with the other buffers unless a frame operation without its channels is what the others refuse.
-/

namespace AdaptiveFrame.Pipeline

variable {allow : Bool} {d : BufferDesc} {op : ImageOp} {ops done rest : List ImageOp} {c : Channel} {i : Nat}
  {e e' : FrameError} {pl : Pipeline}

/-- Whether operations find a channel in a buffer. Color counts only with a format. -/
def Keeps (d : BufferDesc) (c : Channel) : Prop := d.has c = true ∧ (c = .color → d.format ≠ .none)

/-- The first channel that an operation asks for in vain. -/
def FirstLacking (d : BufferDesc) (op : ImageOp) (c : Channel) : Prop :=
  ∃ found later, op.requires = found ++ c :: later ∧ (∀ x ∈ found, Keeps d x) ∧ ¬Keeps d c

/-- A pixel operation at position `i` with a frame operation somewhere before it. -/
def Misplaced (ops : List ImageOp) (i : Nat) (p : PixelOp) : Prop :=
  ops[i]? = some (.pixel p) ∧ ∃ j f, j < i ∧ ops[j]? = some (.frame f)

/-- The error for the operation at position `i`. Its place comes first, then its channels; frame operations
are asked for theirs only where they are allowed. -/
inductive FaultAt (allow : Bool) (d : BufferDesc) (ops : List ImageOp) (i : Nat) : FrameError → Prop
  | order {p : PixelOp} (hplace : Misplaced ops i p) : FaultAt allow d ops i (.opOrder i p.name)
  | channel {op : ImageOp} {c : Channel} (hop : ops[i]? = some op) (hplace : ∀ p, ¬Misplaced ops i p)
      (hasked : op.isPixel = true ∨ allow = true) (hlack : FirstLacking d op c) :
      FaultAt allow d ops i (.missingChannel op.name c)

/-- The error for the first position at fault. -/
def FirstFault (allow : Bool) (d : BufferDesc) (ops : List ImageOp) (i : Nat) (e : FrameError) : Prop :=
  FaultAt allow d ops i e ∧ ∀ j < i, ∀ e', ¬FaultAt allow d ops j e'

/-! ## Channels -/

theorem serves_iff : ImageOp.serves d c = true ↔ Keeps d c := by
  cases c <;> simp [ImageOp.serves, Keeps, BufferDesc.hasColor]

theorem missing?_eq_some_iff : op.missing? d = some c ↔ FirstLacking d op c := by
  rw [ImageOp.missing?, List.find?_eq_some_iff_append]
  constructor
  · rintro ⟨hlack, found, later, hrequires, hfound⟩
    refine ⟨found, later, hrequires, fun x hx => ?_, fun hkeeps => ?_⟩
    · exact serves_iff.1 (by simpa using hfound x hx)
    · simp [serves_iff.2 hkeeps] at hlack
  · rintro ⟨found, later, hrequires, hfound, hlack⟩
    refine ⟨?_, found, later, hrequires, fun x hx => ?_⟩
    · simpa using fun hserves => hlack (serves_iff.1 hserves)
    · simpa using serves_iff.2 (hfound x hx)

theorem missing?_eq_none_iff : op.missing? d = none ↔ ∀ c ∈ op.requires, Keeps d c := by
  simp [ImageOp.missing?, serves_iff]

/-- Pixel operations and frame operations differ in name. -/
theorem name_ne (p : PixelOp) (f : FrameOp) : p.name ≠ f.name := by
  cases p <;> cases f <;> simp [PixelOp.name, FrameOp.name]

/-! ## One position -/

theorem FaultAt.unique (h : FaultAt allow d ops i e) (h' : FaultAt allow d ops i e') : e = e' := by
  cases h with
  | order hplace =>
    cases h' with
    | order hplace' =>
      have hsame := hplace.1.symm.trans hplace'.1
      simp only [Option.some.injEq, ImageOp.pixel.injEq] at hsame
      rw [hsame]
    | channel hop' hplace' hasked' hlack' => exact absurd hplace (hplace' _)
  | channel hop hplace hasked hlack =>
    cases h' with
    | order hplace' => exact absurd hplace' (hplace _)
    | channel hop' hplace' hasked' hlack' =>
      obtain rfl := Option.some.inj (hop.symm.trans hop')
      have hsame := (missing?_eq_some_iff.2 hlack).symm.trans (missing?_eq_some_iff.2 hlack')
      rw [Option.some.inj hsame]

theorem FirstFault.unique {i' : Nat} (h : FirstFault allow d ops i e) (h' : FirstFault allow d ops i' e') :
    i = i' ∧ e = e' := by
  have hle : i ≤ i' := Nat.le_of_not_lt fun hlt => h.2 i' hlt e' h'.1
  have hge : i' ≤ i := Nat.le_of_not_lt fun hlt => h'.2 i hlt e h.1
  obtain rfl := Nat.le_antisymm hle hge
  exact ⟨rfl, h.1.unique h'.1⟩

/-- Whether a frame operation is among those that a pass is through with. -/
def hasFrameOp (done : List ImageOp) : Bool := done.any fun op => !op.isPixel

theorem hasFrameOp_iff : hasFrameOp done = true ↔ ∃ j f, j < done.length ∧ done[j]? = some (.frame f) := by
  rw [hasFrameOp, List.any_eq_true]
  constructor
  · rintro ⟨op, hmem, hkind⟩
    obtain ⟨j, hj⟩ := List.mem_iff_getElem?.1 hmem
    cases op with
    | pixel p => cases hkind
    | frame f => exact ⟨j, f, (List.getElem?_eq_some_iff.1 hj).1, hj⟩
  · rintro ⟨j, f, -, hj⟩
    exact ⟨.frame f, List.mem_of_getElem? hj, rfl⟩

theorem hasFrameOp_snoc : hasFrameOp (done ++ [op]) = (hasFrameOp done || !op.isPixel) := by
  simp [hasFrameOp]

/-- The next operation is misplaced if the pass saw a frame operation before it. -/
theorem misplaced_length {p : PixelOp} :
    Misplaced (done ++ op :: rest) done.length p ↔ op = .pixel p ∧ hasFrameOp done = true := by
  have hnext : (done ++ op :: rest)[done.length]? = some op := by simp
  rw [Misplaced, hnext, Option.some.injEq, hasFrameOp_iff]
  refine and_congr_right fun _ => exists_congr fun j => exists_congr fun f => and_congr_right fun hj => ?_
  rw [List.getElem?_append_left hj]

/-- What a pass finds wrong with the next operation. -/
def fault? (allow : Bool) (d : BufferDesc) (seenFrameOp : Bool) (i : Nat) (op : ImageOp) : Option FrameError :=
  if op.isPixel && seenFrameOp then some (.opOrder i op.name)
  else if op.isPixel || allow then (op.missing? d).map (FrameError.missingChannel op.name)
  else none

theorem fault?_eq_some_iff :
    fault? allow d (hasFrameOp done) done.length op = some e ↔
      FaultAt allow d (done ++ op :: rest) done.length e := by
  have hnext : (done ++ op :: rest)[done.length]? = some op := by simp
  constructor
  · intro h
    unfold fault? at h
    split at h
    case isTrue hmisplaced =>
      rw [Bool.and_eq_true] at hmisplaced
      cases op with
      | frame f => cases hmisplaced.1
      | pixel p =>
        obtain rfl := Option.some.inj h
        exact .order (misplaced_length.2 ⟨rfl, hmisplaced.2⟩)
    case isFalse hplaced =>
      split at h
      case isFalse => cases h
      case isTrue hasked =>
        obtain ⟨c, hlack, rfl⟩ := Option.map_eq_some_iff.1 h
        refine .channel hnext (fun p hmisplaced => ?_) (by simpa using hasked) (missing?_eq_some_iff.1 hlack)
        obtain ⟨rfl, hseen⟩ := misplaced_length.1 hmisplaced
        exact hplaced (by rw [hseen]; rfl)
  · intro h
    unfold fault?
    cases h with
    | order hplace =>
      obtain ⟨rfl, hseen⟩ := misplaced_length.1 hplace
      rw [hseen]
      rfl
    | channel hop hplace hasked hlack =>
      obtain rfl := Option.some.inj (hnext.symm.trans hop)
      have hplaced : ¬(op.isPixel && hasFrameOp done) = true := by
        intro hmisplaced
        rw [Bool.and_eq_true] at hmisplaced
        cases op with
        | frame f => cases hmisplaced.1
        | pixel p => exact hplace p (misplaced_length.2 ⟨rfl, hmisplaced.2⟩)
      rw [if_neg hplaced, if_pos (by simpa using hasked), missing?_eq_some_iff.2 hlack]
      rfl

/-! ## The pass -/

/-- One more operation in front. Frame operations are kept where they are allowed. -/
def prepend (allow : Bool) (pl : Pipeline) : ImageOp → Pipeline
  | .pixel p => { pl with pixelOps := p :: pl.pixelOps }
  | .frame f => if allow then { pl with frameOps := f :: pl.frameOps } else pl

/-- The pass stops at an operation at fault and otherwise goes on behind it. -/
theorem collect_cons {seen : Bool} :
    collect d allow i seen (op :: ops) =
      match fault? allow d seen i op with
      | some e => .error e
      | none => (collect d allow (i + 1) (seen || !op.isPixel) ops).map (prepend allow · op) := by
  cases op with
  | pixel p =>
    rw [collect, fault?]
    cases seen with
    | true => rfl
    | false => cases hm : (ImageOp.pixel p).missing? d <;> rfl
  | frame f =>
    have hseen : (seen || !(ImageOp.frame f).isPixel) = true := Bool.or_true seen
    rw [collect, fault?, hseen]
    cases allow with
    | false => cases collect d false (i + 1) true ops <;> rfl
    | true => cases hm : (ImageOp.frame f).missing? d <;> rfl

/-- A list that was taken apart into its pixel operations and the frame operations behind them. -/
structure Taken (allow : Bool) (rest : List ImageOp) (pl : Pipeline) (frameOps : List FrameOp) : Prop where
  ops : rest = pl.pixelOps.map .pixel ++ frameOps.map .frame
  kept : pl.frameOps = if allow then frameOps else []

/-- What a pass answers about a whole list when the operations to come are `rest`. -/
def Answers (allow : Bool) (d : BufferDesc) (ops rest : List ImageOp) : Except FrameError Pipeline → Prop
  | .ok pl => (∀ i e, ¬FaultAt allow d ops i e) ∧ ∃ frameOps, Taken allow rest pl frameOps
  | .error e => ∃ i, FirstFault allow d ops i e

/-- Behind a frame operation come only frame operations. -/
theorem Taken.cons {frameOps : List FrameOp} (h : Taken allow rest pl frameOps)
    (hnone : ∀ i e, ¬FaultAt allow d (done ++ op :: rest) i e) :
    ∃ frameOps', Taken allow (op :: rest) (prepend allow pl op) frameOps' := by
  cases op with
  | pixel p => exact ⟨frameOps, congrArg (ImageOp.pixel p :: ·) h.ops, h.kept⟩
  | frame f =>
    have hframes : pl.pixelOps = [] := by
      cases hps : pl.pixelOps with
      | nil => rfl
      | cons p ps =>
        -- A pixel operation right behind the frame operation would be misplaced.
        have hnext : (done ++ .frame f :: rest)[done.length + 1]? = some (.pixel p) := by simp [h.ops, hps]
        have hframe : (done ++ .frame f :: rest)[done.length]? = some (.frame f) := by simp
        exact absurd (.order ⟨hnext, done.length, f, Nat.lt_succ_self _, hframe⟩) (hnone _ _)
    refine ⟨f :: frameOps, ?_, ?_⟩
    · cases allow <;> simp [prepend, hframes, h.ops]
    · cases allow with
      | false => exact h.kept
      | true => exact congrArg (f :: ·) h.kept

/-- The pass over the operations to come answers for the whole list, as none before them is at fault. -/
theorem answers_collect (hdone : ∀ j < done.length, ∀ e, ¬FaultAt allow d (done ++ rest) j e) :
    Answers allow d (done ++ rest) rest (collect d allow done.length (hasFrameOp done) rest) := by
  induction rest generalizing done with
  | nil =>
    refine ⟨fun i e hfault => ?_, [], rfl, by cases allow <;> rfl⟩
    have hlt : i < done.length := by
      cases hfault with
      | order hplace => simpa using (List.getElem?_eq_some_iff.1 hplace.1).1
      | channel hop hplace hasked hlack => simpa using (List.getElem?_eq_some_iff.1 hop).1
    exact hdone i hlt e hfault
  | cons op rest ih =>
    rw [collect_cons]
    cases hfault : fault? allow d (hasFrameOp done) done.length op with
    | some e => exact ⟨done.length, fault?_eq_some_iff.1 hfault, hdone⟩
    | none =>
      have hwhole : done ++ op :: rest = done ++ [op] ++ rest := by simp
      have hdone' : ∀ j < (done ++ [op]).length, ∀ e, ¬FaultAt allow d (done ++ [op] ++ rest) j e := by
        intro j hj e hat
        rw [← hwhole] at hat
        rcases Nat.lt_succ_iff_lt_or_eq.1 (by simpa using hj) with hlt | rfl
        · exact hdone j hlt e hat
        · rw [← fault?_eq_some_iff, hfault] at hat
          cases hat
      have hrest := ih hdone'
      rw [← hwhole, hasFrameOp_snoc, List.length_append, List.length_singleton] at hrest
      cases hcollect : collect d allow (done.length + 1) (hasFrameOp done || !op.isPixel) rest with
      | error e =>
        rw [hcollect] at hrest
        exact hrest
      | ok pl =>
        rw [hcollect] at hrest
        obtain ⟨hnone, frameOps, htaken⟩ := hrest
        exact ⟨hnone, htaken.cons hnone⟩

theorem answers_build (allow : Bool) (ops : List ImageOp) (d : BufferDesc) :
    Answers allow d ops ops (build ops d allow) := by
  have hdone : ∀ j < ([] : List ImageOp).length, ∀ e, ¬FaultAt allow d ([] ++ ops) j e :=
    fun j hj => absurd hj (Nat.not_lt_zero j)
  exact answers_collect hdone

/-! ## What is accepted -/

/-- A list splits into pixel and frame operations in one way only. -/
theorem split_unique {ps ps' : List PixelOp} {fs fs' : List FrameOp}
    (h : ps.map ImageOp.pixel ++ fs.map ImageOp.frame = ps'.map ImageOp.pixel ++ fs'.map ImageOp.frame) :
    ps = ps' ∧ fs = fs' := by
  have hpixel (ps : List PixelOp) (fs : List FrameOp) :
      (ps.map ImageOp.pixel ++ fs.map ImageOp.frame).filter ImageOp.isPixel = ps.map ImageOp.pixel := by
    have hps : ∀ op ∈ ps.map ImageOp.pixel, op.isPixel = true := by simp [ImageOp.isPixel]
    have hfs : ∀ op ∈ fs.map ImageOp.frame, ¬op.isPixel = true := by simp [ImageOp.isPixel]
    rw [List.filter_append, List.filter_eq_self.2 hps, List.filter_eq_nil_iff.2 hfs, List.append_nil]
  have hps : ps = ps' := by
    have hmap := congrArg (List.filter ImageOp.isPixel) h
    rw [hpixel, hpixel] at hmap
    exact (List.map_inj_right fun _ _ hop => ImageOp.pixel.inj hop).1 hmap
  subst hps
  exact ⟨rfl, (List.map_inj_right fun _ _ hop => ImageOp.frame.inj hop).1 (List.append_cancel_left h)⟩

/-- Pixel operations before frame operations, each with its channels where it is asked for them, are not at
fault. -/
theorem not_faultAt {ps : List PixelOp} {fs : List FrameOp}
    (hchannels : ∀ op ∈ ps.map ImageOp.pixel ++ fs.map ImageOp.frame, (op.isPixel = true ∨ allow = true) →
      ∀ c ∈ op.requires, Keeps d c) :
    ¬FaultAt allow d (ps.map ImageOp.pixel ++ fs.map ImageOp.frame) i e := by
  intro hfault
  cases hfault with
  | order hplace =>
    obtain ⟨hpixel, j, f, hji, hframe⟩ := hplace
    have hi : i < ps.length := Nat.lt_of_not_le fun hge => by
      rw [List.getElem?_append_right (by simpa using hge), List.getElem?_map] at hpixel
      obtain ⟨f', -, hf'⟩ := Option.map_eq_some_iff.1 hpixel
      cases hf'
    rw [List.getElem?_append_left (by simp; omega), List.getElem?_map] at hframe
    obtain ⟨p', -, hp'⟩ := Option.map_eq_some_iff.1 hframe
    cases hp'
  | channel hop hplace hasked hlack =>
    obtain ⟨found, later, hrequires, -, hlack⟩ := hlack
    exact hlack (hchannels _ (List.mem_of_getElem? hop) hasked _ (by simp [hrequires]))

/-- What a build accepts, and what it then holds. -/
theorem build_ok_iff : build ops d allow = .ok pl ↔
    (∃ frameOps, Taken allow ops pl frameOps) ∧
      ∀ op ∈ ops, (op.isPixel = true ∨ allow = true) → ∀ c ∈ op.requires, Keeps d c := by
  have hanswers := answers_build allow ops d
  constructor
  · intro h
    rw [h] at hanswers
    obtain ⟨hnone, frameOps, htaken⟩ := hanswers
    refine ⟨⟨frameOps, htaken⟩, fun op hmem hasked => missing?_eq_none_iff.1 ?_⟩
    obtain ⟨i, hi⟩ := List.mem_iff_getElem?.1 hmem
    cases hm : op.missing? d with
    | none => rfl
    | some c =>
      have hplace : ∀ p, ¬Misplaced ops i p := fun p hp => hnone i _ (.order hp)
      exact absurd (.channel hi hplace hasked (missing?_eq_some_iff.1 hm)) (hnone i _)
  · rintro ⟨⟨frameOps, hops, hkept⟩, hchannels⟩
    have hnone : ∀ i e, ¬FaultAt allow d ops i e := by
      rw [hops] at hchannels ⊢
      exact fun i e => not_faultAt hchannels
    cases hbuild : build ops d allow with
    | error e =>
      rw [hbuild] at hanswers
      obtain ⟨i, hfirst⟩ := hanswers
      exact absurd hfirst.1 (hnone i e)
    | ok pl' =>
      rw [hbuild] at hanswers
      obtain ⟨-, frameOps', hops', hkept'⟩ := hanswers
      obtain ⟨hpixels, rfl⟩ := split_unique (hops'.symm.trans hops)
      have hframes := hkept'.trans hkept.symm
      cases pl
      cases pl'
      simp only at hpixels hframes
      rw [hpixels, hframes]

/-- A build fails with the error of the first position at fault. -/
theorem build_error_iff : build ops d allow = .error e ↔ ∃ i, FirstFault allow d ops i e := by
  have hanswers := answers_build allow ops d
  constructor
  · intro h
    rw [h] at hanswers
    exact hanswers
  · rintro ⟨i, hfirst⟩
    cases hbuild : build ops d allow with
    | error e' =>
      rw [hbuild] at hanswers
      obtain ⟨i', hfirst'⟩ := hanswers
      rw [(hfirst.unique hfirst').2]
    | ok pl =>
      rw [hbuild] at hanswers
      exact absurd hfirst.1 (hanswers.1 i e)

/-- With frame operations allowed, a list is accepted if pixel operations come before frame operations and each
finds its channels; it is then held as it is listed. Otherwise the first position at fault gives the error. -/
theorem accepted_or_first_fault (ops : List ImageOp) (d : BufferDesc) :
    (∀ pl, build ops d true = .ok pl ↔
      ops = pl.pixelOps.map .pixel ++ pl.frameOps.map .frame ∧ ∀ op ∈ ops, ∀ c ∈ op.requires, Keeps d c) ∧
    ∀ e, build ops d true = .error e ↔ ∃ i, FirstFault true d ops i e := by
  refine ⟨fun pl => ?_, fun e => build_error_iff⟩
  rw [build_ok_iff]
  constructor
  · rintro ⟨⟨frameOps, hops, hkept⟩, hchannels⟩
    obtain rfl : pl.frameOps = frameOps := hkept
    exact ⟨hops, fun op hop => hchannels op hop (.inr rfl)⟩
  · rintro ⟨hops, hchannels⟩
    exact ⟨⟨pl.frameOps, hops, rfl⟩, fun op hop _ => hchannels op hop⟩

/-- The place of an operation is looked at before the channels of those behind it. -/
example : build [.frame .blur, .pixel (.tint .zero), .frame .depth]
    { size := ⟨1, 1⟩, format := .rgba32f, channels := .ofList [.color] } true =
      .error (.opOrder 1 "tile_debug") := rfl

/-! ## Without frame operations -/

/-- The pixel stage of a pipeline. -/
def withoutFrameOps (pl : Pipeline) : Pipeline := { pl with frameOps := [] }

/-- Where frame operations are skipped, no more is asked for. -/
theorem FaultAt.allowed (h : FaultAt false d ops i e) : FaultAt true d ops i e := by
  cases h with
  | order hplace => exact .order hplace
  | channel hop hplace hasked hlack => exact .channel hop hplace (.inr rfl) hlack

/-- Pixel operations are checked everywhere alike. -/
theorem FaultAt.skipped {p : PixelOp} (h : FaultAt true d ops i e) (hpixel : ops[i]? = some (.pixel p)) :
    FaultAt false d ops i e := by
  cases h with
  | order hplace => exact .order hplace
  | channel hop hplace hasked hlack =>
    obtain rfl := Option.some.inj (hpixel.symm.trans hop)
    exact .channel hop hplace (.inl rfl) hlack

/-- Where frame operations are skipped, no error comes from one. -/
theorem FaultAt.ne_frame {f : FrameOp} (h : FaultAt false d ops i e) : e ≠ .missingChannel f.name c := by
  cases h with
  | order hplace => nofun
  | @channel op c' hop hplace hasked hlack =>
    cases op with
    | frame f' => exact absurd hasked (by simp [ImageOp.isPixel])
    | pixel p =>
      intro hsame
      injection hsame with hname
      exact name_ne p f hname

/-- A first fault that is no frame operation's is everywhere the first. -/
theorem FirstFault.skipped {p : PixelOp} (h : FirstFault true d ops i e) (hpixel : ops[i]? = some (.pixel p)) :
    FirstFault false d ops i e :=
  ⟨h.1.skipped hpixel, fun j hj e' hat => h.2 j hj e' hat.allowed⟩

/-- What is refused is the operation at a position of the list. -/
theorem FaultAt.exists_op (h : FaultAt allow d ops i e) : ∃ op, ops[i]? = some op := by
  cases h with
  | order hplace => exact ⟨_, hplace.1⟩
  | channel hop hplace hasked hlack => exact ⟨_, hop⟩

/-- A list that is accepted with frame operations is accepted without them, and only they are left out. -/
theorem build_without_of_ok (h : build ops d true = .ok pl) : build ops d false = .ok (withoutFrameOps pl) := by
  obtain ⟨⟨frameOps, hops, -⟩, hchannels⟩ := build_ok_iff.1 h
  exact build_ok_iff.2 ⟨⟨frameOps, hops, rfl⟩, fun op hop _ => hchannels op hop (.inr rfl)⟩

/-- Buffers that never hold the whole image do not look at the channels of frame operations. They answer as the
others, less the frame operations, unless the others refuse the list for a channel of a frame operation. -/
theorem frame_ops_dropped_unchecked (ops : List ImageOp) (d : BufferDesc) :
    (∀ pl, build ops d false = .ok pl ↔ pl.frameOps = [] ∧
      (∃ frameOps : List FrameOp, ops = pl.pixelOps.map .pixel ++ frameOps.map .frame) ∧
        ∀ p ∈ pl.pixelOps, ∀ c ∈ (ImageOp.pixel p).requires, Keeps d c) ∧
    (∀ e, build ops d false = .error e ↔ ∃ i, FirstFault false d ops i e) ∧
    (build ops d false = (build ops d true).map withoutFrameOps ↔
      ¬∃ i f c, ops[i]? = some (.frame f) ∧ FirstFault true d ops i (.missingChannel f.name c)) := by
  refine ⟨fun pl => ?_, fun e => build_error_iff, ?_⟩
  · rw [build_ok_iff]
    constructor
    · rintro ⟨⟨frameOps, hops, hkept⟩, hchannels⟩
      refine ⟨hkept, ⟨frameOps, hops⟩, fun p hp => hchannels (.pixel p) ?_ (.inl rfl)⟩
      rw [hops]
      exact List.mem_append_left _ (List.mem_map_of_mem hp)
    · rintro ⟨hkept, ⟨frameOps, hops⟩, hchannels⟩
      refine ⟨⟨frameOps, hops, hkept⟩, fun op hop hasked => ?_⟩
      rw [hops, List.mem_append, List.mem_map, List.mem_map] at hop
      obtain ⟨p, hp, rfl⟩ | ⟨f, -, rfl⟩ := hop
      · exact hchannels p hp
      · exact absurd hasked (by simp [ImageOp.isPixel])
  · cases hbuild : build ops d true with
    | ok pl =>
      refine iff_of_true (build_without_of_ok hbuild) ?_
      rintro ⟨i, f, c, -, hfirst⟩
      cases hbuild.symm.trans (build_error_iff.2 ⟨i, hfirst⟩)
    | error e =>
      obtain ⟨i, hfirst⟩ := build_error_iff.1 hbuild
      constructor
      · rintro hsame ⟨i', f, c, -, hfirst'⟩
        obtain ⟨-, rfl⟩ := hfirst.unique hfirst'
        obtain ⟨j, hskipped⟩ := build_error_iff.1 hsame
        exact hskipped.1.ne_frame rfl
      · intro hnone
        obtain ⟨op, hop⟩ := hfirst.1.exists_op
        cases op with
        | pixel p => exact build_error_iff.2 ⟨i, hfirst.skipped hop⟩
        | frame f =>
          cases hfirst.1 with
          | order hplace => cases hop.symm.trans hplace.1
          | @channel op' c hop' hplace hasked hlack =>
            obtain rfl := Option.some.inj (hop.symm.trans hop')
            exact absurd ⟨i, f, c, hop, hfirst⟩ hnone

/-- Depth is shown in a buffer that keeps color only: refused where frame operations run, accepted where they are
left out. -/
theorem frame_depth_dropped_unchecked :
    let d : BufferDesc := { size := ⟨1, 1⟩, format := .rgba32f, channels := .ofList [.color] }
    build [.frame .depth] d false = .ok empty ∧
      build [.frame .depth] d true = .error (.missingChannel "frame_depth" .depth) :=
  ⟨rfl, rfl⟩

end AdaptiveFrame.Pipeline
