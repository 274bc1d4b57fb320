import AdaptiveFrame.Proofs.Accum.Receive
import Mathlib.Data.Fin.VecNotation
import Mathlib.Data.Fintype.Basic
import Mathlib.Data.List.Induction
import Mathlib.Tactic.FinCases

/-!
# The numbers of a pixel

What a pixel does to its numbers when it receives a sample only takes the operations of a scalar. `Pixel.Numbers` are
these numbers over any scalar type, and `fold` says what becomes of them. With single precision that is what the pixels
of a buffer do (`numbers_receiveAll`); over another scalar type it is the same formulas read there.
-/

namespace AdaptiveFrame

/-- The numbers of a sample, lane by lane. -/
structure Sample.Numbers (α : Type) where
  color : Fin 4 → α
  depth : α
  normal : Fin 3 → α
  albedo : Fin 3 → α

/-- The numbers of a pixel that samples are blended into, lane by lane. -/
@[ext]
structure Pixel.Numbers (α : Type) where
  accum : Fin 4 → α
  oddMean : Fin 4 → α
  depth : α
  normal : Fin 3 → α
  albedo : Fin 3 → α

namespace Pixel.Numbers

section Scalar

variable {α : Type} [Scalar α]

/-- Folds the sample with id `k` into a pixel. -/
def fold (rule : FoldRule) (k : Int) (s : Sample.Numbers α) (px : Pixel.Numbers α) : Pixel.Numbers α :=
  let w : α := if rule.accumulates then Blend.weight k else Scalar.ofNat 1
  { accum := if rule.accumulates then fun i => Blend.lerp (px.accum i) (s.color i) w else px.accum
    oddMean :=
      if rule.updatesError k then fun i => Blend.lerp (px.oddMean i) (s.color i) (Blend.oddWeight k) else px.oddMean
    depth := if rule.blendsDepth then Blend.depth px.depth s.depth w else px.depth
    normal := if rule.blendsNormal then fun i => Blend.lerp (px.normal i) (s.normal i) w else px.normal
    albedo := if rule.blendsAlbedo then fun i => Blend.lerp (px.albedo i) (s.albedo i) w else px.albedo }

/-- Folds samples one after another, the first of them with the id 0. -/
def foldAll (rule : FoldRule) (samples : List (Sample.Numbers α)) (px : Pixel.Numbers α) : Pixel.Numbers α :=
  samples.zipIdx.foldl (fun px e => px.fold rule e.2 e.1) px

theorem foldAll_concat (rule : FoldRule) (samples : List (Sample.Numbers α)) (s : Sample.Numbers α)
    (px : Pixel.Numbers α) :
    px.foldAll rule (samples ++ [s]) = (px.foldAll rule samples).fold rule samples.length s :=
  foldl_zipIdx_concat ..

end Scalar

end Pixel.Numbers

/-! ## Single precision -/

def Vec3.lanes (v : Vec3) : Fin 3 → Float32 := ![v.x, v.y, v.z]

def Vec4.lanes (v : Vec4) : Fin 4 → Float32 := ![v.x, v.y, v.z, v.w]

theorem Blend.lanes_lerp3 (m s : Vec3) (w : Float32) :
    (lerp3 m s w).lanes = fun i => lerp (m.lanes i) (s.lanes i) w := by
  funext i
  fin_cases i <;> rfl

theorem Blend.lanes_lerp4 (m s : Vec4) (w : Float32) :
    (lerp4 m s w).lanes = fun i => lerp (m.lanes i) (s.lanes i) w := by
  funext i
  fin_cases i <;> rfl

def Sample.numbers (s : Sample) : Sample.Numbers Float32 := ⟨s.color.lanes, s.depth, s.normal.lanes, s.albedo.lanes⟩

namespace Pixel

def numbers (px : Pixel) : Pixel.Numbers Float32 :=
  ⟨px.accum.lanes, px.oddMean.lanes, px.shown.depth, px.shown.normal.lanes, px.shown.albedo.lanes⟩

/-- What a pixel makes of its numbers is what `Numbers.fold` says. -/
theorem numbers_receive (rule : FoldRule) (pl : Pipeline) (k : Int) (s : Sample) (px : Pixel) :
    (px.receive rule pl k s).numbers = px.numbers.fold rule k s.numbers := by
  have hw : rule.weight k = if rule.accumulates then Blend.weight k else Scalar.ofNat 1 := rfl
  ext1
  · show Vec4.lanes (if _ then _ else _) = _
    rw [apply_ite Vec4.lanes, Blend.lanes_lerp4, hw]
    rfl
  · show Vec4.lanes (if _ then _ else _) = _
    rw [apply_ite Vec4.lanes, Blend.lanes_lerp4]
    rfl
  · rfl
  · show Vec3.lanes (if _ then _ else _) = _
    rw [apply_ite Vec3.lanes, Blend.lanes_lerp3, hw]
    rfl
  · show Vec3.lanes (if _ then _ else _) = _
    rw [apply_ite Vec3.lanes, Blend.lanes_lerp3, hw]
    rfl

/-- The numbers of a pixel that receives samples are folded sample by sample. -/
theorem numbers_receiveAll (rule : FoldRule) (pl : Pipeline) (samples : List Sample) (px : Pixel) :
    (px.receiveAll rule pl samples).numbers = px.numbers.foldAll rule (samples.map Sample.numbers) := by
  induction samples using List.reverseRecOn with
  | nil => rfl
  | append_singleton samples s ih =>
    rw [receiveAll_concat, numbers_receive, ih, List.map_append, List.map_singleton, Numbers.foldAll_concat,
      List.length_map]

end Pixel

end AdaptiveFrame
