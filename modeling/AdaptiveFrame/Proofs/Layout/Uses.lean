import AdaptiveFrame.Layout.Uses
import AdaptiveFrame.Proofs.Layout.DenseFrames
import AdaptiveFrame.Proofs.Layout.SparseFolding
import AdaptiveFrame.Proofs.Render.Clearing

/-!
# Every use of a buffer succeeds

No access to the arrays of a buffer ever fails: whatever is done to a buffer that was made from a valid
description, with tiles of any region and tasks of any number, each operation on its layout succeeds and leaves the
layout of what it leaves of the buffer. A dense buffer can then be read by the channels it was asked for, with a
value for every pixel of its image, and a sparse one by none.
-/

namespace AdaptiveFrame

/-! ## Sparse buffers -/

namespace SparseBuffer

variable {d : BufferDesc} {s : SparseBuffer}

theorem Placed.perform (h : Placed s) (op : SparseOp) : Placed (s.perform op) := by
  cases op with
  | setTiles ids => exact h.step (.setTiles s ids)
  | setImageOps ops => exact h.step (.setImageOps s ops)
  | commit =>
    show Placed (s.commit.toOption.getD s)
    cases hc : s.commit with
    | error e => exact h
    | ok s' => exact h.step (.commit hc)
  | beginFrame => exact h.step (.beginFrame s)
  | schedule threshold n => exact h
  | accumulate t => exact h.step (.accumulate s t)
  | accumulateAll tiles => exact h.step (.accumulateAll s tiles)
  | setTaskError i e => exact h.step (.setTaskError s i e)
  | setTaskAccumId i n => exact h.step (.setTaskAccumId s i n)
  | endFrame => exact h.step (.endFrame s)
  | postProcess => exact h
  | clear => exact h.step (.clear s)

theorem perform?_eq (h : Placed s) (op : SparseOp) : s.layout.perform? op = some (s.perform op).layout := by
  cases op with
  | setTiles ids => exact setTiles?_eq h.owns.valid rfl h.slots ids
  | setImageOps ops => rfl
  | commit =>
    show some (s.layout.commit.toOption.getD s.layout) = some (s.commit.toOption.getD s).layout
    rw [layout_commit]
    cases s.commit <;> rfl
  | beginFrame => exact congrArg some (layout_beginFrame s)
  | schedule threshold n =>
    show (s.layout.schedule? threshold n).map _ = _
    rw [schedule?_eq]
    rfl
  | accumulate t =>
    show (s.layout.accumulate? t).map Prod.fst = _
    rw [accumulate?_eq h]
    rfl
  | accumulateAll tiles => exact accumulateAll?_eq h tiles
  | setTaskError i e => exact setTaskError?_eq h i e
  | setTaskAccumId i n => exact congrArg some (layout_setTaskAccumId s i n)
  | endFrame => exact congrArg some (layout_endFrame s)
  | postProcess => rfl
  | clear => exact clear?_eq h

theorem performAll?_eq (h : Placed s) (ops : List SparseOp) :
    s.layout.performAll? ops = some (s.performAll ops).layout :=
  foldlM_eq_some (R := layout) (I := Placed) h fun _ op _ hc => ⟨perform?_eq hc op, hc.perform op⟩

theorem placed_performAll (h : Placed s) (ops : List SparseOp) : Placed (s.performAll ops) :=
  Writes.inv_foldl h fun _ op _ hc => hc.perform op

end SparseBuffer

/-! ## Dense buffers -/

namespace DenseBuffer

variable {d : BufferDesc} {b : DenseBuffer} {s : SparseBuffer}

/-- The state of a task goes to the task of the image at the same position, which is one that is kept. -/
theorem takeTask?_eq (h : b.Intact) (hs : s.desc.Valid) (i : Nat) :
    DenseLayout.takeTask? s.layout b.layout i = some (b.takeTask s i).layout := by
  have hpos := SparseBuffer.taskGridPos?_eq hs i
  have htask : b.layout.taskIdAt? (s.taskGridPos i) = b.taskIdAt? (s.taskGridPos i) := rfl
  unfold DenseLayout.takeTask? takeTask
  simp only [hpos, htask, Option.bind_eq_bind, Option.bind_some]
  cases hid : b.taskIdAt? (s.taskGridPos i) with
  | none => rfl
  | some id =>
    obtain ⟨hin, hrow⟩ := Option.ite_none_right_eq_some.1 hid
    have hrow : (s.taskGridPos i).rowMajor b.grid.x = id := Option.some.inj hrow
    simp only [Bool.and_eq_true, decide_eq_true_eq] at hin
    have hlt : id < b.accumIds.size := by
      rw [h.accumIds, ← hrow]
      exact Point.rowMajor_lt hin.1 hin.2
    have herror : DenseLayout.takeError? s.layout b.layout (s.taskGridPos i) i =
        some (if s.desc.has .variance && b.tracker.isEnabled then
          b.tracker.update (s.taskGridPos i) (s.taskError i) else b.tracker) := by
      unfold DenseLayout.takeError?
      rw [Bool.and_comm]
      show (if s.desc.has .variance && b.tracker.isEnabled then
        b.tracker.update? (s.taskGridPos i) (s.taskError i) else some b.tracker) = _
      split
      · refine ErrorTracker.update?_eq (fun he => ?_) _
        rw [h.grid_of_enabled he]
        exact hin
      · rfl
    have hnote : (Span.whole b.layout.accumIds.size).write? b.layout.accumIds id (s.taskAccumId i) =
        some (b.accumIds.setIfInBounds id (s.taskAccumId i)) :=
      Span.write?_whole hlt _
    have htaken : s.layout.accumIds[i]?.getD 0 = s.taskAccumId i := rfl
    simp only [herror, htaken, hnote, Option.bind_some]
    rfl

theorem writeSparse?_eq (h : b.Intact) (hs : s.desc.Valid) :
    b.layout.writeSparse? s.layout = (b.writeSparse s).map fun c => some c.layout := by
  have hdesc : b.layout.desc.taskSize = b.desc.taskSize := rfl
  have hdesc' : s.layout.desc.taskSize = s.desc.taskSize := rfl
  unfold DenseLayout.writeSparse? writeSparse
  rw [hdesc, hdesc']
  split
  · have htiles : s.layout.tiles.toList.map TileLayout.tile = s.tiles.toList.map OwnedTile.shown := by
      show (s.tiles.map (SparseBuffer.layoutTile s.desc)).toList.map TileLayout.tile = _
      rw [Array.toList_map, List.map_map]
      rfl
    have htasks : s.layout.order.foldlM (DenseLayout.takeTask? s.layout)
        (b.writeTiles (s.tiles.toList.map OwnedTile.shown)).layout = some _ :=
      foldlM_eq_some (R := layout) (I := Intact) (h.writeTiles _) fun c i _ hc =>
        ⟨takeTask?_eq hc hs i, hc.takeTask s i⟩
    rw [htiles, writeTiles?_eq h]
    exact congrArg Except.ok htasks
  · rfl

/-- Whatever was done to the sparse buffer before, it is written or refused. -/
theorem writeUsed?_eq (h : b.Intact) (d : BufferDesc) (ids : List Nat) (ops : List SparseOp) :
    b.layout.writeUsed? d ids ops = some (b.writeUsed d ids ops).layout := by
  unfold DenseLayout.writeUsed? writeUsed
  rw [SparseBuffer.create?_eq]
  cases hs : SparseBuffer.create d ids with
  | error e => rfl
  | ok s =>
    have hplaced : SparseBuffer.Placed s := (SparseBuffer.Reachable.create hs).placed
    have hused := SparseBuffer.performAll?_eq hplaced ops
    have hwrite := writeSparse?_eq h (s := s.performAll ops) (SparseBuffer.placed_performAll hplaced ops).owns.valid
    simp only [Except.map, hused, hwrite, Option.bind_eq_bind, Option.bind_some]
    cases b.writeSparse (s.performAll ops) <;> rfl

theorem Intact.step_keeps (h : b.Intact) {c : DenseBuffer} (hs : Step b c) : c.Intact ∧ c.desc = b.desc :=
  ⟨h.step hs, (hs.committed h).1⟩

theorem Intact.perform (h : b.Intact) (op : DenseOp) : (b.perform op).Intact ∧ (b.perform op).desc = b.desc := by
  cases op with
  | setImageOps ops => exact h.step_keeps (.setImageOps b ops)
  | commit =>
    show (b.commit.toOption.getD b).Intact ∧ (b.commit.toOption.getD b).desc = b.desc
    cases hc : b.commit with
    | error e => exact ⟨h, rfl⟩
    | ok b' => exact h.step_keeps (.commit hc)
  | beginFrame => exact h.step_keeps (.beginFrame b)
  | schedule threshold n => exact ⟨h, rfl⟩
  | accumulate t => exact h.step_keeps (.accumulate b t)
  | accumulateAll tiles => exact h.step_keeps (.accumulateAll b tiles)
  | writeTiles tiles => exact h.step_keeps (.writeTiles b tiles)
  | writeSparse d ids ops =>
    show (b.writeUsed d ids ops).Intact ∧ (b.writeUsed d ids ops).desc = b.desc
    unfold writeUsed
    cases SparseBuffer.create d ids with
    | error e => exact ⟨h, rfl⟩
    | ok s =>
      dsimp only
      cases hw : b.writeSparse (s.performAll ops) with
      | error e => exact ⟨h, rfl⟩
      | ok b' => exact h.step_keeps (.writeSparse _ hw)
  | endFrame threshold => exact h.step_keeps (.endFrame b threshold)
  | postProcess => exact h.step_keeps (.postProcess b)
  | clear => exact h.step_keeps (.clear b)

theorem perform?_eq (h : b.Intact) (op : DenseOp) : b.layout.perform? op = some (b.perform op).layout := by
  cases op with
  | setImageOps ops => rfl
  | commit =>
    show some (b.layout.commit.toOption.getD b.layout) = some (b.commit.toOption.getD b).layout
    rw [layout_commit h]
    cases b.commit <;> rfl
  | beginFrame => exact congrArg some (layout_beginFrame b)
  | schedule threshold n =>
    show (b.layout.schedule? threshold n).map _ = _
    rw [schedule?_eq]
    rfl
  | accumulate t =>
    show (b.layout.accumulate? t).map Prod.fst = _
    rw [accumulate?_eq h]
    rfl
  | accumulateAll tiles => exact accumulateAll?_eq h tiles
  | writeTiles tiles => exact writeTiles?_eq h tiles
  | writeSparse d ids ops => exact writeUsed?_eq h d ids ops
  | endFrame threshold => exact endFrame?_eq h threshold
  | postProcess => exact postProcess?_eq h
  | clear => exact congrArg some (layout_clear b)

theorem performAll?_eq (h : b.Intact) (ops : List DenseOp) :
    b.layout.performAll? ops = some (b.performAll ops).layout :=
  foldlM_eq_some (R := layout) (I := Intact) h fun _ op _ hc => ⟨perform?_eq hc op, (hc.perform op).1⟩

theorem intact_performAll (h : b.Intact) (ops : List DenseOp) :
    (b.performAll ops).Intact ∧ (b.performAll ops).desc = b.desc :=
  Writes.inv_foldl (I := fun c : DenseBuffer => c.Intact ∧ c.desc = b.desc) ⟨h, rfl⟩ fun _ op _ hc =>
    ⟨(hc.1.perform op).1, (hc.1.perform op).2.trans hc.2⟩

/-- Every valid description makes a buffer. -/
theorem exists_create (hd : d.validate = .ok ()) : ∃ b, create d = .ok b := by
  unfold create Lifecycle.create
  rw [hd]
  exact ⟨_, rfl⟩

end DenseBuffer

/-! ## All uses -/

/-- A color channel that passed the checks has a format. -/
theorem BufferDesc.hasColor_of_validate {d : BufferDesc} (hd : d.validate = .ok ()) (hcolor : d.has .color = true) :
    d.hasColor = true := by
  unfold validate at hd
  split at hd
  · cases hd
  · split at hd
    · cases hd
    · split at hd
      · cases hd
      · split at hd
        · cases hd
        · rename_i hformat
          rw [hcolor, Bool.true_and] at hformat
          rw [hasColor, hcolor, Bool.true_and, bne, Bool.eq_false_iff.2 hformat, Bool.not_false]

/-- No access fails, whatever is done to a buffer, and the channels that can then be read are those that a dense
buffer was asked for. -/
theorem BufferDesc.every_use_succeeds {d : BufferDesc} (hd : d.validate = .ok ()) :
    (∀ ops : List DenseOp, ∃ b, DenseBuffer.create d = .ok b ∧ DenseLayout.create? d = .ok (some b.layout) ∧
      b.layout.performAll? ops = some (b.performAll ops).layout ∧
      ∀ c, (b.performAll ops).layout.channel? c = (b.performAll ops).channel? c ∧
        (FrameBuffer.map? (b.performAll ops) c).map (fun mapped => mapped.1.size) =
          if d.has c then some (d.size.x * d.size.y) else none) ∧
    ∀ (ids : List Nat) (ops : List SparseOp), ∃ s, SparseBuffer.create d ids = .ok s ∧
      SparseLayout.create? d ids = .ok (some s.layout) ∧
      s.layout.performAll? ops = some (s.performAll ops).layout ∧
      ∀ c, (s.performAll ops).layout.channel? c = none ∧ FrameBuffer.map? (s.performAll ops) c = none := by
  refine ⟨fun ops => ?_, fun ids ops => ?_⟩
  · obtain ⟨b, hb⟩ := DenseBuffer.exists_create hd
    have hnew : b.Intact := .of_create hb
    obtain ⟨hintact, hdesc⟩ := DenseBuffer.intact_performAll hnew ops
    have hb_desc : b.desc = d := by
      obtain ⟨-, rfl⟩ := DenseBuffer.eq_of_create hb
      rfl
    refine ⟨b, hb, ?_, DenseBuffer.performAll?_eq hnew ops, fun c => ⟨DenseBuffer.channel?_eq hintact c, ?_⟩⟩
    · rw [DenseBuffer.create?_eq, hb]
      rfl
    · have hsize := DenseBuffer.size_channel? hintact (by rw [hdesc, hb_desc]; exact d.hasColor_of_validate hd) c
      rw [hdesc, hb_desc] at hsize
      unfold FrameBuffer.map?
      rw [Option.map_map]
      exact hsize
  · obtain ⟨s, hs⟩ := SparseBuffer.exists_create hd ids
    refine ⟨s, hs, ?_, SparseBuffer.performAll?_eq (SparseBuffer.Reachable.create hs).placed ops, fun c => ⟨rfl, rfl⟩⟩
    rw [SparseBuffer.create?_eq, hs]
    rfl

/-- Tiles that cross cells, lie partly outside, lie outside and are empty, and a sparse buffer of another image. -/
theorem BufferDesc.every_use_succeeds_beside_image :
    let d : BufferDesc := ⟨⟨3, 2⟩, .rgba8, .ofList [.color, .accum, .variance], ⟨1, 1⟩⟩
    d.validate = .ok () ∧ ∃ b l, DenseBuffer.create d = .ok b ∧
      b.layout.performAll? [.commit, .beginFrame, .accumulate (.blank ⟨⟨2, 1⟩, ⟨9, 9⟩⟩ 0),
        .accumulateAll [.blank ⟨⟨1, 0⟩, ⟨90, 2⟩⟩ 1, .blank ⟨⟨64, 64⟩, ⟨65, 65⟩⟩ 1, .blank ⟨⟨5, 5⟩, ⟨5, 9⟩⟩ 1],
        .writeSparse ⟨⟨70, 1⟩, .none, .ofList [], ⟨1, 1⟩⟩ [1, 0, 7] [.setTaskError 9000 1, .clear],
        .endFrame 0.5, .postProcess] = some l ∧
      (l.channel? .color).map ChannelData.size = some 6 ∧ (l.channel? .depth).map ChannelData.size = none := by
  have hd : validate ⟨⟨3, 2⟩, .rgba8, .ofList [.color, .accum, .variance], ⟨1, 1⟩⟩ = .ok () := rfl
  intro d
  obtain ⟨b, hb, -, hops, hchannels⟩ := (every_use_succeeds hd).1 _
  simp only [FrameBuffer.map?, Option.map_map] at hchannels
  refine ⟨hd, b, _, hb, hops, ?_, ?_⟩
  · rw [(hchannels .color).1]
    exact (hchannels .color).2
  · rw [(hchannels .depth).1]
    exact (hchannels .depth).2

end AdaptiveFrame
