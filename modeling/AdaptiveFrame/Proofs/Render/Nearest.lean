import AdaptiveFrame.Render.Scene
import AdaptiveFrame.Proofs.Number.Moving
import AdaptiveFrame.Proofs.Number.Successor

/-!
# The surface that is hit

Every sphere is looked at up to the nearest distance found so far. As its second root is not below its first
(`roots_cases`), nothing is found that way that an unbounded look would not have found (`hit?_eq_some_iff`): a sphere
is passed over if its first root is too far, and is not hit at its far side instead.

What has been found among the first spheres of the list is therefore the least of their first roots, of the first
sphere that has it (`FoundAmong`). Each sphere keeps this (`FoundAmong.step`), and so does the list of them.
-/

namespace AdaptiveFrame

open Binary32

variable {r : Ray} {t u bound : Float32}

/-! ## Distances -/

/-- A distance at which a surface is seen: beyond the one the ray starts on, and finite. -/
def InView (t : Float32) : Prop := rayEpsilon < t ∧ t < posInf

/-- How far a search for something nearer goes: to a distance at which a surface is seen, or without end. -/
def Bounds (bound : Float32) : Prop := InView bound ∨ bound = posInf

theorem Bounds.not_isNaN (h : Bounds bound) : ¬ bound.isNaN = true := by
  rcases h with h | rfl
  · exact not_isNaN_of_lt h.1
  · decide

theorem Bounds.lt_posInf (h : Bounds bound) (ht : t < bound) : t < posInf := by
  rcases h with h | rfl
  · exact lt_trans ht h.2
  · exact ht

/-- A distance in view that is not nearer than a bound is at least the bound. -/
theorem Bounds.le (h : Bounds bound) (ht : InView t) (hnot : ¬ t < bound) : bound ≤ t := by
  by_contra hle
  exact hnot (lt_of_not_le h.not_isNaN (not_isNaN_of_lt ht.1) hle)

theorem InView.nonneg (h : InView t) : 0 ≤ t := le_of_lt (lt_trans (by decide) h.1)

theorem InView.le_self (h : InView t) : t ≤ t := Bounds.le (.inl h) h fun hlt => not_lt_of_lt hlt hlt

/-- Distances in view are ordered by antisymmetry: of the two zeros neither is among them. -/
theorem InView.eq_of_le (ht : InView t) (hu : InView u) (h : t ≤ u) (h' : u ≤ t) : t = u := by
  have hpos : 0 < t := lt_trans (by decide) ht.1
  have hle := (lt_iff_magnitude ht.nonneg hu.nonneg).not.1 (not_lt_of_le h')
  have hge := (lt_iff_magnitude hu.nonneg ht.nonneg).not.1 (not_lt_of_le h)
  exact eq_of_magnitude ht.nonneg hu.nonneg ((pos_iff_magnitude ht.nonneg).1 hpos) (by omega)

/-! ## One sphere -/

namespace Sphere

variable {s : Sphere}

/-- The first distance at which the sphere is seen: its near side, or its far side if the near one is out of view. The
ray meets both where t² + 2bt + c is zero, with c the square of the distance to the center less that of the radius. -/
def FirstRoot (s : Sphere) (r : Ray) (t : Float32) : Prop :=
  let toOrigin := r.origin - s.center
  let b := toOrigin.dot r.direction
  let c := toOrigin.dot toOrigin - s.radius * s.radius
  let disc := b * b - c
  ¬ disc < 0 ∧ InView t ∧ (t = -b - disc.sqrt ∨ t = -b + disc.sqrt ∧ ¬ InView (-b - disc.sqrt))

theorem FirstRoot.inView (h : s.FirstRoot r t) : InView t := h.2.1

/-- The sphere has no roots, or two of them, of which the second is not below the first. -/
theorem roots_cases (s : Sphere) (r : Ray) :
    s.roots r = [] ∧ (∀ t, ¬ s.FirstRoot r t) ∨
    ∃ x y, s.roots r = [x, y] ∧ ¬ y < x ∧ ∀ t, s.FirstRoot r t ↔ InView t ∧ (t = x ∨ t = y ∧ ¬ InView x) := by
  unfold roots FirstRoot Vec3.lengthSq
  dsimp only
  split
  · rename_i hdisc
    exact .inl ⟨rfl, fun t h => h.1 hdisc⟩
  · rename_i hdisc
    exact .inr ⟨_, _, rfl, not_add_lt_sub (sqrt_nonneg _), fun t => and_iff_right hdisc⟩

/-- The first of two roots is taken if it is in range, else the second. -/
theorem hit?_of_roots {x y : Float32} (h : s.roots r = [x, y]) : s.hit? r bound = some t ↔
    (rayEpsilon < x ∧ x < bound) ∧ x = t ∨
      ¬ (rayEpsilon < x ∧ x < bound) ∧ (rayEpsilon < y ∧ y < bound) ∧ y = t := by
  unfold hit?
  rw [h, List.find?_cons, List.find?_cons, List.find?_nil, ← Bool.decide_and, ← Bool.decide_and]
  by_cases hx : rayEpsilon < x ∧ x < bound
  · simp [hx]
  · rw [decide_eq_false hx]
    by_cases hy : rayEpsilon < y ∧ y < bound
    · simp [hx, hy]
    · rw [decide_eq_false hy]
      simp [hx, hy]

theorem firstRoot_iff : s.FirstRoot r t ↔ s.hit? r posInf = some t := by
  obtain ⟨hnone, hroot⟩ | ⟨x, y, hroots, -, hroot⟩ := s.roots_cases r
  · simp [hit?, hnone, hroot]
  · rw [hroot, hit?_of_roots hroots]
    constructor
    · rintro ⟨hview, rfl | ⟨rfl, hnear⟩⟩
      · exact .inl ⟨hview, rfl⟩
      · exact .inr ⟨hnear, hview, rfl⟩
    · rintro (⟨hview, rfl⟩ | ⟨hnear, hview, rfl⟩)
      · exact ⟨hview, .inl rfl⟩
      · exact ⟨hview, .inr ⟨rfl, hnear⟩⟩

theorem FirstRoot.unique (h : s.FirstRoot r t) (h' : s.FirstRoot r u) : t = u :=
  Option.some.inj ((firstRoot_iff.1 h).symm.trans (firstRoot_iff.1 h'))

/-- A bounded look at the sphere finds its first root, if that is nearer than the bound. -/
theorem hit?_eq_some_iff (hb : Bounds bound) : s.hit? r bound = some t ↔ s.FirstRoot r t ∧ t < bound := by
  rw [firstRoot_iff]
  obtain ⟨hnone, -⟩ | ⟨x, y, hroots, hle, -⟩ := s.roots_cases r
  · simp [hit?, hnone]
  · rw [hit?_of_roots hroots, hit?_of_roots hroots]
    have hin : ∀ v, v < bound → v < posInf := fun v => hb.lt_posInf
    have hfar : rayEpsilon < x ∧ x < posInf → ¬ x < bound → ¬ y < bound :=
      fun hx hnot hy => hle (lt_of_lt_of_le hy (hb.le hx hnot))
    constructor
    · rintro (⟨⟨heps, hlt⟩, rfl⟩ | ⟨hnot, ⟨heps, hlt⟩, rfl⟩)
      · exact ⟨.inl ⟨⟨heps, hin _ hlt⟩, rfl⟩, hlt⟩
      · exact ⟨.inr ⟨fun hx => hfar hx (fun h => hnot ⟨hx.1, h⟩) hlt, ⟨heps, hin _ hlt⟩, rfl⟩, hlt⟩
    · rintro ⟨⟨⟨heps, -⟩, rfl⟩ | ⟨hnot, ⟨heps, -⟩, rfl⟩, hlt⟩
      · exact .inl ⟨⟨heps, hlt⟩, rfl⟩
      · exact .inr ⟨fun hx => hnot ⟨hx.1, hin _ hx.2⟩, ⟨heps, hlt⟩, rfl⟩

/-- The hit on a sphere at a distance. -/
def surface (s : Sphere) (r : Ray) (id : Nat) (t : Float32) : SurfaceHit :=
  ⟨t, (r.at t - s.center).divBy s.radius, s.albedo, .ofNat id⟩

end Sphere

/-! ## Spheres in a row -/

namespace SphereScene

variable {spheres : List Sphere} {best : Option SurfaceHit} {hit : SurfaceHit}

/-- How far the next sphere is looked at. -/
def reach (best : Option SurfaceHit) : Float32 := (best.map SurfaceHit.distance).getD posInf

/-- The hit on the first of the spheres whose first root is the least of all. -/
def FirstNearest (r : Ray) (spheres : List Sphere) (hit : SurfaceHit) : Prop :=
  ∃ before sphere after, spheres = before ++ sphere :: after ∧
    hit = sphere.surface r before.length hit.distance ∧ sphere.FirstRoot r hit.distance ∧
    (∀ other ∈ before, ∀ t, other.FirstRoot r t → hit.distance < t) ∧
    ∀ other ∈ after, ∀ t, other.FirstRoot r t → hit.distance ≤ t

theorem FirstNearest.inView (h : FirstNearest r spheres hit) : InView hit.distance := by
  obtain ⟨-, nearest, -, -, -, hroot, -⟩ := h
  exact hroot.inView

theorem FirstNearest.le (h : FirstNearest r spheres hit) :
    ∀ sphere ∈ spheres, ∀ t, sphere.FirstRoot r t → hit.distance ≤ t := by
  obtain ⟨before, nearest, after, rfl, -, hroot, hbefore, hafter⟩ := h
  intro sphere hmem t ht
  rcases List.mem_append.1 hmem with hmem | hmem
  · exact le_of_lt (hbefore sphere hmem t ht)
  · rcases List.mem_cons.1 hmem with rfl | hmem
    · obtain rfl := hroot.unique ht
      exact hroot.inView.le_self
    · exact hafter sphere hmem t ht

/-- What the first spheres of a list leave behind: nothing if none of them has a root in view. -/
def FoundAmong (r : Ray) (spheres : List Sphere) : Option SurfaceHit → Prop
  | none => ∀ sphere ∈ spheres, ∀ t, ¬ sphere.FirstRoot r t
  | some hit => FirstNearest r spheres hit

theorem FoundAmong.bounds (h : FoundAmong r spheres best) : Bounds (reach best) := by
  cases best with
  | none => exact .inr rfl
  | some hit => exact .inl h.inView

theorem nearestSphere_cons (r : Ray) (id : Nat) (s : Sphere) (ss : List Sphere) (best : Option SurfaceHit) :
    nearestSphere r id (s :: ss) best =
      nearestSphere r (id + 1) ss (((s.hit? r (reach best)).map (s.surface r id)).or best) := by
  unfold reach
  rw [nearestSphere]
  cases s.hit? r ((best.map SurfaceHit.distance).getD posInf) <;> rfl

/-- One more sphere is looked at. -/
theorem FoundAmong.step (h : FoundAmong r spheres best) (s : Sphere) : FoundAmong r (spheres ++ [s])
    (((s.hit? r (reach best)).map (s.surface r spheres.length)).or best) := by
  cases hs : s.hit? r (reach best) with
  | some t =>
    obtain ⟨hroot, hlt⟩ := (Sphere.hit?_eq_some_iff h.bounds).1 hs
    refine ⟨spheres, s, [], rfl, rfl, hroot, fun other hmem u hu => ?_, by simp⟩
    cases best with
    | none => exact absurd hu (h other hmem u)
    | some hit => exact lt_of_lt_of_le hlt (h.le other hmem u hu)
  | none =>
    have hfar : ∀ t, s.FirstRoot r t → ¬ t < reach best := by
      intro t hroot hlt
      rw [(Sphere.hit?_eq_some_iff h.bounds).2 ⟨hroot, hlt⟩] at hs
      cases hs
    cases best with
    | none =>
      intro sphere hmem t hroot
      rcases List.mem_append.1 hmem with hmem | hmem
      · exact h sphere hmem t hroot
      · obtain rfl := List.mem_singleton.1 hmem
        exact hfar t hroot hroot.inView.2
    | some hit =>
      obtain ⟨before, nearest, after, rfl, hhit, hroot, hbefore, hafter⟩ := h
      refine ⟨before, nearest, after ++ [s], by simp, hhit, hroot, hbefore, fun other hmem t ht => ?_⟩
      rcases List.mem_append.1 hmem with hmem | hmem
      · exact hafter other hmem t ht
      · obtain rfl := List.mem_singleton.1 hmem
        exact Bounds.le (.inl hroot.inView) ht.inView (hfar t ht)

/-- All spheres of a list are looked at, one after the other. -/
theorem FoundAmong.run (h : FoundAmong r spheres best) (ss : List Sphere) :
    FoundAmong r (spheres ++ ss) (nearestSphere r spheres.length ss best) := by
  induction ss generalizing spheres best with
  | nil =>
    rw [List.append_nil]
    exact h
  | cons s ss ih =>
    have hnext := ih (h.step s)
    rw [List.length_append, List.length_singleton, List.append_assoc] at hnext
    rw [nearestSphere_cons]
    exact hnext

theorem foundAmong_all (r : Ray) (spheres : List Sphere) : FoundAmong r spheres (nearestSphere r 0 spheres none) := by
  have hnone : FoundAmong r [] none := fun _ hmem => absurd hmem List.not_mem_nil
  exact hnone.run spheres

/-! ## The scene -/

variable {s : SphereScene}

/-- The distance at which a falling ray reaches the ground, if it is in view. -/
def GroundRoot (r : Ray) (t : Float32) : Prop :=
  r.direction.y < 0 ∧ t = -r.origin.y / r.direction.y ∧ InView t

/-- The hit on the ground at a distance. -/
def ground (s : SphereScene) (t : Float32) : SurfaceHit := ⟨t, .unitY, s.groundAlbedo, s.groundId⟩

/-- The ground takes over from the spheres if it is strictly nearer than what was found among them. -/
theorem hit?_cases (s : SphereScene) (r : Ray) : ∃ best, FoundAmong r s.spheres best ∧
    ((∃ t, GroundRoot r t ∧ t < reach best ∧ s.hit? r = some (s.ground t)) ∨
      (∀ t, GroundRoot r t → ¬ t < reach best) ∧ s.hit? r = best) := by
  obtain ⟨best, hbest⟩ : ∃ best, nearestSphere r 0 s.spheres none = best := ⟨_, rfl⟩
  have hfound := foundAmong_all r s.spheres
  rw [hbest] at hfound
  refine ⟨best, hfound, ?_⟩
  unfold hit? groundDistance?
  rw [hbest]
  by_cases hfall : r.direction.y < 0
  · rw [if_pos hfall]
    by_cases hnear : rayEpsilon < -r.origin.y / r.direction.y ∧ -r.origin.y / r.direction.y < reach best
    · have hview : InView (-r.origin.y / r.direction.y) := ⟨hnear.1, hfound.bounds.lt_posInf hnear.2⟩
      exact .inl ⟨_, ⟨hfall, rfl, hview⟩, hnear.2, if_pos (by simpa [reach] using hnear)⟩
    · refine .inr ⟨?_, if_neg (by simpa [reach] using hnear)⟩
      rintro t ⟨-, rfl, hview⟩ hlt
      exact hnear ⟨hview.1, hlt⟩
  · rw [if_neg hfall]
    exact .inr ⟨fun t ht => absurd ht.1 hfall, rfl⟩

/-- The hit is the nearest one on the spheres, of the first sphere that has it, or the ground's if that is strictly
nearer than all of theirs. -/
def Nearest (s : SphereScene) (r : Ray) (hit : SurfaceHit) : Prop :=
  FirstNearest r s.spheres hit ∧ (∀ t, GroundRoot r t → hit.distance ≤ t) ∨
  hit = s.ground hit.distance ∧ GroundRoot r hit.distance ∧
    ∀ sphere ∈ s.spheres, ∀ t, sphere.FirstRoot r t → hit.distance < t

/-- A distance at which something of the scene is seen. -/
def SeenAt (s : SphereScene) (r : Ray) (t : Float32) : Prop :=
  (∃ sphere ∈ s.spheres, sphere.FirstRoot r t) ∨ GroundRoot r t

theorem SeenAt.inView (h : s.SeenAt r t) : InView t := by
  rcases h with ⟨sphere, -, hroot⟩ | ⟨-, -, hview⟩
  · exact hroot.inView
  · exact hview

theorem SeenAt.of_perm {other : SphereScene} (hperm : other.spheres.Perm s.spheres) (h : s.SeenAt r t) :
    other.SeenAt r t :=
  h.imp_left fun ⟨sphere, hmem, hroot⟩ => ⟨sphere, hperm.mem_iff.2 hmem, hroot⟩

theorem nearest_of_hit (h : s.hit? r = some hit) : s.Nearest r hit := by
  obtain ⟨best, hfound, ⟨t, hground, hlt, hhit⟩ | ⟨hfar, hhit⟩⟩ := s.hit?_cases r
  · obtain rfl := Option.some.inj (h.symm.trans hhit)
    refine .inr ⟨rfl, hground, fun sphere hmem u hu => ?_⟩
    cases best with
    | none => exact absurd hu (hfound sphere hmem u)
    | some nearest => exact lt_of_lt_of_le hlt (hfound.le sphere hmem u hu)
  · obtain rfl := hhit.symm.trans h
    exact .inl ⟨hfound, fun t ht => Bounds.le hfound.bounds ht.2.2 (hfar t ht)⟩

theorem Nearest.seenAt (h : s.Nearest r hit) : s.SeenAt r hit.distance := by
  obtain ⟨⟨before, sphere, after, hspheres, -, hroot, -⟩, -⟩ | ⟨-, hground, -⟩ := h
  · exact .inl ⟨sphere, by rw [hspheres]; simp, hroot⟩
  · exact .inr hground

theorem Nearest.le (h : s.Nearest r hit) (ht : s.SeenAt r t) : hit.distance ≤ t := by
  obtain ⟨hnearest, hfar⟩ | ⟨-, hground, hbefore⟩ := h
  · rcases ht with ⟨sphere, hmem, hroot⟩ | ht
    · exact hnearest.le sphere hmem t hroot
    · exact hfar t ht
  · rcases ht with ⟨sphere, hmem, hroot⟩ | ht
    · exact le_of_lt (hbefore sphere hmem t hroot)
    · rw [hground.2.1, ht.2.1.symm]
      exact ht.2.2.le_self

theorem not_seenAt_of_hit (h : s.hit? r = none) : ¬ s.SeenAt r t := by
  obtain ⟨best, hfound, ⟨t, -, -, hhit⟩ | ⟨hfar, hhit⟩⟩ := s.hit?_cases r
  · rw [hhit] at h
    cases h
  · obtain rfl := hhit.symm.trans h
    rintro (⟨sphere, hmem, hroot⟩ | hground)
    · exact hfound sphere hmem t hroot
    · exact hfar t hground hground.2.2.2

/-- The distance of the hit is settled by the distances at which something is seen. -/
theorem distance_eq {other : SphereScene} (hseen : ∀ t, other.SeenAt r t ↔ s.SeenAt r t) :
    (other.hit? r).map SurfaceHit.distance = (s.hit? r).map SurfaceHit.distance := by
  cases hs : s.hit? r with
  | none =>
    cases ho : other.hit? r with
    | none => rfl
    | some hit => exact absurd ((hseen _).1 (nearest_of_hit ho).seenAt) (not_seenAt_of_hit hs)
  | some hit =>
    have hnear := nearest_of_hit hs
    cases ho : other.hit? r with
    | none => exact absurd ((hseen _).2 hnear.seenAt) (not_seenAt_of_hit ho)
    | some hit' =>
      have hnear' := nearest_of_hit ho
      have heq : hit'.distance = hit.distance := InView.eq_of_le hnear'.seenAt.inView hnear.seenAt.inView
        (hnear'.le ((hseen _).2 hnear.seenAt)) (hnear.le ((hseen _).1 hnear'.seenAt))
      rw [Option.map_some, Option.map_some, heq]

/-- A ray hits nothing exactly if no sphere has a root in view and the ground is not reached at one. Otherwise it hits
the nearest of them all, the first of the spheres that has it, and the ground only if nothing else is as near. The
distance does not depend on the order of the spheres. -/
theorem hit_nearest (s : SphereScene) (r : Ray) :
    (s.hit? r = none ↔ (∀ sphere ∈ s.spheres, ∀ t, ¬ sphere.FirstRoot r t) ∧ ∀ t, ¬ GroundRoot r t) ∧
    (∀ hit, s.hit? r = some hit → s.Nearest r hit) ∧
    ∀ other : SphereScene, other.spheres.Perm s.spheres →
      (other.hit? r).map SurfaceHit.distance = (s.hit? r).map SurfaceHit.distance := by
  refine ⟨⟨fun h => ?_, fun ⟨hspheres, hground⟩ => ?_⟩, fun hit => nearest_of_hit, fun other hperm => ?_⟩
  · exact ⟨fun sphere hmem t hroot => not_seenAt_of_hit h (.inl ⟨sphere, hmem, hroot⟩),
      fun t ht => not_seenAt_of_hit h (.inr ht)⟩
  · by_contra hsome
    obtain ⟨hit, hhit⟩ := Option.ne_none_iff_exists'.1 hsome
    rcases (nearest_of_hit hhit).seenAt with ⟨sphere, hmem, hroot⟩ | hreached
    · exact hspheres sphere hmem _ hroot
    · exact hground _ hreached
  · exact distance_eq fun t => ⟨.of_perm hperm.symm, .of_perm hperm⟩

/-- From within two spheres at one place, a ray hits the far side of the first, before a third sphere. In reverse they
are hit as far away. -/
theorem hit_nearest_within :
    let scene : SphereScene := { spheres := [⟨.zero, 1, .one⟩, ⟨.zero, 1, .zero⟩, ⟨⟨0, 0, 5⟩, 1, .zero⟩] }
    let reversed : SphereScene := { scene with spheres := scene.spheres.reverse }
    let r : Ray := ⟨.zero, ⟨0, 0, 1⟩⟩
    ∃ hit, scene.hit? r = some hit ∧ scene.Nearest r hit ∧ (hit.distance.toBits, hit.objectId) = (0x3f800000, 0) ∧
      (reversed.hit? r).map SurfaceHit.distance = some hit.distance := by
  intro scene reversed r
  have hfound : (scene.hit? r).map (fun hit => (hit.distance.toBits, hit.objectId)) = some (0x3f800000, 0) := by
    decide +kernel
  obtain ⟨hit, hhit, hvalue⟩ := Option.map_eq_some_iff.1 hfound
  obtain ⟨-, hnearest, hperm⟩ := hit_nearest scene r
  refine ⟨hit, hhit, hnearest hit hhit, hvalue, ?_⟩
  rw [hperm reversed (List.reverse_perm _), hhit]
  rfl

end SphereScene

end AdaptiveFrame
