import AdaptiveFrame.Render.Random
import AdaptiveFrame.Render.Sampling
import AdaptiveFrame.Render.Task

/-!
# Spheres on a plane

A small scene to render: spheres on a ground plane, lit by a sun with soft shadows and by the sky. One
ray towards the sun and one towards the sky make every sample noisy, so there is something to
converge.
-/

namespace AdaptiveFrame

/-- A sphere of one color. -/
structure Sphere where
  center : Vec3
  radius : Float32
  albedo : Vec3
  deriving Repr

/-- Hits nearer than this are taken for the surface that the ray starts on. -/
def rayEpsilon : Float32 := 1e-3

/-- Distances at which a ray enters and leaves the sphere, as roots of a quadratic equation. -/
def Sphere.roots (s : Sphere) (r : Ray) : List Float32 :=
  let oc := r.origin - s.center
  let b := oc.dot r.direction
  let disc := b * b - (oc.lengthSq - s.radius * s.radius)
  if disc < 0 then [] else [-b - disc.sqrt, -b + disc.sqrt]

/-- The first root between the epsilon and a bound. -/
def Sphere.hit? (s : Sphere) (r : Ray) (bound : Float32) : Option Float32 :=
  (s.roots r).find? fun t => rayEpsilon < t && t < bound

/-- Where a ray meets a surface first. -/
structure SurfaceHit where
  distance : Float32
  normal : Vec3
  albedo : Vec3
  objectId : UInt32
  deriving Repr

/-- Spheres, ground, sun and sky. -/
structure SphereScene where
  spheres : List Sphere :=
    [⟨⟨-1.1, 0.5, 0⟩, 0.5, ⟨0.8, 0.3, 0.2⟩⟩, ⟨⟨0, 0.7, -0.4⟩, 0.7, ⟨0.3, 0.7, 0.3⟩⟩,
     ⟨⟨1.1, 0.4, 0.3⟩, 0.4, ⟨0.2, 0.4, 0.9⟩⟩]
  groundAlbedo : Vec3 := .splat 0.6
  sunDirection : Vec3 := Vec3.normalize ⟨0.5, 1, 0.4⟩
  sunColor : Vec3 := .splat 2.5
  /-- How far the sun is spread out, at unit distance. -/
  sunRadius : Float32 := 0.15
  skyColor : Vec3 := ⟨0.5, 0.6, 0.8⟩

namespace SphereScene

/-- Spheres are identified by their position in the list, the ground by its length. -/
def groundId (s : SphereScene) : UInt32 := .ofNat s.spheres.length

/-! ## Hits -/

/-- The nearest hit among spheres with consecutive ids, given the nearest one so far. A sphere has to be
strictly nearer to take over. -/
def nearestSphere (r : Ray) : (id : Nat) → List Sphere → Option SurfaceHit → Option SurfaceHit
  | _, [], best => best
  | id, s :: ss, best =>
    match s.hit? r ((best.map SurfaceHit.distance).getD Binary32.posInf) with
    | some t => nearestSphere r (id + 1) ss (some ⟨t, (r.at t - s.center).divBy s.radius, s.albedo, .ofNat id⟩)
    | none => nearestSphere r (id + 1) ss best

/-- Distance at which a falling ray reaches the ground. -/
def groundDistance? (r : Ray) : Option Float32 :=
  if r.direction.y < 0 then some (-r.origin.y / r.direction.y) else none

/-- The nearest hit of the scene. -/
def hit? (s : SphereScene) (r : Ray) : Option SurfaceHit :=
  let best := nearestSphere r 0 s.spheres none
  match groundDistance? r with
  | some t =>
    if rayEpsilon < t && t < (best.map SurfaceHit.distance).getD Binary32.posInf then
      some ⟨t, .unitY, s.groundAlbedo, s.groundId⟩
    else best
  | none => best

/-- Whether a sphere lies on the way. -/
def occluded (s : SphereScene) (r : Ray) : Bool := s.spheres.any fun sphere => (sphere.hit? r Binary32.posInf).isSome

/-! ## Light -/

/-- Light from the sky: white at the bottom, the color of the sky at the top. -/
def sky (s : SphereScene) (direction : Vec3) : Vec3 := Vec3.one.mix s.skyColor (0.5 * (direction.y + 1))

/-- Light from a point of the sun that falls on a surface, and the generator after choosing the point. -/
def sunlight (s : SphereScene) (position normal : Vec3) (g : Random) : Vec3 × Random :=
  let (u, g) := g.nextPair
  let d := Sampling.disk u.x u.y
  let toSun := ((Basis.around s.sunDirection).toWorld ⟨d.x * s.sunRadius, d.y * s.sunRadius, 1⟩).normalize
  let slant := Binary32.maxNum (normal.dot toSun) 0
  (if 0 < slant && !s.occluded ⟨position, toSun⟩ then s.sunColor.scale slant else .zero, g)

/-- Light from a point of the sky that falls on a surface. -/
def skylight (s : SphereScene) (position normal : Vec3) (g : Random) : Vec3 :=
  let (u, _) := g.nextPair
  let direction := (Basis.around normal).toWorld (Sampling.hemisphere u.x u.y)
  if s.occluded ⟨position, direction⟩ then .zero else s.sky direction

/-- One sample of one pixel. -/
def render (s : SphereScene) : PixelRenderer := fun ctx pixel index =>
  let (jitter, g) := (Random.forSample pixel index).nextPair
  let ray := ctx.camera.pixelRay ctx.imageSize pixel jitter
  match s.hit? ray with
  | none => .ofColor ((s.sky ray.direction).extend 1)
  | some hit =>
    let position := ray.at hit.distance + hit.normal.scale rayEpsilon
    let (direct, g) := s.sunlight position hit.normal g
    let ambient := s.skylight position hit.normal g
    { color := (hit.albedo * (direct + ambient)).extend 1
      depth := hit.distance
      normal := hit.normal
      albedo := hit.albedo
      ids := ⟨0, hit.objectId, if hit.objectId = s.groundId then noId else 0⟩ }

end SphereScene

end AdaptiveFrame
