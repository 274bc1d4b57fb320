import AdaptiveFrame.Grid.Region
import AdaptiveFrame.Number.Vec

/-!
# Random numbers for samples

A generator of 64-bit words: three shifted exclusive ors step the state, and a multiplication scrambles
it into the output. Every sample of every pixel starts a generator of its own, so it comes out the
same whoever renders it and when.
-/

namespace AdaptiveFrame

/-- A generator, which is nothing but its state. -/
structure Random where
  state : UInt64
  deriving DecidableEq, Repr

namespace Random

def ofSeed (seed : UInt64) : Random := ⟨seed + 0x9E3779B97F4A7C15⟩

/-- The next state. Zero is its own successor. -/
def step (g : Random) : Random :=
  let s := g.state
  let s := s ^^^ (s >>> 12)
  let s := s ^^^ (s <<< 25)
  ⟨s ^^^ (s >>> 27)⟩

/-- The word that the state shows. -/
def output (g : Random) : UInt64 := g.state * 0x2545F4914F6CDD1D

/-- A multiple of `2^-24` in the half-open unit interval. -/
def next (g : Random) : Float32 × Random :=
  let g := g.step
  (.ofNat (g.output >>> 40).toNat / 16777216, g)

def nextPair (g : Random) : Vec2 × Random :=
  let (x, g) := g.next
  let (y, g) := g.next
  (⟨x, y⟩, g)

/-- Packs a pixel and a sample index into one word. -/
def sampleKey (pixel : Point) (sample : Nat) : UInt64 :=
  (pixel.y.toUInt64 <<< 48) ^^^ (pixel.x.toUInt64 <<< 24) ^^^ sample.toUInt64

/-- The generator of one sample. Two steps are left out, so that close seeds have drifted apart. -/
def forSample (pixel : Point) (sample : Nat) : Random :=
  (ofSeed (sampleKey pixel sample * 0xD1B54A32D192ED03)).step.step

end Random

end AdaptiveFrame
