/-!
# Channels and color formats

A frame buffer keeps one value per pixel in each of the channels it was asked for. The flags of a
channel set are written in the fixed order of `Channel.all`, each with its own bit.
-/

namespace AdaptiveFrame

/-- A buffer of values, one per pixel. -/
inductive Channel where
  | color | depth | accum | variance | normal | albedo | primitiveId | objectId | instanceId
  deriving DecidableEq, Repr, Inhabited

namespace Channel

/-- All channels in the order of their bits. -/
def all : List Channel :=
  [color, depth, accum, variance, normal, albedo, primitiveId, objectId, instanceId]

/-- Position of the channel's bit. -/
def bit (c : Channel) : Nat := c.ctorIdx

/-- The channel's name in messages. -/
def name : Channel → String
  | color => "Color" | depth => "Depth" | accum => "Accum" | variance => "Variance" | normal => "Normal"
  | albedo => "Albedo" | primitiveId => "PrimitiveId" | objectId => "ObjectId" | instanceId => "InstanceId"

/-- The name of the flag that asks for the channel. -/
def flag : Channel → String
  | color => "COLOR" | depth => "DEPTH" | accum => "ACCUM" | variance => "VARIANCE" | normal => "NORMAL"
  | albedo => "ALBEDO" | primitiveId => "PRIMITIVE_ID" | objectId => "OBJECT_ID" | instanceId => "INSTANCE_ID"

end Channel

/-- A set of channels. -/
structure ChannelSet where
  has : Channel → Bool

namespace ChannelSet

def empty : ChannelSet := ⟨fun _ => false⟩

def ofList (cs : List Channel) : ChannelSet := ⟨fun c => cs.contains c⟩

/-- The members in the order of their bits. -/
def toList (s : ChannelSet) : List Channel := Channel.all.filter s.has

/-- The set as a number with one bit per member. -/
def bits (s : ChannelSet) : Nat := s.toList.foldl (fun bits c => bits ||| 1 <<< c.bit) 0

/-- The flags of the members, as they appear in messages. -/
def describe (s : ChannelSet) : String :=
  let flags := if s.toList.isEmpty then "0x0" else " | ".intercalate (s.toList.map Channel.flag)
  "ChannelFlags(" ++ flags ++ ")"

end ChannelSet

/-- How the color channel is kept for display. -/
inductive ColorFormat where
  /-- Not kept at all. -/
  | none
  /-- Eight bits per lane, linear. -/
  | rgba8
  /-- Eight bits per lane, gamma-encoded color and linear alpha. -/
  | srgba
  /-- Single precision. -/
  | rgba32f
  deriving DecidableEq, Repr, Inhabited

namespace ColorFormat

/-- The format's name in messages. -/
def name : ColorFormat → String
  | none => "None" | rgba8 => "Rgba8" | srgba => "Srgba" | rgba32f => "Rgba32f"

/-- Whether the format keeps eight bits per lane. -/
def isEncoded : ColorFormat → Bool
  | rgba8 | srgba => true
  | none | rgba32f => false

end ColorFormat

end AdaptiveFrame
