import AdaptiveFrame.Filter.Pipeline
import AdaptiveFrame.Number.Numeral
import AdaptiveFrame.Render.Task

/-!
# Command line options

Arguments are read from left to right into settings: a flag followed by its value, which is the next
argument whatever it looks like, or the one flag that stands alone. The first argument at fault gives
the error. Settings are then applied to the defaults in order, so the last one of a kind counts; the
first operation that is asked for replaces the default list, and later ones are added.
-/

namespace AdaptiveFrame.Cli

/-- Flags that take a value. -/
inductive Flag where
  | size | frames | threshold | samples | devices | taskSize | format | op | output
  deriving DecidableEq, Repr

def Flag.name : Flag → String
  | size => "--size" | frames => "--frames" | threshold => "--threshold" | samples => "--spp"
  | devices => "--devices" | taskSize => "--task-size" | format => "--format" | op => "--op" | output => "--output"

/-- Looks a flag up; the output has a short name as well. -/
def Flag.ofName? : String → Option Flag
  | "--size" => some size
  | "--frames" => some frames
  | "--threshold" => some threshold
  | "--spp" => some samples
  | "--devices" => some devices
  | "--task-size" => some taskSize
  | "--format" => some format
  | "--op" => some op
  | "--output" | "-o" => some output
  | _ => none

/-- Why arguments cannot be read. -/
inductive ArgError where
  | missingValue (arg : String)
  /-- A value that is no number of the kind that the flag wants. -/
  | invalidValue (value : String) (flag : Flag)
  /-- A size without a separator. -/
  | invalidSize (value : String)
  | unknownFormat (value : String)
  | unknownArgument (arg : String)
  deriving DecidableEq, Repr

def ArgError.message : ArgError → String
  | missingValue arg => "missing value for " ++ arg
  | invalidValue value flag => "invalid value '" ++ value ++ "' for " ++ flag.name
  | invalidSize value => "expected WxH for --size, got '" ++ value ++ "'"
  | unknownFormat value => "unknown color format '" ++ value ++ "'"
  | unknownArgument arg => "unknown argument '" ++ arg ++ "'"

/-- What one option asks for. -/
inductive Setting where
  | size (size : Point)
  | frames (n : Nat)
  | threshold (t : Float32)
  | samples (n : Nat)
  | devices (n : Nat)
  | taskSize (n : Nat)
  | format (f : ColorFormat)
  | op (name : String)
  | noOps
  | output (path : String)

/-! ## Reading arguments -/

/-- Color formats that users can ask for. -/
def formatOfName? : String → Option ColorFormat
  | "rgba8" => some .rgba8
  | "srgba" => some .srgba
  | "rgba32f" => some .rgba32f
  | _ => none

namespace Setting

/-- Reads a number with a given reader. -/
def number {α : Type} (flag : Flag) (read? : String → Option α) (value : String) : Except ArgError α :=
  match read? value with
  | some a => .ok a
  | none => .error (.invalidValue value flag)

def word? : String → Option Nat := Numeral.nat? UInt32.size

/-- Reads the value of a flag. -/
def ofValue (value : String) : Flag → Except ArgError Setting
  | .size =>
    match ImageOp.splitAtFirst 'x' value with
    | some (w, h) => do
      let w ← number .size word? w
      let h ← number .size word? h
      return size ⟨w, h⟩
    | none => .error (.invalidSize value)
  | .frames => frames <$> number .frames word? value
  | .threshold => threshold <$> number .threshold Numeral.binary32? value
  | .samples => samples <$> number .samples word? value
  | .devices => devices <$> number .devices (Numeral.nat? UInt64.size) value
  | .taskSize => taskSize <$> number .taskSize word? value
  | .format =>
    match formatOfName? value with
    | some f => .ok (format f)
    | none => .error (.unknownFormat value)
  | .op => .ok (op value)
  | .output => .ok (output value)

/-- Reads all arguments. -/
def readAll : List String → Except ArgError (List Setting)
  | [] => .ok []
  | [arg] =>
    if arg = "--no-ops" then .ok [noOps]
    else if (Flag.ofName? arg).isSome then .error (.missingValue arg)
    else .error (.unknownArgument arg)
  | arg :: value :: rest =>
    if arg = "--no-ops" then do
      let settings ← readAll (value :: rest)
      return noOps :: settings
    else
      match Flag.ofName? arg with
      | some flag => do
        let setting ← ofValue value flag
        let settings ← readAll rest
        return setting :: settings
      | none => .error (.unknownArgument arg)

end Setting

/-! ## Options -/

/-- Everything a run is told. -/
structure Options where
  size : Point := ⟨640, 360⟩
  format : ColorFormat := .srgba
  channels : ChannelSet := .ofList [.color, .accum, .variance, .depth, .normal, .albedo]
  taskSize : Point := defaultTaskSize
  output : String := "output.png"
  /-- Number of devices that share the image, zero to render into it directly. -/
  devices : Nat := 0
  /-- Names of the image operations that were asked for, if any were. -/
  ops : Option (List String) := none
  sampling : SamplingConfig := {}
  /-- The most frames that are rendered. -/
  maxFrames : Nat := 256

namespace Options

/-- Names of the image operations to run. -/
def imageOps (o : Options) : List String := o.ops.getD ["tonemapper"]

def apply (o : Options) : Setting → Options
  | .size s => { o with size := s }
  | .frames n => { o with maxFrames := n }
  | .threshold t => { o with sampling := { o.sampling with threshold := t } }
  | .samples n => { o with sampling := { o.sampling with samplesPerPixel := n } }
  | .devices n => { o with devices := n }
  | .taskSize n => { o with taskSize := .square n }
  | .format f => { o with format := f }
  | .op name => { o with ops := some (o.ops.getD [] ++ [name]) }
  | .noOps => { o with ops := some [] }
  | .output path => { o with output := path }

/-- Reads the options of a command line. -/
def ofArgs (args : List String) : Except ArgError Options := do
  let settings ← Setting.readAll args
  return settings.foldl apply {}

/-- The buffer to render into. -/
def desc (o : Options) : BufferDesc := ⟨o.size, o.format, o.channels, o.taskSize⟩

/-- The image operations, up to the first unknown name. -/
def resolveOps (o : Options) : Except FrameError (List ImageOp) := o.imageOps.mapM ImageOp.ofName

def validate (o : Options) : Except FrameError Unit := do
  o.desc.validate
  if o.sampling.samplesPerPixel = 0 then .error .noSamplesPerPixel

end Options

end AdaptiveFrame.Cli
