import AdaptiveFrame.Cli.Run

/-!
# Command line program

Renders the scene as the arguments say and writes a PNG file. Errors go to the error stream; the exit
code tells a wrong command line from a run that failed.
-/

namespace AdaptiveFrame.Cli

/-- Prints a line, with the time since the start where it is open. -/
def printLine (start : Nat) (line : Line) : IO Unit := do
  let elapsed := ((← IO.monoMsNow) - start).toFloat / 1000
  match line with
  | .text s => IO.println s
  | .progress s samples =>
    let rate := samples.toFloat / elapsed / 1000000
    IO.println (s ++ ", " ++ Digits.fixed 2 rate.toFloat32 ++ " Msamples/sec")
  | .renderTime => IO.println ("  Render time:  " ++ Digits.fixed 3 elapsed.toFloat32 ++ "s")

/-- Runs a command line and gives the exit code. -/
def execute (args : List String) : IO UInt32 := do
  match Options.ofArgs args with
  | .error e =>
    IO.eprintln e.message
    IO.eprintln usage
    return 2
  | .ok o =>
    let start ← IO.monoMsNow
    match ← Run.perform (printLine start) o with
    | .ok image =>
      try
        IO.FS.writeBinFile o.output ⟨(Png.encode image).toArray⟩
        return 0
      catch e =>
        IO.eprintln (FrameError.exportFailed (toString e)).message
        return 1
    | .error e =>
      IO.eprintln e.message
      return 1

end AdaptiveFrame.Cli

def main (args : List String) : IO UInt32 := AdaptiveFrame.Cli.execute args
