import AdaptiveFrame.Filter.LooseFrame
import AdaptiveFrame.Main
import AdaptiveFrame.Render.Background
import AdaptiveFrame.Proofs.Grid.Points
import AdaptiveFrame.Proofs.Grid.RasterCells
import AdaptiveFrame.Proofs.Accum.Boxes
import AdaptiveFrame.Proofs.Buffer.Tasks
import AdaptiveFrame.Proofs.Accum.Receive
import AdaptiveFrame.Proofs.Buffer.Intact
import AdaptiveFrame.Proofs.Buffer.DenseFold
import AdaptiveFrame.Proofs.Accum.Means
import AdaptiveFrame.Proofs.Render.DenseFrame
import AdaptiveFrame.Proofs.Render.Requests
import AdaptiveFrame.Proofs.Render.Accumulation
import AdaptiveFrame.Proofs.Number.Order
import AdaptiveFrame.Proofs.Accum.Raising
import AdaptiveFrame.Proofs.Render.Convergence
import AdaptiveFrame.Proofs.Buffer.SparseFold
import AdaptiveFrame.Proofs.Accum.Visible
import AdaptiveFrame.Proofs.Buffer.Composing
import AdaptiveFrame.Proofs.Render.DeviceFrame
import AdaptiveFrame.Proofs.Render.Alike
import AdaptiveFrame.Proofs.Render.Mirroring
import AdaptiveFrame.Proofs.Render.DeviceRuns
import AdaptiveFrame.Proofs.Render.Dealing
import AdaptiveFrame.Proofs.Buffer.Owning
import AdaptiveFrame.Proofs.Buffer.Words
import AdaptiveFrame.Proofs.Buffer.AnyOrder
import AdaptiveFrame.Proofs.Buffer.TakingOver
import AdaptiveFrame.Proofs.Render.ComposedTiles
import AdaptiveFrame.Proofs.Number.Sums
import AdaptiveFrame.Proofs.Accum.FrameError
import AdaptiveFrame.Proofs.Render.RawErrors
import AdaptiveFrame.Proofs.Accum.Paired
import AdaptiveFrame.Filter.Worker
import AdaptiveFrame.Proofs.Filter.Working
import AdaptiveFrame.Proofs.Filter.Collecting
import AdaptiveFrame.Proofs.Filter.Accepting
import AdaptiveFrame.Proofs.Render.PairedFrames
import AdaptiveFrame.Proofs.Render.PairedParts
import AdaptiveFrame.Proofs.Render.ImageOps
import AdaptiveFrame.Proofs.Render.Clearing
import AdaptiveFrame.Proofs.Render.ChoosingAnew
import AdaptiveFrame.Proofs.Render.Encoding
import AdaptiveFrame.Proofs.Render.Handover
import AdaptiveFrame.Proofs.Render.Lockstep
import AdaptiveFrame.Proofs.Render.Stopping
import AdaptiveFrame.Proofs.Render.Overhearing
import AdaptiveFrame.Proofs.Layout.Uses
import AdaptiveFrame.Proofs.Grid.ZOrder
import AdaptiveFrame.Proofs.Number.Successor
import AdaptiveFrame.Proofs.Buffer.CellLookup
import AdaptiveFrame.Proofs.Buffer.Choosing
import AdaptiveFrame.Proofs.Render.EmptyTasks
import AdaptiveFrame.Proofs.Render.Attaching
import AdaptiveFrame.Proofs.Render.Committing
import AdaptiveFrame.Proofs.Buffer.CurveOrder
import AdaptiveFrame.Proofs.Accum.Numbers
import AdaptiveFrame.Proofs.Accum.ExactMeans
import AdaptiveFrame.Proofs.Accum.ExactDepths
import AdaptiveFrame.Proofs.Number.Quotients
import AdaptiveFrame.Proofs.Grid.Counting
import AdaptiveFrame.Proofs.Render.Progress
import AdaptiveFrame.Proofs.Render.Seeding
import AdaptiveFrame.Proofs.Number.Moving
import AdaptiveFrame.Proofs.Number.Rounding
import AdaptiveFrame.Proofs.Number.Numerals
import AdaptiveFrame.Proofs.Render.Nearest
import AdaptiveFrame.Proofs.Cli.Reading
import AdaptiveFrame.Proofs.Layout.Windows
import AdaptiveFrame.Proofs.Layout.Tiles
