import Redraw.Config.Schema
import Redraw.Surface.Probe
import Redraw.Sketch.Script
import Redraw.Main
import Redraw.Proofs.Outline.Cells
import Redraw.Proofs.Outline.Boundary
import Redraw.Proofs.Cache.Rules
import Redraw.Proofs.Cache.Calls
import Redraw.Proofs.Cache.Run
import Redraw.Proofs.Ending
import Redraw.Proofs.Equality
import Redraw.Proofs.Surface.Recording
import Redraw.Proofs.Cache.Frame
import Redraw.Proofs.Cache.Residue
import Redraw.Proofs.Outline.Region
import Redraw.Proofs.Batch.Painting
import Redraw.Proofs.Cache.Twin
import Redraw.Proofs.Cache.Removal
import Redraw.Proofs.Cache.Plan
import Redraw.Proofs.Cache.Phase
import Redraw.Proofs.Context.Muting
import Redraw.Proofs.Context.Lasting
import Redraw.Proofs.Animation.Run
import Redraw.Proofs.Animation.Cleanup
import Redraw.Proofs.Context.Batching
import Redraw.Proofs.Context.Units
import Redraw.Proofs.Context.Order
import Redraw.Proofs.Cache.Acceptance
import Redraw.Proofs.Cache.Writes
import Redraw.Proofs.Cache.Repeat
import Redraw.Proofs.Cache.Orphans
import Redraw.Proofs.Cache.Touched
import Redraw.Proofs.Context.Steps
import Redraw.Proofs.Context.Redrawing
import Redraw.Proofs.Cache.Protocol
import Redraw.Proofs.Animation.Watched
import Redraw.Proofs.Animation.Schedule
import Redraw.Proofs.Cache.Journal
import Redraw.Proofs.Context.Echo
import Redraw.Proofs.Animation.Skipping
import Redraw.Proofs.Outline.Sides
import Redraw.Proofs.Outline.Crossing
import Redraw.Proofs.Outline.Canonical
import Redraw.Proofs.Outline.Groups
import Redraw.Proofs.Outline.Rescaling
import Redraw.Proofs.Outline.Holes
import Redraw.Proofs.Context.Frames
import Redraw.Proofs.Cache.Slot
import Redraw.Proofs.Surface.Integrity
import Redraw.Proofs.Config.Overrides
import Redraw.Proofs.Outline.Tiling
import Redraw.Proofs.Sketch.Pictures
import Redraw.Proofs.Batch.Swallowing
import Redraw.Proofs.Outline.Overlaps
import Redraw.Proofs.Outline.Tracing
