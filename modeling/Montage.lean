import Montage.Backend
import Montage.Bindings
import Montage.Clip
import Montage.Command
import Montage.CommandLine
import Montage.Error
import Montage.Event
import Montage.FileTree
import Montage.Filtergraph
import Montage.Filtergraph.Assembly
import Montage.Frame
import Montage.Host
import Montage.Inspect
import Montage.Invocation
import Montage.Json
import Montage.Json.Reader
import Montage.Json.Record
import Montage.Json.Writer
import Montage.Main
import Montage.Operation
import Montage.Operation.Json
import Montage.Path
import Montage.Probe
import Montage.Proofs.Bindings
import Montage.Proofs.Bindings.Sequence
import Montage.Proofs.Clip.Coherent
import Montage.Proofs.Clip.Known
import Montage.Proofs.Clip.Leaves
import Montage.Proofs.Clip.Placement
import Montage.Proofs.Clip.Plan
import Montage.Proofs.Clip.Scaling
import Montage.Proofs.Command.Display
import Montage.Proofs.FileTree.Growth
import Montage.Proofs.Filtergraph.Alignment
import Montage.Proofs.Filtergraph.Brackets
import Montage.Proofs.Filtergraph.Counts
import Montage.Proofs.Filtergraph.Drawing
import Montage.Proofs.Filtergraph.FrameSize
import Montage.Proofs.Filtergraph.Gauge
import Montage.Proofs.Filtergraph.Gives
import Montage.Proofs.Filtergraph.Inputs
import Montage.Proofs.Filtergraph.Labels
import Montage.Proofs.Filtergraph.Meaning
import Montage.Proofs.Filtergraph.Measured
import Montage.Proofs.Filtergraph.Pads
import Montage.Proofs.Filtergraph.Relocation
import Montage.Proofs.Filtergraph.Spelling
import Montage.Proofs.Filtergraph.Stuck
import Montage.Proofs.Filtergraph.Term
import Montage.Proofs.Filtergraph.Visits
import Montage.Proofs.Filtergraph.Walk
import Montage.Proofs.Filtergraph.Wiring
import Montage.Proofs.Json.Grammar
import Montage.Proofs.Json.Numbers
import Montage.Proofs.Json.Reading
import Montage.Proofs.Json.Restated
import Montage.Proofs.Json.Strings
import Montage.Proofs.Json.Tokens
import Montage.Proofs.Operation.Json
import Montage.Proofs.Outcome
import Montage.Proofs.Path
import Montage.Proofs.Probe.Documents
import Montage.Proofs.Renderer.Command
import Montage.Proofs.Renderer.Encoding
import Montage.Proofs.Renderer.Files
import Montage.Proofs.Renderer.History
import Montage.Proofs.Script.Assignment
import Montage.Proofs.Script.Builders
import Montage.Proofs.Script.Complaints
import Montage.Proofs.Script.Concatenation
import Montage.Proofs.Script.Grammar
import Montage.Proofs.Script.Insertion
import Montage.Proofs.Script.Layout
import Montage.Proofs.Script.Numerals
import Montage.Proofs.Script.Openings
import Montage.Proofs.Script.Partition
import Montage.Proofs.Script.Places
import Montage.Proofs.Script.Printer
import Montage.Proofs.Script.Renumbered
import Montage.Proofs.Script.RoundTrip
import Montage.Proofs.Script.Takes
import Montage.Proofs.Script.Texts
import Montage.Proofs.Script.Unused
import Montage.Proofs.Script.Validity
import Montage.Proofs.Seconds.Numbers
import Montage.Proofs.Session.Calls
import Montage.Proofs.Session.Check
import Montage.Proofs.Session.Counterparts
import Montage.Proofs.Session.Durations
import Montage.Proofs.Session.Failure
import Montage.Proofs.Session.Footprint
import Montage.Proofs.Session.Independence
import Montage.Proofs.Session.Origins
import Montage.Proofs.Session.Outline
import Montage.Proofs.Session.Preservation
import Montage.Proofs.Session.Readback
import Montage.Proofs.Session.Rehearsal
import Montage.Proofs.Session.Renaming
import Montage.Proofs.Session.Resolution
import Montage.Proofs.Session.Run
import Montage.Proofs.Session.Soundness
import Montage.Proofs.Session.Step
import Montage.Proofs.Text.ByteOrder
import Montage.Proofs.Text.Cutting
import Montage.Proofs.Timestamp
import Montage.Recorder
import Montage.Recorder.Inspect
import Montage.Renderer
import Montage.Renderer.Command
import Montage.Script
import Montage.Script.Attribute
import Montage.Script.Attributes
import Montage.Script.Block
import Montage.Script.Build
import Montage.Script.File
import Montage.Seconds.Basic
import Montage.Seconds.Digits
import Montage.Seconds.Text
import Montage.Session
import Montage.Text.Blank
import Montage.Text.Lines
import Montage.Text.Ranges
import Montage.Text.Visible
import Montage.Text.Word
import Montage.Timestamp
