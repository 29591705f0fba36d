import FramePatch.Engine.Script
import FramePatch.Guest.Bytes
import FramePatch.Guest.Recorded
import FramePatch.Main
import FramePatch.Proofs.CommandLine.Flags
import FramePatch.Proofs.CommandLine.Lines
import FramePatch.Proofs.CommandLine.Outcome
import FramePatch.Proofs.CommandLine.ReadBack
import FramePatch.Proofs.CommandLine.Run
import FramePatch.Proofs.CommandLine.SpeedRow
import FramePatch.Proofs.CommandLine.Toggles
import FramePatch.Proofs.CommandLine.TreeOutcome
import FramePatch.Proofs.CommandLine.WriteBack
import FramePatch.Proofs.Engine.Frames
import FramePatch.Proofs.Engine.Noninterference
import FramePatch.Proofs.Engine.Persistence
import FramePatch.Proofs.Engine.Reachable
import FramePatch.Proofs.Engine.Runs
import FramePatch.Proofs.Engine.Stages
import FramePatch.Proofs.Entry.Canonical
import FramePatch.Proofs.Entry.Fields
import FramePatch.Proofs.Entry.Grammar
import FramePatch.Proofs.Entry.Line
import FramePatch.Proofs.Files.Keeping
import FramePatch.Proofs.Files.Overwrite
import FramePatch.Proofs.Files.Settled
import FramePatch.Proofs.Files.Tree
import FramePatch.Proofs.Guest.Bytes
import FramePatch.Proofs.Guest.Replay
import FramePatch.Proofs.Ini.Edits
import FramePatch.Proofs.Ini.EffectiveLines
import FramePatch.Proofs.Ini.File
import FramePatch.Proofs.Ini.Owned
import FramePatch.Proofs.Ini.RoundTrip
import FramePatch.Proofs.Ini.SetRow
import FramePatch.Proofs.Ini.WellFormed
import FramePatch.Proofs.Literal
import FramePatch.Proofs.Literal.Grammar
import FramePatch.Proofs.Patch.Coherence
import FramePatch.Proofs.Patch.Definitions
import FramePatch.Proofs.Patch.Merge
import FramePatch.Proofs.Patch.SaveCycle
import FramePatch.Proofs.Patch.Toggles
import FramePatch.Proofs.Patch.Writes
import FramePatch.Proofs.SpeedTable
import FramePatch.Proofs.Text.Fold
import FramePatch.Proofs.Ini.Layout
import FramePatch.Proofs.Patch.Independence
import FramePatch.Proofs.Ini.Locality
import FramePatch.Proofs.Ini.LooseEnds
import FramePatch.Proofs.Ini.Reading
import FramePatch.Proofs.Ini.RowValues
import FramePatch.Proofs.Guest.Gate
import FramePatch.Proofs.SpeedTable.Runs
import FramePatch.Proofs.CommandLine.Listing
import FramePatch.Proofs.Engine.FileCalls
