import FragmentCompiler.Main
import FragmentCompiler.Proofs.Reading.Archived
import FragmentCompiler.Proofs.Tiling
import FragmentCompiler.Script.Progress
import FragmentCompiler.Proofs.Session.Modes
import FragmentCompiler.Proofs.Session.Soundness
import FragmentCompiler.Proofs.Positions
import FragmentCompiler.Proofs.Session.Exports
import FragmentCompiler.Proofs.Snapshot
import FragmentCompiler.Proofs.Stages.Registry
import FragmentCompiler.Proofs.Counters
import FragmentCompiler.Proofs.Integers
import FragmentCompiler.Proofs.Ring
import FragmentCompiler.Proofs.Execution.Stack
