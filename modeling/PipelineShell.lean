import PipelineShell.Completion
import PipelineShell.FileTree.Change
import PipelineShell.Main
import PipelineShell.Proofs.Composition
import PipelineShell.Proofs.Relay
import PipelineShell.Proofs.Rendering
import PipelineShell.Proofs.Splitting
import PipelineShell.Proofs.Arrivals
import PipelineShell.Proofs.FileTree.Making
import PipelineShell.Proofs.Deeds
import PipelineShell.Proofs.Words
import PipelineShell.Proofs.Blindness
import PipelineShell.Proofs.Clean
import PipelineShell.Proofs.Terminal
import PipelineShell.Proofs.Failing
import PipelineShell.Proofs.Moments
import PipelineShell.Proofs.Safety
import PipelineShell.Proofs.FileTree.Confinement
import PipelineShell.Proofs.Confinement
import PipelineShell.Proofs.Directory
import PipelineShell.Proofs.Commands
import PipelineShell.Proofs.Isolation
import PipelineShell.Proofs.TerminalUse
import PipelineShell.Proofs.Logging
import PipelineShell.Proofs.OneLine
import PipelineShell.Proofs.FileTree.Contents
import PipelineShell.Proofs.History
import PipelineShell.Proofs.Closing
import PipelineShell.Proofs.Rewording
import PipelineShell.Proofs.Copying
import PipelineShell.Proofs.OneFile
import PipelineShell.Proofs.Segments
import PipelineShell.Proofs.Cancelling
import PipelineShell.Proofs.Canonical
import PipelineShell.Proofs.FileTree.Detours
import PipelineShell.Proofs.Denotation
import PipelineShell.Proofs.Numeral
import PipelineShell.Proofs.Home
import PipelineShell.Proofs.Questions
import PipelineShell.Proofs.OfferedNames
import PipelineShell.Proofs.Lifecycle
import PipelineShell.Proofs.SearchPath
