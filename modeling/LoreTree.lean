import LoreTree.Main
import LoreTree.Proofs.Activation
import LoreTree.Proofs.CommandLine.Outcome
import LoreTree.Proofs.Distance.Range
import LoreTree.Proofs.Document.Loading
import LoreTree.Proofs.Liveness
import LoreTree.Proofs.Log
import LoreTree.Proofs.Pattern.Composition
import LoreTree.Proofs.Pattern.Keyword
import LoreTree.Proofs.Pattern.Literal
import LoreTree.Proofs.Reimport
import LoreTree.Proofs.RootStrategy
import LoreTree.Proofs.Settling
import LoreTree.Proofs.Shift.Preset
import LoreTree.Proofs.Shift.Reuse
import LoreTree.Proofs.Totality
