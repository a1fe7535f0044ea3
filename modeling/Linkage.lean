import Linkage.Command.Run
import Linkage.FileTree
import Linkage.Main
import Linkage.Proofs.Capacity
import Linkage.Proofs.Command.Run
import Linkage.Proofs.Concatenation
import Linkage.Proofs.Contiguity
import Linkage.Proofs.EmptyModule
import Linkage.Proofs.Encoding
import Linkage.Proofs.Environment
import Linkage.Proofs.ErrorTokens
import Linkage.Proofs.Extension
import Linkage.Proofs.Failures
import Linkage.Proofs.Listing
import Linkage.Proofs.Locations
import Linkage.Proofs.MachineSize
import Linkage.Proofs.Pass.Halt
import Linkage.Proofs.Pass.Range
import Linkage.Proofs.Pass.Source
import Linkage.Proofs.Pass.Suggestions
import Linkage.Proofs.Policies
import Linkage.Proofs.Reading.AnyText
import Linkage.Proofs.Reading.Invariant
import Linkage.Proofs.Renaming
import Linkage.Proofs.Scanning.Positions
import Linkage.Proofs.SymbolTable.History
import Linkage.Proofs.Warnings.Sites
import Linkage.Proofs.Workspace
import Linkage.Words
import Linkage.Workspace
