import ClaimCells.Run
import ClaimCells.Proofs.Custody
import ClaimCells.Proofs.Ownership
import ClaimCells.Proofs.Cells
import ClaimCells.Proofs.Conservation
import ClaimCells.Proofs.Handles
import ClaimCells.Proofs.Lineage
import ClaimCells.Proofs.Lifetimes
import ClaimCells.Proofs.Balance
import ClaimCells.Proofs.Overlay
import ClaimCells.Proofs.Prompt
import ClaimCells.Proofs.Settings
import ClaimCells.Proofs.Cellular
import ClaimCells.Proofs.Composition
import ClaimCells.Proofs.Classes
import ClaimCells.Proofs.Configured
import ClaimCells.Proofs.Callers
import ClaimCells.Proofs.Books
import ClaimCells.Proofs.Failures
import ClaimCells.Proofs.Accesses
import ClaimCells.Proofs.Warnings
import ClaimCells.Proofs.Borrowed
import ClaimCells.Proofs.TearDown
import ClaimCells.Proofs.Echoes
import ClaimCells.Proofs.Trades
import ClaimCells.Proofs.Refusals
import ClaimCells.Proofs.Reckoning
import ClaimCells.Proofs.Recording
import ClaimCells.Proofs.Exclusion
import ClaimCells.Proofs.Agreement
import ClaimCells.Proofs.Closings
import ClaimCells.Proofs.Finalizers
import ClaimCells.Proofs.Naming
import ClaimCells.Proofs.Documents
