import QueryIso.Algebra.Element
import QueryIso.Comparison
import QueryIso.Json.Standard
import QueryIso.Proofs.Counting
import QueryIso.Proofs.Matching.FirstPermutation
import QueryIso.Proofs.Reordering
import QueryIso.Proofs.Limits
import QueryIso.Proofs.Bindings
import QueryIso.Proofs.Verdicts
import QueryIso.Proofs.Soundness
import QueryIso.Proofs.Paths
import QueryIso.Proofs.Rigidity
import QueryIso.Proofs.Copies
import QueryIso.Proofs.Histories
import QueryIso.Proofs.Names
import QueryIso.Proofs.Patterns
import QueryIso.Proofs.Symmetry
import QueryIso.Proofs.Rejection
import QueryIso.Proofs.Differences
import QueryIso.Proofs.Reports
import QueryIso.Proofs.Positions
import QueryIso.Proofs.Json.RoundTrip
import QueryIso.Proofs.Algebra.Records
import QueryIso.Proofs.Narrow
import QueryIso.Proofs.Algebra.Rows
import QueryIso.Proofs.Algebra.Renaming
import QueryIso.Proofs.Algebra.InlineData
import QueryIso.Proofs.Algebra.Recovery
import QueryIso.Proofs.Batches
import QueryIso.Proofs.Anonymous
import QueryIso.Proofs.Algebra.Faults
import QueryIso.Proofs.Algebra.Arities
import QueryIso.Proofs.Replacement
import QueryIso.Proofs.Composition
import QueryIso.Proofs.Datum
import QueryIso.Proofs.Matching.FirstFit
import QueryIso.Proofs.Text.Apart
import QueryIso.Proofs.Text.Lists
import QueryIso.Proofs.Text.Display
import QueryIso.Proofs.Text.Paths
import QueryIso.Proofs.Commitments
import QueryIso.Proofs.Walks
