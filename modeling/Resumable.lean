import Resumable.Machine.Listing
import Resumable.Main
import Resumable.Proofs.CommandLine.Places
import Resumable.Proofs.CommandLine.Words
import Resumable.Proofs.Eval.Integral
import Resumable.Proofs.Graph.Outline
import Resumable.Proofs.Json.Files
import Resumable.Proofs.Lowering.Reads
import Resumable.Proofs.Lowering.Scopes
import Resumable.Proofs.Lowering.Strict
import Resumable.Proofs.Lowering.Types
import Resumable.Proofs.Machine.Failed
import Resumable.Proofs.Machine.Notes
import Resumable.Proofs.Machine.Policies
import Resumable.Proofs.Machine.RoundTrip
import Resumable.Proofs.Machine.Slots
import Resumable.Proofs.Machine.Storage
import Resumable.Proofs.Machine.Suspensions
import Resumable.Proofs.Machine.Visits
import Resumable.Proofs.Program.Stripped
import Resumable.Proofs.Region.LeastSolution
import Resumable.Proofs.Scope.Agreement
import Resumable.Proofs.Scope.Calls
import Resumable.Proofs.Scope.Tree
