import ManagedHeap.Heap.Reachability
import ManagedHeap.Heap.Soundness
import ManagedHeap.Host.Run
import ManagedHeap.Main
import ManagedHeap.Proofs.Bignum.Failure
import ManagedHeap.Proofs.Bignum.Numerals
import ManagedHeap.Proofs.Bignum.Reservations
import ManagedHeap.Proofs.Bignum.Sequences
import ManagedHeap.Proofs.Bignum.Sharing
import ManagedHeap.Proofs.Checksum.Remainder
import ManagedHeap.Proofs.CommandLine.Evaluation
import ManagedHeap.Proofs.CommandLine.Identity
import ManagedHeap.Proofs.Heap.Faults
import ManagedHeap.Proofs.Heap.Packed
import ManagedHeap.Proofs.Heap.Pointers
import ManagedHeap.Proofs.Heap.Violations
import ManagedHeap.Proofs.History.Budget
import ManagedHeap.Proofs.History.Layout
import ManagedHeap.Proofs.History.Requests
import ManagedHeap.Proofs.History.RootTable
import ManagedHeap.Proofs.Host.Arithmetic
import ManagedHeap.Proofs.Host.Comparison
import ManagedHeap.Proofs.Host.Construction
import ManagedHeap.Proofs.Host.Division
import ManagedHeap.Proofs.Host.Iteration
import ManagedHeap.Proofs.Host.Lockstep
import ManagedHeap.Proofs.Host.Narrowing
import ManagedHeap.Proofs.Host.RawStorage
import ManagedHeap.Proofs.Host.Reallocation
import ManagedHeap.Proofs.Host.Reasons
import ManagedHeap.Proofs.Host.Reclamation
import ManagedHeap.Proofs.Identity.Detection
import ManagedHeap.Proofs.Identity.Grouping
import ManagedHeap.Proofs.Identity.Rules
import ManagedHeap.Proofs.Program.Transparency
