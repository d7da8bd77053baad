import ValueAnalysis.Catalogue
import ValueAnalysis.Config
import ValueAnalysis.Logger
import ValueAnalysis.Semantics.Meaning
import ValueAnalysis.Snapshot.Item
import ValueAnalysis.Taint.Sink
import ValueAnalysis.Proofs.ExtInt
import ValueAnalysis.Proofs.Interval.Membership
import ValueAnalysis.Proofs.Interval.Arithmetic
import ValueAnalysis.Proofs.Env.Pointwise
import ValueAnalysis.Proofs.Interval.Domain
import ValueAnalysis.Proofs.Env.Intervals
import ValueAnalysis.Proofs.Bounds.BoundSet
import ValueAnalysis.Proofs.Bounds.State
import ValueAnalysis.Proofs.Pentagon.Lattice
import ValueAnalysis.Proofs.Pentagon.Transfer
import ValueAnalysis.Proofs.Pentagon.Loop
import ValueAnalysis.Proofs.Pentagon.Decidable
import ValueAnalysis.Proofs.Rank
import ValueAnalysis.Proofs.Pentagon.Termination
import ValueAnalysis.Proofs.Env.Lattice
import ValueAnalysis.Proofs.Interval.Lattice
import ValueAnalysis.Proofs.Pentagon.Order
import ValueAnalysis.Proofs.Pentagon.Closed
import ValueAnalysis.Proofs.Pentagon.Widening
import ValueAnalysis.Semantics.Derivation
import ValueAnalysis.Proofs.Invariant
import ValueAnalysis.Proofs.Env.Laws
import ValueAnalysis.Proofs.Interval.Tightness
import ValueAnalysis.Proofs.Interval.Exactness
import ValueAnalysis.Proofs.Interval.Monotone
import ValueAnalysis.Proofs.Bounds.Monotone
import ValueAnalysis.Proofs.Pentagon.Monotone
import ValueAnalysis.Proofs.Pentagon.Precision
import ValueAnalysis.Proofs.Pentagon.Associativity
import ValueAnalysis.Proofs.Env.Stores
import ValueAnalysis.Semantics.Flow
import ValueAnalysis.Checked.State
import ValueAnalysis.Proofs.Taint.Flow
import ValueAnalysis.Proofs.Checked.Env
import ValueAnalysis.Proofs.Checked.State
import ValueAnalysis.Proofs.Interval.Hull
import ValueAnalysis.Proofs.Pentagon.Canonical
import ValueAnalysis.Proofs.Env.Comparison
import ValueAnalysis.Proofs.Negation
import ValueAnalysis.Proofs.Complement
import ValueAnalysis.Proofs.Decided
import ValueAnalysis.Proofs.Mirror
import ValueAnalysis.Proofs.StrictOrder
import ValueAnalysis.Proofs.Pentagon.Forgetting
import ValueAnalysis.Proofs.Pentagon.Narrowing
import ValueAnalysis.Proofs.Taint.Sink
import ValueAnalysis.Proofs.Pentagon.Commutation
import ValueAnalysis.Proofs.ExtInt.Algebra
import ValueAnalysis.Proofs.WideningChain
import ValueAnalysis.Snapshot.Reader
import ValueAnalysis.Proofs.Snapshot.Data
import ValueAnalysis.Proofs.Snapshot.Identity
import ValueAnalysis.Proofs.Snapshot.RoundTrip
import ValueAnalysis.Proofs.Calls
