import PreconditionMining.Config.Layers
import PreconditionMining.Data.Codec.Samples
import PreconditionMining.Data.Json
import PreconditionMining.Fuzzer.Factory
import PreconditionMining.Learner.Scripted
import PreconditionMining.Logging.Logger
import PreconditionMining.Solver.Scripted
import PreconditionMining.Suite.Basic
import PreconditionMining.Suite.Outline
import PreconditionMining.Testing.Rule
import PreconditionMining.Proofs.Testing.Isolation
import PreconditionMining.Proofs.Testing.Nesting
import PreconditionMining.Proofs.Condition.Observatory
import PreconditionMining.Proofs.Condition.SingleFlight
import PreconditionMining.Proofs.Condition.History
import PreconditionMining.Proofs.Grammar.DerivationTree
import PreconditionMining.Proofs.Fuzzer.Rules
import PreconditionMining.Proofs.Fuzzer.Run
import PreconditionMining.Proofs.Fuzzer.Soundness
import PreconditionMining.Proofs.Fuzzer.Height
import PreconditionMining.Proofs.Grammar.Settling
import PreconditionMining.Proofs.Grammar.Language
import PreconditionMining.Proofs.Grammar.Tokenization
import PreconditionMining.Proofs.Discovery.Journal
import PreconditionMining.Proofs.Discovery.Course
import PreconditionMining.Proofs.Discovery.Filing
import PreconditionMining.Proofs.Discovery.Confinement
import PreconditionMining.Proofs.Discovery.Sweeps
import PreconditionMining.Proofs.Discovery.Ending
import PreconditionMining.Proofs.Suite.Holding
import PreconditionMining.Proofs.Suite.Attempts
import PreconditionMining.Proofs.Suite.Agreement
import PreconditionMining.Proofs.Suite.Measuring
import PreconditionMining.Proofs.Suite.Completion
import PreconditionMining.Proofs.Suite.Requests
import PreconditionMining.Proofs.Suite.Accumulation
import PreconditionMining.Proofs.Suite.Streams
import PreconditionMining.Proofs.Fuzzer.Memory
import PreconditionMining.Proofs.Fuzzer.Rejection
import PreconditionMining.Proofs.Suite.Evaluation
import PreconditionMining.Proofs.Discovery.Exploration
import PreconditionMining.Proofs.Suite.Fuzzers
import PreconditionMining.Proofs.Suite.Independence
import PreconditionMining.Proofs.Fuzzer.Reach
import PreconditionMining.Proofs.Fuzzer.Compilation
import PreconditionMining.Proofs.Suite.Calls
import PreconditionMining.Proofs.Config.Validity
import PreconditionMining.Proofs.Suite.Interruption
import PreconditionMining.Proofs.Data.RoundTrip
import PreconditionMining.Proofs.Data.Omission
import PreconditionMining.Proofs.Condition.Atomicity
import PreconditionMining.Proofs.Tree.Replacement
import PreconditionMining.Proofs.Fuzzer.Mutation
import PreconditionMining.Proofs.Fuzzer.Solving
import PreconditionMining.Proofs.Suite.Iteration
import PreconditionMining.Proofs.Formula.Flatness
import PreconditionMining.Proofs.Fuzzer.Distinctness
import PreconditionMining.Proofs.Grammar.Reference
import PreconditionMining.Proofs.Tree.Splicing
import PreconditionMining.Proofs.Condition.Monotonicity
import PreconditionMining.Proofs.Suite.Retries
import PreconditionMining.Proofs.Suite.Embedding
import PreconditionMining.Proofs.Suite.Building
import PreconditionMining.Proofs.Suite.Recording
import PreconditionMining.Proofs.Suite.Seeds
import PreconditionMining.Proofs.Report.Headings
import PreconditionMining.Proofs.Report.Reading
import PreconditionMining.Proofs.Data.Ways
import PreconditionMining.Proofs.Config.Sources
import PreconditionMining.Proofs.Config.Reading
import PreconditionMining.Proofs.Config.Layering
import PreconditionMining.Proofs.Text.ByteOrder
import PreconditionMining.Proofs.Grammar.Construction
import PreconditionMining.Proofs.Tree.Enumeration
import PreconditionMining.Proofs.Settings.Overriding
