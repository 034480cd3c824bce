import Finality.Node
import Finality.Engine.Queries
import Finality.Store.Faulty
import Finality.Store.Memory
import Finality.Proofs.Action
import Finality.Proofs.Engine.Retry
import Finality.Proofs.Chain.Votes
import Finality.Proofs.Chain.Release
import Finality.Proofs.Chain.Reorganisation
import Finality.Proofs.Chain.Links
import Finality.Proofs.Chain.Events
import Finality.Proofs.Store.Durable
import Finality.Proofs.Chain.Weights
import Finality.Proofs.Engine.VisitingOrder
import Finality.Proofs.Chain.Halting
import Finality.Proofs.Record.PrefixCode
import Finality.Proofs.Engine.Resolved
import Finality.Proofs.Engine.Unwinding
import Finality.Proofs.Engine.Inverse
import Finality.Proofs.Engine.Ballots
import Finality.Proofs.Engine.MoreVotes
import Finality.Proofs.Store.Atomic
import Finality.Proofs.Store.Scan
import Finality.Proofs.Store.CompositeKeys
import Finality.Proofs.Ledger.History
import Finality.Proofs.Config
import Finality.Proofs.Toml.Lines
import Finality.Proofs.Toml.Strings
import Finality.Proofs.Toml.Words
