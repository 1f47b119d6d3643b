import PathRouting.Pattern.Basic
import PathRouting.Pattern.Order
import PathRouting.Pattern.Address
import PathRouting.RequestPath
import PathRouting.Text.Percent
import PathRouting.Text.Scalar
import PathRouting.Table.Basic
import PathRouting.Lookup.Search
import PathRouting.Lookup.Captures
import PathRouting.Table.Script
import PathRouting.Router.Script
import PathRouting.Router.Settings
import PathRouting.Router.Use
import PathRouting.Dispatch.Script
import PathRouting.Publisher.Script
import PathRouting.Publisher.Use
import PathRouting.Dispatch.Use
import PathRouting.Proofs.Lists
import PathRouting.Proofs.Trie.Branches
import PathRouting.Proofs.Trie.BranchHistory
import PathRouting.Proofs.Trie.Shape
import PathRouting.Proofs.Trie.Updates
import PathRouting.Proofs.Table.Ledger
import PathRouting.Proofs.Table.Refinement
import PathRouting.Proofs.Lookup.Cuts
import PathRouting.Proofs.Lookup.Splits
import PathRouting.Proofs.Lookup.Search
import PathRouting.Proofs.Lookup.Winner
import PathRouting.Proofs.Lookup.Bindings
import PathRouting.Proofs.Router.Coherence
import PathRouting.Proofs.Pattern.Join
import PathRouting.Proofs.Table.Mounting
import PathRouting.Proofs.Router.Failures
import PathRouting.Proofs.Router.StrictMounts
import PathRouting.Proofs.Lookup.Mounts
import PathRouting.Proofs.Cache.Log
import PathRouting.Proofs.Router.Recall
import PathRouting.Proofs.Router.Reachable
import PathRouting.Proofs.Publisher.Snapshots
import PathRouting.Proofs.Publisher.Updates
import PathRouting.Proofs.Publisher.Isolation
import PathRouting.Proofs.Text.Percent
import PathRouting.Proofs.Dispatch.Replies
import PathRouting.Proofs.Router.Priorities
import PathRouting.Proofs.Pattern.Concatenation
import PathRouting.Proofs.Text.Slashes
import PathRouting.Proofs.Pattern.Grammar
import PathRouting.Proofs.Pattern.RoundTrip
import PathRouting.Proofs.Lookup.Twins
import PathRouting.Proofs.Lookup.Renumbering
import PathRouting.Proofs.Router.Restore
import PathRouting.Proofs.Table.NestedMounts
import PathRouting.Proofs.Lookup.Renaming
import PathRouting.Proofs.Pattern.Order
import PathRouting.Proofs.Lookup.Spellings
import PathRouting.Proofs.Router.Settings
import PathRouting.Proofs.Text.Encoding
import PathRouting.Proofs.Dispatch.Encodings
import PathRouting.Proofs.Lookup.Arrangements
import PathRouting.Proofs.Trie.Walks
import PathRouting.Proofs.Table.Nodes
