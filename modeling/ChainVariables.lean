import ChainVariables.Bytes
import ChainVariables.SortedMap
import ChainVariables.Text.Utf8
import ChainVariables.Text.Base64
import ChainVariables.Hash.Sha256
import ChainVariables.Duration
import ChainVariables.Outcome
import ChainVariables.Error.Io
import ChainVariables.Codec.Word
import ChainVariables.Codec.Fault
import ChainVariables.Codec.Format
import ChainVariables.Codec.Strict
import ChainVariables.Height
import ChainVariables.Address
import ChainVariables.Relocation
import ChainVariables.Digest
import ChainVariables.Directory
import ChainVariables.Store.Error
import ChainVariables.Store.Memory
import ChainVariables.Store.Pool
import ChainVariables.Fetch.Error
import ChainVariables.Event
import ChainVariables.Log
import ChainVariables.Fetch.Progress
import ChainVariables.Fetch.Schedule
import ChainVariables.Config
import ChainVariables.Snapshot
import ChainVariables.Handler
import ChainVariables.Cache
import ChainVariables.Failure
import ChainVariables.Simulation.Script
import ChainVariables.Simulation.Transcript
import ChainVariables.Simulation.Bench
import ChainVariables.Proofs.SortedMap.Entries
import ChainVariables.Proofs.Codec.Writable
import ChainVariables.Proofs.Codec.RoundTrip
import ChainVariables.Proofs.Codec.Framing
import ChainVariables.Proofs.Codec.Inverse
import ChainVariables.Proofs.Codec.Spelling
import ChainVariables.Proofs.Codec.NormalForm
import ChainVariables.Proofs.Directory.History
import ChainVariables.Proofs.Directory.Announcement
import ChainVariables.Proofs.Fetch.Collection
import ChainVariables.Proofs.Cache.World
import ChainVariables.Proofs.Cache.Refresh
import ChainVariables.Proofs.Cache.Agreement
import ChainVariables.Proofs.Cache.Completion
import ChainVariables.Proofs.Cache.Run
import ChainVariables.Proofs.Cache.Scheduling
import ChainVariables.Proofs.Cache.Fingerprint
import ChainVariables.Proofs.Fetch.Arrival
import ChainVariables.Proofs.Fetch.Interleaving
import ChainVariables.Proofs.Fetch.Outcome
import ChainVariables.Proofs.Directory.Equivalence
import ChainVariables.Proofs.Store.FlatMap
import ChainVariables.Proofs.Store.Persistence
import ChainVariables.Proofs.Store.Lineage
import ChainVariables.Proofs.Cache.Events
import ChainVariables.Proofs.Text.Base64
import ChainVariables.Proofs.Text.PrintedAddress
import ChainVariables.Proofs.Text.LogLine
import ChainVariables.Proofs.Cache.TypedRead
import ChainVariables.Proofs.Fetch.Threads
import ChainVariables.Proofs.Cache.Footprint
import ChainVariables.Proofs.Text.ShortDigest
import ChainVariables.Proofs.Failure.Sources
import ChainVariables.Proofs.Directory.Listing
import ChainVariables.Proofs.Fetch.Deadline
import ChainVariables.Proofs.Fetch.Turns
