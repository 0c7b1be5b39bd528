import FreenetMigrate.Calls.Program
import FreenetMigrate.Calls.Rules
import FreenetMigrate.Calls.Secures
import FreenetMigrate.Calls.Crash
import FreenetMigrate.Joins.Greatest
import FreenetMigrate.Gossip.Replica
import FreenetMigrate.Bytes.LittleEndian
import FreenetMigrate.Digits.Rebase
import FreenetMigrate.Text.Str
import FreenetMigrate.Text.Slice
import FreenetMigrate.Text.Hex
import FreenetMigrate.Text.Lines
import FreenetMigrate.Text.Decimal
import FreenetMigrate.Text.Base58
import FreenetMigrate.Rust.Escape
import FreenetMigrate.Rust.Path
import FreenetMigrate.Rust.Reader
import FreenetMigrate.Pointer.Contract
import FreenetMigrate.Pointer.Merge
import FreenetMigrate.Pointer.Convergence
import FreenetMigrate.Pointer.AntiEntropy
import FreenetMigrate.Pointer.Update
import FreenetMigrate.Pointer.Peers
import FreenetMigrate.Pointer.Resolver
import FreenetMigrate.Pointer.Resolution
import FreenetMigrate.Pointer.Params
import FreenetMigrate.Pointer.Author
import FreenetMigrate.Pointer.Floor
import FreenetMigrate.Pointer.Network
import FreenetMigrate.Pointer.Outcome
import FreenetMigrate.Pointer.Successor
import FreenetMigrate.Pointer.Signing
import FreenetMigrate.Journal.State
import FreenetMigrate.Migrate.Interface
import FreenetMigrate.Journal.Journal
import FreenetMigrate.Journal.Operations
import FreenetMigrate.Journal.Rank
import FreenetMigrate.Journal.Growth
import FreenetMigrate.Journal.Memory
import FreenetMigrate.Journal.Traits
import FreenetMigrate.Journal.Codec
import FreenetMigrate.Journal.Cbor
import FreenetMigrate.Journal.Decoding
import FreenetMigrate.Migrate.JournalStore
import FreenetMigrate.Migrate.Storing
import FreenetMigrate.Migrate.Sessions
import FreenetMigrate.Migrate.Successor
import FreenetMigrate.Migrate.Start
import FreenetMigrate.Migrate.Walk
import FreenetMigrate.Migrate.Journaled
import FreenetMigrate.Migrate.Observer
import FreenetMigrate.Migrate.JournaledRun
import FreenetMigrate.Migrate.Heeding
import FreenetMigrate.Migrate.Seeding
import FreenetMigrate.Migrate.Status
import FreenetMigrate.Migrate.Row
import FreenetMigrate.Migrate.Visible
import FreenetMigrate.Migrate.AntiRollback
import FreenetMigrate.Migrate.SecretStore
import FreenetMigrate.Migrate.Resurrection
import FreenetMigrate.Migrate.Underway
import FreenetMigrate.Journal.Provenance
import FreenetMigrate.Migrate.Justified
import FreenetMigrate.Migrate.Settled
import FreenetMigrate.Migrate.Soundness
import FreenetMigrate.Migrate.Remembering
import FreenetMigrate.Migrate.Shortfall
import FreenetMigrate.Migrate.Forgetting
import FreenetMigrate.Migrate.CountKept
import FreenetMigrate.Migrate.Series
import FreenetMigrate.Probe.Driver
import FreenetMigrate.Probe.Reference
import FreenetMigrate.Probe.Steps
import FreenetMigrate.Probe.Run
import FreenetMigrate.Probe.Simulation
import FreenetMigrate.Probe.Recovery
import FreenetMigrate.Probe.FoldAll
import FreenetMigrate.Probe.Pump
import FreenetMigrate.Probe.Noise
import FreenetMigrate.Probe.Unresolved
import FreenetMigrate.Import.Markers
import FreenetMigrate.Import.Once
import FreenetMigrate.Import.History
import FreenetMigrate.Import.Enumeration
import FreenetMigrate.Import.Carriage
import FreenetMigrate.Import.Export
import FreenetMigrate.Migrate.Discipline
import FreenetMigrate.Import.Sticky
import FreenetMigrate.Migrate.FixedPoint
import FreenetMigrate.Migrate.Withholding
import FreenetMigrate.Migrate.Selection
import FreenetMigrate.Import.Agreement
import FreenetMigrate.Migrate.AppImport
import FreenetMigrate.Migrate.AppFlag
import FreenetMigrate.Migrate.Secured
import FreenetMigrate.Migrate.Reachable
import FreenetMigrate.Migrate.AppImported
import FreenetMigrate.Migrate.FailClosed
import FreenetMigrate.Migrate.Tallies
import FreenetMigrate.Publisher.Opts
import FreenetMigrate.Build.Outcome
import FreenetMigrate.Build.Registry
import FreenetMigrate.Build.ParamsHex
import FreenetMigrate.Build.Validate
import FreenetMigrate.Build.Guard
import FreenetMigrate.Build.Lineage
import FreenetMigrate.Build.Identity
import FreenetMigrate.Build.Codegen
import FreenetMigrate.Build.Generated
import FreenetMigrate.Build.Rendering
import FreenetMigrate.Build.Readback
import FreenetMigrate.Build.RoundTrip
import FreenetMigrate.Publisher.Keys
import FreenetMigrate.Publisher.KeyFile
import FreenetMigrate.Contract.Identity
import FreenetMigrate.Contract.Releases
import FreenetMigrate.Publisher.Tool
import FreenetMigrate.Publisher.Publish
import FreenetMigrate.Migrate.Retries
import FreenetMigrate.Migrate.Releases
import FreenetMigrate.Pointer.AppPointer
import FreenetMigrate.Journal.Absence
import FreenetMigrate.Migrate.Absence
import FreenetMigrate.Migrate.AllAbsent
import FreenetMigrate.Joins.Fold
import FreenetMigrate.Probe.PolicyCheck
import FreenetMigrate.Probe.Convergence
