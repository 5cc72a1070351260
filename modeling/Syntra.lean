import Syntra.Api
import Syntra.Api.Accounted
import Syntra.Api.Admission
import Syntra.Api.Barred
import Syntra.Api.Closed
import Syntra.Api.Confined
import Syntra.Api.Footprint
import Syntra.Api.Gate
import Syntra.Api.Handled
import Syntra.Api.Objects
import Syntra.Api.Ownership
import Syntra.Api.Params
import Syntra.Api.Permits
import Syntra.Api.Reading
import Syntra.Api.Responses
import Syntra.Api.Revoked
import Syntra.Api.Tables
import Syntra.Api.Unprivileged
import Syntra.Bench.Cdc
import Syntra.Bench.Dedup
import Syntra.Bench.Inteiro
import Syntra.Bench.Openzl
import Syntra.Bench.PlanoBloco
import Syntra.Bench.Remontagem
import Syntra.Bench.Varredura
import Syntra.Blockfile
import Syntra.Blockfile.Accepted
import Syntra.Blockfile.Atomic
import Syntra.Blockfile.Corrupted
import Syntra.Blockfile.Footer
import Syntra.Blockfile.Guard
import Syntra.Blockfile.OneBlock
import Syntra.Blockfile.Opened
import Syntra.Blockfile.Reader
import Syntra.Blockfile.Reopened
import Syntra.Blockfile.RoundTrip
import Syntra.Blockfile.Scan
import Syntra.Blockfile.Sound
import Syntra.Blockfile.Streaming
import Syntra.Blockfile.Varint
import Syntra.Blockfile.Writer
import Syntra.Codec
import Syntra.Codec.Exact
import Syntra.Codec.Indexed
import Syntra.Codec.Windows
import Syntra.Container
import Syntra.Container.Hostile
import Syntra.Container.Sealed
import Syntra.Container.Verified
import Syntra.Content
import Syntra.Database
import Syntra.DictStore
import Syntra.DictStore.Hostile
import Syntra.DictStore.Ids
import Syntra.DictStore.Lookup
import Syntra.DictStore.Runs
import Syntra.Engine
import Syntra.Engine.Calls
import Syntra.FramingCodecs
import Syntra.FramingPlatform
import Syntra.IoError
import Syntra.Lib.Coupling
import Syntra.Lib.Fallible
import Syntra.Lib.FileSystem
import Syntra.Lib.Grid
import Syntra.Lib.Grouped
import Syntra.Lib.Index
import Syntra.Lib.Interned
import Syntra.Lib.Leb128
import Syntra.Lib.Like
import Syntra.Lib.LittleEndian
import Syntra.Lib.Machine
import Syntra.Lib.Numpy
import Syntra.Lib.Percent
import Syntra.Lib.Permits
import Syntra.Lib.Pool
import Syntra.Lib.PrefixCode
import Syntra.Lib.Program
import Syntra.Lib.Protobuf
import Syntra.Lib.Ranking
import Syntra.Lib.RefCount
import Syntra.Lib.Run
import Syntra.Lib.Server
import Syntra.Lib.Slices
import Syntra.Lib.Table
import Syntra.Lib.Text
import Syntra.Lib.Tiling
import Syntra.Planner.Applicable
import Syntra.Planner.Best
import Syntra.Planner.Capped
import Syntra.Planner.Choose
import Syntra.Planner.Measure
import Syntra.Planner.Plan
import Syntra.Planner.Restore
import Syntra.Planner.Wider
import Syntra.Platform
import Syntra.Proto
import Syntra.Service
import Syntra.Service.Accounting
import Syntra.Service.Blocking
import Syntra.Service.Calm
import Syntra.Service.Coupled
import Syntra.Service.Dangling
import Syntra.Service.Disclosure
import Syntra.Service.Effects
import Syntra.Service.Essence
import Syntra.Service.Readable
import Syntra.Service.References
import Syntra.Service.Replay
import Syntra.Service.Retries
import Syntra.Service.Touched
import Syntra.Service.Twins
import Syntra.Tenancy
import Syntra.Tenancy.Authentication
import Syntra.Tenancy.Calls
import Syntra.Tenancy.Counting
import Syntra.Tenancy.Keys
import Syntra.Tenancy.Search
import Syntra.Tenancy.Tenants
import Syntra.Transform.Backward
import Syntra.Transform.ByteSplit
import Syntra.Transform.Chain
import Syntra.Transform.Csv
import Syntra.Transform.Delta
import Syntra.Transform.Growth
import Syntra.Transform.Indexed
import Syntra.Transform.Lossless
import Syntra.Transform.Rle
import Syntra.Usage
import Syntra.Usage.Quote
import Syntra.Usage.Recording
import Syntra.Usage.Snapshot
import Syntra.Usage.Totals
import Syntra.Usage.Windows
import Syntra.Vault
import Syntra.Vault.Publish
import Syntra.Vault.Reconcile
import Syntra.Watcher
import Syntra.Watcher.Invariant
import Syntra.Watcher.Once
import Syntra.Watcher.Path
import Syntra.Watcher.Removal
import Syntra.Watcher.Restart
import Syntra.Watcher.State
import Syntra.Watcher.System
import Syntra.Watcher.Tasks
