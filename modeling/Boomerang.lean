import Boomerang.Dialect.Constraints
import Boomerang.Dialect.Defaults
import Boomerang.Dialect.IndexNames
import Boomerang.Dialect.Introspection
import Boomerang.Dialect.MigratedConstraints
import Boomerang.Dialect.Migration
import Boomerang.Dialect.Namespaces
import Boomerang.Dialect.Opening
import Boomerang.Dialect.Plan
import Boomerang.Dialect.PostgresDatabase
import Boomerang.Dialect.PrimaryKeys
import Boomerang.Dialect.RecordIds
import Boomerang.Dialect.Removal
import Boomerang.Dialect.Restarts
import Boomerang.Dialect.SqlText
import Boomerang.Dialect.SqliteDatabase
import Boomerang.Dialect.SqliteDdl
import Boomerang.Dialect.SqliteFile
import Boomerang.Dialect.SqliteRuns
import Boomerang.Dialect.SyncLog
import Boomerang.Dialect.TableShape
import Boomerang.Dialect.TriggerFunctions
import Boomerang.Dialect.TriggerRuns
import Boomerang.Dialect.TriggerText
import Boomerang.Dialect.UniqueIndexes
import Boomerang.Dialect.Writers
import Boomerang.Foundation.BinarySearch
import Boomerang.Foundation.ByteMemory
import Boomerang.Foundation.Catalog
import Boomerang.Foundation.Clipping
import Boomerang.Foundation.Compaction
import Boomerang.Foundation.Cycles
import Boomerang.Foundation.EqualKeys
import Boomerang.Foundation.Fallible
import Boomerang.Foundation.FloatBits
import Boomerang.Foundation.Lexing
import Boomerang.Foundation.LittleEndian
import Boomerang.Foundation.Marking
import Boomerang.Foundation.OuterJoin
import Boomerang.Foundation.Overwriting
import Boomerang.Foundation.PointerWalk
import Boomerang.Foundation.Quoting
import Boomerang.Foundation.Reader
import Boomerang.Foundation.ReleaseAcquire
import Boomerang.Foundation.Runs
import Boomerang.Foundation.SelfDelimiting
import Boomerang.Foundation.TopologicalSort
import Boomerang.Foundation.Transition
import Boomerang.Foundation.Utf8
import Boomerang.Interner.Arena
import Boomerang.Interner.CacheSlots
import Boomerang.Interner.CacheTransparency
import Boomerang.Interner.CachedCalls
import Boomerang.Interner.CallRuns
import Boomerang.Interner.ChunkMemo
import Boomerang.Interner.Concurrency
import Boomerang.Interner.Decoding
import Boomerang.Interner.DecodingTurns
import Boomerang.Interner.Export
import Boomerang.Interner.Failures
import Boomerang.Interner.ForeignSymbols
import Boomerang.Interner.Insertion
import Boomerang.Interner.Interface
import Boomerang.Interner.Interning
import Boomerang.Interner.Layout
import Boomerang.Interner.LengthLimit
import Boomerang.Interner.Lookup
import Boomerang.Interner.LookupCache
import Boomerang.Interner.MemoryPool
import Boomerang.Interner.Offsets
import Boomerang.Interner.Padding
import Boomerang.Interner.PlacedArray
import Boomerang.Interner.RebuiltUniqueness
import Boomerang.Interner.Room
import Boomerang.Interner.Serialization
import Boomerang.Interner.SkippedRecords
import Boomerang.Interner.SlotOwners
import Boomerang.Interner.StringArray
import Boomerang.Interner.StringInterner
import Boomerang.Interner.Symbol
import Boomerang.Interner.TwoRuns
import Boomerang.Interner.UncheckedDecoding
import Boomerang.Interner.WeakAnswers
import Boomerang.Interner.WeakCalls
import Boomerang.Interner.WeakChunks
import Boomerang.Interner.WeakExport
import Boomerang.Interner.WeakFrames
import Boomerang.Interner.WeakInsertions
import Boomerang.Interner.WeakInvariant
import Boomerang.Interner.WeakMeetings
import Boomerang.Interner.WeakMemory
import Boomerang.Interner.WeakMoves
import Boomerang.Interner.WeakProgress
import Boomerang.Interner.WeakRaces
import Boomerang.Interner.WeakReads
import Boomerang.Interner.WeakRecords
import Boomerang.Interner.WeakRuns
import Boomerang.Interner.WeakSteps
import Boomerang.Interner.WeakViews
import Boomerang.Interner.WeakWaiting
import Boomerang.Interner.WeakWrites
import Boomerang.Machine
import Boomerang.Schema.AddedColumns
import Boomerang.Schema.Builder
import Boomerang.Schema.Built
import Boomerang.Schema.Codec
import Boomerang.Schema.Completion
import Boomerang.Schema.DatabaseSchema
import Boomerang.Schema.Decoded
import Boomerang.Schema.Decoding
import Boomerang.Schema.DependencyOrder
import Boomerang.Schema.ForeignKeys
import Boomerang.Schema.InternerCalls
import Boomerang.Schema.KnownStrings
import Boomerang.Schema.Lookup
import Boomerang.Schema.NameLookup
import Boomerang.Schema.Naming
import Boomerang.Schema.Reencoding
import Boomerang.Schema.Resolution
import Boomerang.Schema.RoundTrip
import Boomerang.Schema.TableCount
import Boomerang.Schema.TableGroups
import Boomerang.Schema.TableSets
import Boomerang.Schema.Truncation
import Boomerang.Schema.TypeNames
import Boomerang.Schema.Types
import Boomerang.Schema.UncheckedCodec
import Boomerang.Schema.Value
import Boomerang.Schema.WellFormed
import Boomerang.Sync.MergeJoin
import Boomerang.Sync.Settlement
import Boomerang.Sync.TableKey
import Boomerang.Sync.TruthTable
import Boomerang.Sync.UnknownTables
