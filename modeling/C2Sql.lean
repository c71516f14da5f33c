import C2Sql.Lib.SqlLexer
import C2Sql.Lib.SqlExpr
import C2Sql.Lib.SnapshotStack
import C2Sql.Lib.Links
import C2Sql.Lib.Ledger
import C2Sql.Basic
import C2Sql.Condition
import C2Sql.QueryBuilder
import C2Sql.StmtCache
import C2Sql.CacheSpec
import C2Sql.Lib.Lru
import C2Sql.CacheRefinement
import C2Sql.Handle
import C2Sql.SchemaRegistry
import C2Sql.TypeMapping
import C2Sql.Migration
import C2Sql.Drivers
import C2Sql.QueryText
import C2Sql.Injection
import C2Sql.WhereClause
import C2Sql.Statements
import C2Sql.Execution
import C2Sql.Transactions
import C2Sql.WriteMany
import C2Sql.Reading
import C2Sql.Lockstep
import C2Sql.Transparency
import C2Sql.Api.Rows
import C2Sql.Api.Cursors
import C2Sql.Api.Handles
import C2Sql.Api.Calls
import C2Sql.Frame
import C2Sql.Registration
import C2Sql.Locking
import C2Sql.Iterators
import C2Sql.Closing
import C2Sql.PgCatalog
import C2Sql.SpecTool
import C2Sql.SpecValidation
import C2Sql.Operations
import C2Sql.RowRoundTrip
import C2Sql.RowBounds
import C2Sql.NestedBatches
import C2Sql.BlobFields
import C2Sql.BlobLengths
import C2Sql.BufferedRead
import C2Sql.CacheResize
import C2Sql.Iteration
import C2Sql.RegistryRuns
import C2Sql.RowIdentity
import C2Sql.StrictOption
import C2Sql.TypeClasses
import C2Sql.UniqueFlags
import C2Sql.TableSync
import C2Sql.StatementLedger
import C2Sql.RegisterTables
import C2Sql.StatementAccounting
import C2Sql.StoreModel
import C2Sql.StoreSteps
import C2Sql.LastError
import C2Sql.StoreRefinement
import C2Sql.StoreRuns
import C2Sql.ReadBack
import C2Sql.CapacityGuard
import C2Sql.GuardedWrites
import C2Sql.StructFrames
