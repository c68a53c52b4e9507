import ContinuoRuntime.Contract.Escapes
import ContinuoRuntime.Contract.Gates
import ContinuoRuntime.Contract.Selection
import ContinuoRuntime.CsvHeader
import ContinuoRuntime.ReadTokens
import ContinuoRuntime.UpsertKeys
import ContinuoRuntime.ResultBlock
import ContinuoRuntime.Postgres.DeclaredIndexes
import ContinuoRuntime.Postgres.Tripwire
import ContinuoRuntime.Postgres.IndexChecks
import ContinuoRuntime.Postgres.EnsureSchema
import ContinuoRuntime.CsvGate
import ContinuoRuntime.Trino.EnsureSchema
import ContinuoRuntime.Shape
import ContinuoRuntime.ClosureReach
import ContinuoRuntime.Contract.ConfigGraph
import ContinuoRuntime.LintSql
import ContinuoRuntime.ReadWrap
import ContinuoRuntime.SearchPath
import ContinuoRuntime.Postgres.InsertStatement
import ContinuoRuntime.Postgres.Truncation
import ContinuoRuntime.DuckDb.Redaction
import ContinuoRuntime.DuckDb.Conninfo
import ContinuoRuntime.Loading
import ContinuoRuntime.Lib.Agree
import ContinuoRuntime.Contract.KeyOrder
import ContinuoRuntime.Contract.SameNode
import ContinuoRuntime.Contract.Release
import ContinuoRuntime.DuckDb.EnsureTable
import ContinuoRuntime.Harness.Adapter
import ContinuoRuntime.Harness.Gates
import ContinuoRuntime.Harness.Outcome
import ContinuoRuntime.Trino.History
import ContinuoRuntime.UpsertRuns
import ContinuoRuntime.Validation.Order
import ContinuoRuntime.Validation.Outcome
import ContinuoRuntime.Validation.Orderly
import ContinuoRuntime.Libpq
import ContinuoRuntime.Postgres.Connect
import ContinuoRuntime.DuckDb.Session
import ContinuoRuntime.Trino.Connect
