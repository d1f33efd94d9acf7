import Rustcdc.Core.GuardWindow
import Rustcdc.Core.RowWrite
import Rustcdc.Checkpoint.BarrierRun
import Rustcdc.Checkpoint.LeaseExclusion
import Rustcdc.Runtime.BatchViews
import Rustcdc.Runtime.ForceStop
import Rustcdc.Source.Postgres.IncrementalSnapshot
import Rustcdc.Source.Postgres.Mutual
import Rustcdc.Source.Postgres.SnapshotCommit
import Rustcdc.Source.Mysql.BinlogOrder
import Rustcdc.Source.Mysql.Committed
import Rustcdc.Source.Mysql.GtidDenotation
import Rustcdc.Source.Mysql.GtidPosition
import Rustcdc.Source.Mysql.StatementEvents
import Rustcdc.Source.Sqlserver.KeyCursor
import Rustcdc.Source.Sqlserver.Restart
import Rustcdc.Source.Sqlserver.SchemaEvents
import Rustcdc.Source.Sqlserver.Truncate
import Rustcdc.Source.Incremental.Condition
import Rustcdc.Source.Incremental.Identity
import Rustcdc.Source.Incremental.Keyset
import Rustcdc.Source.Incremental.Positions
import Rustcdc.Source.Incremental.Progress
import Rustcdc.Source.Incremental.Tables
import Rustcdc.Source.Reconnect
import Rustcdc.Source.SnapshotStart
import Rustcdc.Transform.Noninterference
import Rustcdc.Transform.Unwrap
import Rustcdc.Sink.FileDurable
import Rustcdc.SchemaHistory.Durable
import Rustcdc.SchemaHistory.Invariants
import Rustcdc.Codec.ProtoSchema
