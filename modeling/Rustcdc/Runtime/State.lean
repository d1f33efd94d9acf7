import Rustcdc.Core.Idempotency
import Rustcdc.Core.Position
import Rustcdc.Checkpoint.Barrier

/-! The runtime's state, its configuration, and the handles it drives.  What a handle learns
from its server in one call is an `Answer`, so a handle is a deterministic machine over
answers. -/
namespace Rustcdc
structure IncrementalSnapshotTableState where
  table : String
  pkCursor : Option (List Json)
  isComplete : Bool
  chunksEmitted : UInt32
  rowsEmitted : UInt64
  condition : Option String
  deriving DecidableEq

structure IncrementalSnapshotState where
  snapshotId : String
  tables : List IncrementalSnapshotTableState
  paused : Bool
  stopped : Bool
  generation : UInt32
  deriving DecidableEq

structure TableSnapshot where
  table : String
  totalRows : UInt64
  rowsProcessed : UInt64
  cursorPosition : Option String
  isComplete : Bool
  deriving DecidableEq

/-- What a bulk snapshot persists about its progress. -/
structure SnapshotCheckpointState where
  snapshotId : String
  snapshotStartTs : UInt64
  snapshotEndTs : UInt64
  snapshotWatermark : UInt64
  currentTable : ℕ
  nextChunkIndex : UInt32
  tables : List TableSnapshot
  deriving DecidableEq

/-- A durable position, by the connector that encodes it. -/
inductive Offset
  | postgres (lsn : UInt64) (slotName : String) (incremental : Option IncrementalSnapshotState)
  | mysql (sourceType flavor binlogFile : String) (binlogPos : UInt32) (gtid : String)
      (incremental : Option IncrementalSnapshotState)
  | sqlserver (position : String) (incremental : Option IncrementalSnapshotState)
  | snapshot (sourceType : String) (state : SnapshotCheckpointState)
  /-- Where a MySQL or MariaDB bulk snapshot stands in the binlog. -/
  | mysqlSnapshot (sourceType binlogFile : String) (binlogPos : UInt32) (gtid : String)
  /-- Where a SQL Server bulk snapshot stands in the log. -/
  | sqlserverSnapshot (lsnStart : List UInt8)
  | generic (sourceType value : String)
  deriving DecidableEq

/-- A change stream.  A call's answers fix what the server does during it. -/
class StreamHandle (H : Type) where
  Answer : Type
  nextEvents : H → Answer → H × Except Error (List Event)
  confirmLsn : H → UInt64 → Except Error Unit → H × Except Error Unit
  resumeOffsetFor : H → Event → Option String
  positionOffset : H → Option Offset
  incrementalSnapshotState : H → Option IncrementalSnapshotState

/-- A custom stream that returns what its server hands it. -/
structure ScriptedStream where

instance : StreamHandle ScriptedStream where
  Answer := Except Error (List Event)
  nextEvents h answer := (h,answer)
  confirmLsn h _ answer := (h,answer)
  resumeOffsetFor _ _ := none
  positionOffset _ := none
  incrementalSnapshotState _ := none

/-- A bulk snapshot. -/
class SnapshotHandle (S : Type) where
  Answer : Type
  nextChunk : S → ℕ → Answer → S × Except Error (List Event)
  checkpoint : S → UInt64 → Except Error Unit → Checkpoint Offset → Checkpoint Offset × Except Error Unit

/-- The handover from a finished snapshot to the stream. -/
class Handoff (S H : Type) where
  Answer : Type
  performHandoff : S → H → Answer → S × H × Except Error Unit

inductive RuntimeState
  | idle | running | stopping | stopped
  deriving DecidableEq

inductive TransformErrorPolicy
  | halt | skip
  deriving DecidableEq

inductive PostCommitSourceConfirmPolicy
  | continue | failFast
  deriving DecidableEq

inductive TransactionBoundaryPolicy
  | split | preserveTransactions
  deriving DecidableEq

/-- The retry policy; its delays only decide when the loop runs again. -/
structure ConnectionRetryPolicy where
  maxRetries : Option ℕ

/-- Options the runtime accepts: `CdcRuntime::new` refuses a zero buffer, and a size is a
machine word. -/
structure RuntimeOptions where
  maxBufferSize : ℕ
  maxEventBytes : Option ℕ
  transformErrorPolicy : TransformErrorPolicy
  postCommitSourceConfirmPolicy : PostCommitSourceConfirmPolicy
  validateEvents : Bool
  connectionRetry : Option ConnectionRetryPolicy
  transactionBoundary : TransactionBoundaryPolicy
  bufferPos : 0 < maxBufferSize
  bufferWord : maxBufferSize < 2^64

inductive RuntimeSourceConfig
  | postgres (replicationSlotName : String)
  | mysql
  | mariadb
  | sqlserver
  | disabled
  | custom
  deriving DecidableEq

def RuntimeSourceConfig.sourceType : RuntimeSourceConfig → Option String
  | .postgres _ => some "postgres"
  | .mysql => some "mysql"
  | .mariadb => some "mariadb"
  | .sqlserver => some "sqlserver"
  | .disabled | .custom => none

def RuntimeSourceConfig.isPostgres : RuntimeSourceConfig → Bool
  | .postgres _ => true
  | _ => false

/-- User transforms: `none` leaves an event out. -/
structure TransformPipeline where
  isEmpty : Bool
  apply : Event → Except Error (Option Event)
  applyBatch : List Event → Except Error (List Event)

structure RuntimeConfig where
  source : RuntimeSourceConfig
  incrementalSnapshot : Bool
  options : RuntimeOptions
  transformPipeline : TransformPipeline
  /-- The 64-bit hash behind the transient fingerprint. -/
  hash : FingerprintImage → UInt64

structure AckToken where
  deliveryId : UInt64
  eventCount : ℕ
  epoch : UInt64
  deriving DecidableEq

def AckToken.acceptPrefix (token : AckToken) (acceptedCount : ℕ) : Except Error AckToken :=
  if acceptedCount = 0 ∨ token.eventCount < acceptedCount then
    .error (.checkpointError ("ack token prefix must be between 1 and the token length ("++
        toString token.eventCount++"), got "++toString acceptedCount))
  else .ok {token with eventCount := acceptedCount}

inductive AckMode
  | required (token : AckToken)
  | notRequired
  deriving DecidableEq

/-- A delivered batch: the caller sees the events from `offset` on. -/
structure EventBatch where
  events : List Event
  offset : ℕ
  ackToken : Option AckToken

namespace EventBatch
def empty : EventBatch := ⟨[],0,none⟩
def visible (batch : EventBatch) : List Event := batch.events.drop batch.offset
def isEmpty (batch : EventBatch) : Bool := batch.visible.isEmpty

def ackMode (batch : EventBatch) : AckMode :=
  match batch.ackToken with
  | some token => .required token
  | none => .notRequired
end EventBatch
structure PendingDelivery where
  deliveryId : UInt64
  events : List Event
  committedPrefix : ℕ
  ackEpoch : UInt64

def PendingDelivery.remaining (pending : PendingDelivery) : List Event := pending.events.drop pending.committedPrefix

structure CdcRuntime (S H : Type) where
  config : RuntimeConfig
  state : RuntimeState
  injectedEvents : List Event
  pendingSourceEvents : List Event
  bufferedEvents : List Event
  deliveredNotCommitted : ℕ
  nextDeliveryId : UInt64
  pendingDelivery : Option PendingDelivery
  commitBarrier : CommitBarrier Offset
  checkpoint : Checkpoint Offset
  snapshot : Option S
  stream : Option H
  handoffComplete : Bool
  idempotencyGuard : Option EventIdempotencyGuard
  pendingConfirmationLsn : Option UInt64
  unconfirmedStallPolls : ℕ

/-- A runtime just started on its handles, with the count hydrated from the checkpoint. -/
def CdcRuntime.started {S H : Type} (config : RuntimeConfig) (checkpoint : Checkpoint Offset)
    (committed : UInt64) (guard : Option EventIdempotencyGuard) (snapshot : Option S)
    (stream : Option H) : CdcRuntime S H where
  config := config
  state := .running
  injectedEvents := []
  pendingSourceEvents := []
  bufferedEvents := []
  deliveredNotCommitted := 0
  nextDeliveryId := 1
  pendingDelivery := none
  commitBarrier := ⟨[],.opened,config.options.maxBufferSize,committed⟩
  checkpoint := checkpoint
  snapshot := snapshot
  stream := stream
  handoffComplete := snapshot.isNone
  idempotencyGuard := guard
  pendingConfirmationLsn := none
  unconfirmedStallPolls := 0
end Rustcdc
