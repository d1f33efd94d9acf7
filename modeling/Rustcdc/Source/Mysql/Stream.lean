import Rustcdc.Runtime.State
import Rustcdc.Source.Mysql.Gtid

/-! The MySQL stream handle over decoded binlog messages: rows are held until their transaction
ends, and then all carry the position it ends at. -/
namespace Rustcdc.Mysql
structure MysqlRowChange where
  schema : Option String
  table : String
  primaryKey : Option (List String)
  before : Option Json
  after : Option Json
  deriving DecidableEq

inductive MysqlBinlogMessage
  | begin (txId timestampMs : UInt64)
  | writeRows (change : MysqlRowChange)
  | updateRows (change : MysqlRowChange)
  | deleteRows (change : MysqlRowChange)
  | xid (txId timestampMs : UInt64) (binlogFile : String) (binlogPos : UInt32) (gtid : Option String)
  | rotate (binlogFile : String) (binlogPos : UInt32)
  | gtid (gtid : String)
  | ddl (captured : CapturedDdl) (timestampMs : UInt64) (binlogFile : String) (binlogPos : UInt32)
  | truncate (schema : Option String) (table : String) (timestampMs : UInt64)
      (binlogFile : String) (binlogPos : UInt32)
  | heartbeat

structure MysqlStreamHandle where
  streaming : Bool
  sourceName : String
  binlogFile : String
  binlogPos : UInt32
  gtid : String
  currentTxId : Option UInt64
  currentCommitTs : UInt64
  partialTxEvents : List Event
  requeuedEvents : List Event
  /-- `table_is_allowed` at the configured include and exclude lists. -/
  tableIsAllowed : Option String → String → Bool

namespace MysqlStreamHandle
def new (sourceName binlogFile : String) (binlogPos : UInt32) (gtid : String)
    (tableIsAllowed : Option String → String → Bool) : MysqlStreamHandle where
  streaming := true
  sourceName := sourceName
  binlogFile := binlogFile
  binlogPos := binlogPos
  gtid := gtid
  currentTxId := none
  currentCommitTs := 0
  partialTxEvents := []
  requeuedEvents := []
  tableIsAllowed := tableIsAllowed

variable (h : MysqlStreamHandle)

def txMeta : Option TransactionMetadata :=
  h.currentTxId.map fun txId => ⟨txId,none,UInt32.ofNat h.partialTxEvents.length⟩
def sourceMeta : SourceMetadata :=
  ⟨h.sourceName,h.binlogFile++":"++String.ofList (formatNat 10 h.binlogPos.toNat),h.currentCommitTs⟩
def sourceMetaAt (binlogFile : String) (binlogPos : UInt32) (timestampMs : UInt64) : SourceMetadata :=
  ⟨h.sourceName,formatMysqlSourceOffset binlogFile binlogPos h.gtid,timestampMs⟩

def buildEvent (op : Operation) (change : MysqlRowChange) : Event where
  before := change.before
  after := change.after
  op := op
  source := h.sourceMeta
  ts := h.currentCommitTs
  schema := change.schema
  table := change.table
  primaryKey := change.primaryKey
  snapshot := none
  transaction := h.txMeta
  envelopeVersion := eventEnvelopeVersion
  beforeIsKeyOnly := false
  unavailableColumns := []
  beforeUnavailableColumns := []

/-- An event as its transaction's end leaves it. -/
def stamped (total : UInt32) (timestampMs : UInt64) (offset : String) (index : ℕ) (e : Event) : Event := {e with
    transaction := e.transaction.map fun tx =>
      {tx with totalEvents := some total, eventIndex := UInt32.ofNat index}
    ts := timestampMs
    source := {e.source with timestamp := timestampMs, offset := offset}}
section
variable (timestampMs : UInt64) (binlogFile : String) (binlogPos : UInt32)

/-- End the open transaction; its id is set and cleared again, and touches no event. -/
def commitCurrentTransaction (gtid : Option String) : MysqlStreamHandle × List Event :=
  let effectiveGtid := gtid.getD h.gtid
  ({h with
    binlogFile := binlogFile
    binlogPos := binlogPos
    gtid := effectiveGtid
    currentTxId := none
    currentCommitTs := 0
    partialTxEvents := []},
    h.partialTxEvents.mapIdx (stamped (UInt32.ofNat h.partialTxEvents.length) timestampMs
      (formatMysqlSourceOffset binlogFile binlogPos effectiveGtid)))

/-- A statement outside transactions ends the open one first; rows without one are dropped. -/
def implicitCommit : MysqlStreamHandle × List Event :=
  if h.partialTxEvents.isEmpty then (h,[])
  else
    match h.currentTxId with
    | some _ => h.commitCurrentTransaction timestampMs binlogFile binlogPos none
    | none => ({h with partialTxEvents := []},[])
end
def truncateEvent (schema : Option String) (table : String) (timestampMs : UInt64)
    (binlogFile : String) (binlogPos : UInt32) : Event where
  before := none
  after := none
  op := .truncate
  source := h.sourceMetaAt binlogFile binlogPos timestampMs
  ts := timestampMs
  schema := schema
  table := table
  primaryKey := none
  snapshot := none
  transaction := none
  envelopeVersion := eventEnvelopeVersion
  beforeIsKeyOnly := false
  unavailableColumns := []
  beforeUnavailableColumns := []

/-- Add a row event to the open transaction when its table is captured. -/
def pushRow (op : Operation) (change : MysqlRowChange) : MysqlStreamHandle :=
  if h.tableIsAllowed change.schema change.table then
    {h with partialTxEvents := h.partialTxEvents++[h.buildEvent op change]}
  else h

def processMessage : MysqlBinlogMessage → MysqlStreamHandle × List Event
  | .begin txId timestampMs =>
    ({h with currentTxId := some txId, currentCommitTs := timestampMs, partialTxEvents := []},[])
  | .writeRows change => (h.pushRow .insert change,[])
  | .updateRows change => (h.pushRow .update change,[])
  | .deleteRows change => (h.pushRow .delete change,[])
  | .xid _ timestampMs binlogFile binlogPos gtid =>
    h.commitCurrentTransaction timestampMs binlogFile binlogPos gtid
  | .rotate binlogFile binlogPos => ({h with binlogFile := binlogFile, binlogPos := binlogPos},[])
  | .gtid gtid => ({h with gtid := mergeGtidIntoSet h.gtid gtid},[])
  | .ddl captured timestampMs binlogFile binlogPos =>
    let ended := h.implicitCommit timestampMs binlogFile binlogPos
    let h := {ended.1 with binlogFile := binlogFile, binlogPos := binlogPos}
    (h,ended.2++if h.tableIsAllowed (some captured.schema) captured.table then
      [captured.toEvent h.sourceName (formatMysqlSourceOffset h.binlogFile h.binlogPos h.gtid) timestampMs]
      else [])
  | .truncate schema table timestampMs binlogFile binlogPos =>
    let ended := h.implicitCommit timestampMs binlogFile binlogPos
    let h := {ended.1 with binlogFile := binlogFile, binlogPos := binlogPos}
    (h,ended.2++if h.tableIsAllowed schema table then
      [h.truncateEvent schema table timestampMs binlogFile binlogPos]
      else [])
  | .heartbeat => (h,[])

def processMessages (h : MysqlStreamHandle) : List MysqlBinlogMessage → MysqlStreamHandle × List Event
  | [] => (h,[])
  | message::messages =>
    let one := h.processMessage message
    let rest := one.1.processMessages messages
    (rest.1,one.2++rest.2)

/-- The polling loop, over the provider polls the caller's budget allows. -/
def passes (h : MysqlStreamHandle) :
    List (Except Error (List MysqlBinlogMessage)) → MysqlStreamHandle × Except Error (List Event)
  | [] => (h,.ok [])
  | .error e::_ => (h,.error e)
  | .ok messages::polls =>
    match h.processMessages messages with
    | (h,[]) => h.passes polls
    | (h,events) => (h,.ok events)

def nextEvents (polls : List (Except Error (List MysqlBinlogMessage))) :
    MysqlStreamHandle × Except Error (List Event) :=
  if !h.streaming then
    (h,.error (.stateError "mysql stream polling requested while stream is not running"))
  else if !h.requeuedEvents.isEmpty then ({h with requeuedEvents := []},.ok h.requeuedEvents)
  else h.passes polls

def positionOffset : Option Offset := some (.mysql h.sourceName h.sourceName h.binlogFile h.binlogPos h.gtid none)
end MysqlStreamHandle
instance : StreamHandle MysqlStreamHandle where
  Answer := List (Except Error (List MysqlBinlogMessage))
  nextEvents := MysqlStreamHandle.nextEvents
  confirmLsn h _ _ := (h,.ok ())
  resumeOffsetFor _ _ := none
  positionOffset := MysqlStreamHandle.positionOffset
  incrementalSnapshotState _ := none
end Rustcdc.Mysql
