import Rustcdc.Runtime.State
import Rustcdc.Source.Postgres.Message

/-! The PostgreSQL stream handle over its two transports: transactions are released at their
COMMIT, positions are confirmed by the caller, for filtered transactions by the handle itself,
and while idle. -/
namespace Rustcdc.Postgres
/-- The WAL transport.  The streaming protocol pushes every record once; the peek re-reads the
slot from its confirmed position. -/
inductive Provider
  | streaming (appliedLsn serverWalEnd : UInt64)
  | peek (confirmedLsn : UInt64)

inductive WalMessage
  | xlogData (walEnd : UInt64) (record : PgOutputXLogData)
  | keepalive (walEnd : UInt64)

inductive PollOutcome
  | data (rows : List PgOutputXLogData)
  | timedOut

/-- What the server does during one provider poll. -/
structure PollAnswer where
  messages : List WalMessage
  failure : Option Error
  timedOut : Bool

structure IdleAnswer where
  /-- `pg_current_wal_lsn()`, asked only by the peek transport. -/
  currentLsn : Except Error (Option UInt64)
  advance : Except Error Unit

def WalMessage.walEnd : WalMessage → UInt64
  | .xlogData walEnd _ => walEnd
  | .keepalive walEnd => walEnd
def WalMessage.record? : WalMessage → Option PgOutputXLogData
  | .xlogData _ record => some record
  | .keepalive _ => none

namespace PollOutcome
def isCaughtUp : PollOutcome → Bool
  | .data rows => rows.isEmpty
  | .timedOut => false
def intoRows : PollOutcome → List PgOutputXLogData
  | .data rows => rows
  | .timedOut => []
end PollOutcome
namespace Provider
/-- The position the provider has reported, or will report, as durable. -/
def position : Provider → UInt64
  | .streaming appliedLsn _ => appliedLsn
  | .peek confirmedLsn => confirmedLsn

variable (p : Provider)

def pollXlogData (answer : PollAnswer) : Provider × Except Error PollOutcome :=
  match p with
  | .streaming appliedLsn serverWalEnd =>
    (.streaming appliedLsn ((answer.messages.map (·.walEnd)).foldl max serverWalEnd),
      match answer.failure with
      | some e => .error e
      | none => .ok (.data (answer.messages.filterMap (·.record?))))
  | .peek confirmedLsn =>
    (.peek confirmedLsn,
      match answer.failure with
      | some e => .error e
      | none =>
        if answer.timedOut then .ok .timedOut
        else .ok (.data (answer.messages.filterMap (·.record?))))

def confirmLsn (lsn : UInt64) (answer : Except Error Unit) : Provider × Except Error Unit :=
  match p with
  | .streaming appliedLsn serverWalEnd =>
    -- the position is raised before the status update that reports it is sent
    (.streaming (max appliedLsn lsn) serverWalEnd,if appliedLsn < lsn then answer else .ok ())
  | .peek confirmedLsn =>
    if lsn < confirmedLsn then (.peek confirmedLsn,.ok ())
    else
      match answer with
      | .ok () => (.peek lsn,.ok ())
      | .error e => (.peek confirmedLsn,.error e)

def idleAdvance (answer : IdleAnswer) : Provider × Except Error Unit :=
  match p with
  | .streaming appliedLsn serverWalEnd =>
    if appliedLsn < serverWalEnd then
      (.streaming (max appliedLsn serverWalEnd) serverWalEnd,answer.advance)
    else (.streaming appliedLsn serverWalEnd,.ok ())
  | .peek confirmedLsn =>
    match answer.currentLsn with
    | .error e => (.peek confirmedLsn,.error e)
    | .ok none => (.peek confirmedLsn,.ok ())
    | .ok (some current) =>
      if confirmedLsn < current then
        match answer.advance with
        | .ok () => (.peek current,.ok ())
        | .error e => (.peek confirmedLsn,.error e)
      else (.peek confirmedLsn,.ok ())
end Provider
structure PostgresStreamHandle where
  streaming : Bool
  slotName : String
  lsnPosition : UInt64
  provider : Provider
  decoder : Decoder
  committedTxEnds : List (UInt64 × UInt64)
  slotIdleAdvanceIntervalMs : UInt64
  /-- `table_is_allowed` at the configured include and exclude lists. -/
  tableIsAllowed : Option String → String → Bool

structure PassAnswer where
  poll : PollAnswer
  confirm : Except Error Unit
  /-- The lag measurement, when one is due. -/
  slotLag : Option (Except Error Unit)
  idleDue : Bool
  idle : IdleAnswer

namespace PostgresStreamHandle
def new (sourceName slotName : String) (lsnPosition : UInt64) (provider : Provider)
    (slotIdleAdvanceIntervalMs : UInt64) (tableIsAllowed : Option String → String → Bool)
    (catalogPrimaryKeys : List ((String × String) × List String)) : PostgresStreamHandle where
  streaming := true
  slotName := slotName
  lsnPosition := lsnPosition
  provider := provider
  decoder := ⟨sourceName,[],catalogPrimaryKeys,none,0,[]⟩
  committedTxEnds := []
  slotIdleAdvanceIntervalMs := slotIdleAdvanceIntervalMs
  tableIsAllowed := tableIsAllowed

def maxTrackedTxEnds : ℕ := 100000

/-- The queue of transaction ends with one more, the oldest dropped past the cap. -/
def trackTxEnd (ends : List (UInt64 × UInt64)) (txId endLsn : UInt64) : List (UInt64 × UInt64) :=
  let ends := ends++[(txId,endLsn)]
  ends.drop (ends.length-maxTrackedTxEnds)

def withTotal (total : UInt32) (e : Event) : Event :=
  {e with transaction := e.transaction.map ({· with totalEvents := some total})}

def protocolViolation (tag : UInt8) : Error :=
  .sourceError ("postgres sent pgoutput message '"++String.ofList [Char.ofNat tag.toNat]++"' (0x"++
    String.ofList (padZeros 2 (Nat.toDigits 16 tag.toNat))++"), which "++
    "belongs to protocol version 2 or 3, but this connector "++
    "negotiated proto_version 1 and cannot interpret it. "++
    "Skipping it would misrepresent transaction boundaries — "++
    "and skipping a Stream Abort would commit data the source "++
    "rolled back. This indicates a server/plugin mismatch.")

/-- Tags of the streaming and two-phase protocols: `S E c A p b P K r`. -/
def protocolTags : List UInt8 := [83,69,99,65,112,98,80,75,114]

variable (h : PostgresStreamHandle)

/-- Add a row event to the open transaction when its table is captured. -/
def pushRow (oid : UInt32) (event : Except Error Event) : PostgresStreamHandle × Except Error (List Event) :=
  if h.tableIsAllowed (h.decoder.relationSchema oid) (h.decoder.relationTableName oid) then
    match event with
    | .error e => (h,.error e)
    | .ok event =>
      ({h with decoder := {h.decoder with
        partialTxEvents := h.decoder.partialTxEvents++[event]}},.ok [])
  else (h,.ok [])

def processRelation (r : PgRelation) (lsn now : UInt64) : PostgresStreamHandle × Except Error (List Event) :=
  let changed := match h.decoder.relation r.oid with
    | some existing => existing ≠ r
    | none => false
  let d := {h.decoder with relationMap := (r.oid,r)::h.decoder.relationMap}
  if changed && h.tableIsAllowed (some r.namespace) r.name then
    let event := d.buildRelationSchemaChangeEvent r lsn now
    if d.currentXid.isSome then
      ({h with decoder := {d with
        partialTxEvents := d.partialTxEvents++[{event with transaction := d.txMeta}]}},.ok [])
    else ({h with decoder := d},.ok [event])
  else ({h with decoder := d},.ok [])

def processCommit (commit : PgCommit) : PostgresStreamHandle × Except Error (List Event) := ({h with
    lsnPosition := commit.endLsn
    committedTxEnds := match h.decoder.currentXid with
      | some xid => trackTxEnd h.committedTxEnds xid.toUInt64 commit.endLsn
      | none => h.committedTxEnds
    decoder := {h.decoder with
      currentXid := none
      currentCommitTs := 0
      partialTxEvents := []}},
    .ok (h.decoder.partialTxEvents.map (withTotal (UInt32.ofNat h.decoder.partialTxEvents.length))))

def processMessage (item : PgOutputXLogData) : PostgresStreamHandle × Except Error (List Event) :=
  match item.data with
  | .error e => (h,.error e)
  | .ok (.begin b) =>
    ({h with decoder := {h.decoder with
      currentXid := some b.xid
      currentCommitTs := pgTimestampToMillis b.commitTimestampUs
      partialTxEvents := []}},.ok [])
  | .ok (.commit c) => h.processCommit c
  | .ok (.relation r) => h.processRelation r item.lsn item.now
  | .ok (.insert oid newTuple) => h.pushRow oid (h.decoder.buildInsertEvent oid newTuple item.lsn)
  | .ok (.update u) => h.pushRow u.relationOid (h.decoder.buildUpdateEvent u item.lsn)
  | .ok (.delete d) => h.pushRow d.relationOid (h.decoder.buildDeleteEvent d item.lsn)
  | .ok (.truncate oids) =>
    let events := (h.decoder.buildTruncateEvents oids item.lsn).filter fun e => h.tableIsAllowed e.schema e.table
    ({h with decoder := {h.decoder with
      partialTxEvents := h.decoder.partialTxEvents++events}},.ok [])
  | .ok (.unknown tag) =>
    if protocolTags.contains tag then (h,.error (protocolViolation tag)) else (h,.ok [])

/-- Process a poll's records in order.  An error drops what the records before it released. -/
def processMessages (h : PostgresStreamHandle) :
    List PgOutputXLogData → PostgresStreamHandle × Except Error (List Event)
  | [] => (h,.ok [])
  | item::items =>
    match h.processMessage item with
    | (h,.error e) => (h,.error e)
    | (h,.ok released) =>
      match h.processMessages items with
      | (h,.error e) => (h,.error e)
      | (h,.ok rest) => (h,.ok (released++rest))

/-- Run a provider call; an error ends the pass. -/
def withProvider (r : Provider × Except Error Unit) : PostgresStreamHandle × Option (Except Error (List Event)) :=
  ({h with provider := r.1},
    match r.2 with
    | .ok () => none
    | .error e => some (.error e))

def sampleSlotLag (answer : Option (Except Error Unit)) : PostgresStreamHandle × Option (Except Error (List Event)) :=
  match answer with
  | some (.error e) => (h,some (.error e))
  | _ => (h,none)

/-- The part of a pass after records that released nothing: the slot is moved past
transactions that held no captured change. -/
def confirmFiltered (lsnBefore : UInt64) (answer : PassAnswer) :
    PostgresStreamHandle × Option (Except Error (List Event)) :=
  if lsnBefore < h.lsnPosition then
    match h.withProvider (h.provider.confirmLsn h.lsnPosition answer.confirm) with
    | (h,some r) => (h,some r)
    | (h,none) => h.sampleSlotLag answer.slotLag
  else h.sampleSlotLag answer.slotLag

/-- The part of a pass that read no records. -/
def idlePass (caughtUp : Bool) (answer : PassAnswer) : PostgresStreamHandle × Option (Except Error (List Event)) :=
  match h.sampleSlotLag answer.slotLag with
  | (h,some r) => (h,some r)
  | (h,none) =>
    if caughtUp && 0 < h.slotIdleAdvanceIntervalMs && answer.idleDue then
      h.withProvider (h.provider.idleAdvance answer.idle)
    else (h,none)

/-- The records a pass reads. -/
def passRows (answer : PassAnswer) : List PgOutputXLogData :=
  match (h.provider.pollXlogData answer.poll).2 with
  | .ok outcome => outcome.intoRows
  | .error _ => []

/-- One pass of the polling loop: `none` means the loop goes on while the budget lasts. -/
def pass (answer : PassAnswer) : PostgresStreamHandle × Option (Except Error (List Event)) :=
  match h.provider.pollXlogData answer.poll with
  | (provider,.error e) => ({h with provider := provider},some (.error e))
  | (provider,.ok outcome) =>
    let h := {h with provider := provider}
    if outcome.intoRows.isEmpty then h.idlePass outcome.isCaughtUp answer
    else
      match h.processMessages outcome.intoRows with
      | (h',.error e) => (h',some (.error e))
      | (h',.ok []) => h'.confirmFiltered h.lsnPosition answer
      | (h',.ok events) => (h',some (.ok events))

/-- The loop, over the passes the caller's budget allows. -/
def passes (h : PostgresStreamHandle) : List PassAnswer → PostgresStreamHandle × Except Error (List Event)
  | [] => (h,.ok [])
  | answer::answers =>
    match h.pass answer with
    | (h,some r) => (h,r)
    | (h,none) => h.passes answers

def nextEvents (answers : List PassAnswer) : PostgresStreamHandle × Except Error (List Event) :=
  if !h.streaming then
    (h,.error (.stateError "postgres stream polling requested while stream is not running"))
  else h.passes answers

def resumeOffsetFor (event : Event) : Option String := event.transaction.bind fun tx =>
    (h.committedTxEnds.reverse.lookup tx.txId).map formatPgLsn

def confirmLsn (lsn : UInt64) (answer : Except Error Unit) : PostgresStreamHandle × Except Error Unit :=
  match h.provider.confirmLsn lsn answer with
  | (provider,.error e) => ({h with provider := provider},.error e)
  | (provider,.ok ()) =>
    ({h with
      provider := provider
      committedTxEnds := h.committedTxEnds.filter (lsn < ·.2)},.ok ())

def positionOffset : Option Offset := some (.postgres h.lsnPosition h.slotName none)
end PostgresStreamHandle
instance : StreamHandle PostgresStreamHandle where
  Answer := List PassAnswer
  nextEvents := PostgresStreamHandle.nextEvents
  confirmLsn := PostgresStreamHandle.confirmLsn
  resumeOffsetFor := PostgresStreamHandle.resumeOffsetFor
  positionOffset := PostgresStreamHandle.positionOffset
  incrementalSnapshotState _ := none
end Rustcdc.Postgres
