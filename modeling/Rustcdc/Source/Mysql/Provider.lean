import Rustcdc.Source.Mysql.Parser
import Rustcdc.Source.Mysql.Stream

/-! The live binlog: events as the server sends them, decoded into messages, and the stream handle fed
by its polls.  The decoder keeps a transaction open of its own. -/
namespace Rustcdc.Mysql
open Ddl (ColumnParser extractCapturedDdl)

inductive RowsKind
  | write | update | delete
  deriving DecidableEq

/-- What a binlog event holds.  A query comes with the default database of its session, the rows of an
event as its table map decodes them. -/
inductive EventData
  | query (schema statement : String)
  | rows (kind : RowsKind) (decoded : Except Error (List MysqlRowChange))
  | xid (xid : UInt64)
  | rotate (name : String) (position : UInt64)
  | gtid (gtid : String)
  | mariadb (eventType : UInt8) (serverId : UInt32) (data : List UInt8)
  | heartbeat
  | other

structure BinlogEvent where
  logPos : UInt32
  timestamp : UInt32
  data : EventData

/-- `u64::from_le_bytes` and `u32::from_le_bytes`. -/
def fromLeBytes : List UInt8 → ℕ
  | [] => 0
  | b::bs => b.toNat+256*fromLeBytes bs

def parseMariadbGtidEvent (serverId : UInt32) (data : List UInt8) : Option String :=
  if data.length < 13 then none
  else
    let text := fun n : ℕ => String.ofList (formatNat 10 n)
    some (text (fromLeBytes ((data.drop 8).take 4))++"-"++text serverId.toNat++"-"++ text (fromLeBytes (data.take 8)))

def advanceBinlogPos (current eventLogPos : UInt32) : UInt32 :=
  if 0 < eventLogPos then eventLogPos else current

/-- The provider; what the server has still to send is the rest of the binlog. -/
structure LiveMysqlBinlogProvider where
  stream : List BinlogEvent
  binlogFile : String
  nextPos : UInt32
  activeGtid : Option String
  activeTxId : Option UInt64
  nextTxId : UInt64

namespace LiveMysqlBinlogProvider
def new (stream : List BinlogEvent) (binlogFile : String) (nextPos : UInt32) : LiveMysqlBinlogProvider :=
  ⟨stream,binlogFile,nextPos,none,none,1⟩
section
variable (p : LiveMysqlBinlogProvider)

def ensureActiveTx : LiveMysqlBinlogProvider × UInt64 × Bool :=
  match p.activeTxId with
  | some txId => (p,txId,false)
  | none => ({p with nextTxId := saturatingAdd p.nextTxId 1, activeTxId := some p.nextTxId},p.nextTxId,true)

def xidMessage (txId timestampMs : UInt64) : MysqlBinlogMessage :=
  .xid txId timestampMs p.binlogFile p.nextPos p.activeGtid

def decodeMariadbEvent (eventType : UInt8) (serverId : UInt32)
    (data : List UInt8) : LiveMysqlBinlogProvider × Except Error (List MysqlBinlogMessage) :=
  if eventType = 162 then
    match parseMariadbGtidEvent serverId data with
    | none => (p,.error (.sourceError ("mariadb GTID event payload is "++
        String.ofList (formatNat 10 data.length)++" bytes, which is shorter than the "++
        "13-byte minimum (8-byte sequence number, 4-byte domain id, 1-byte flags). Refusing to "++
        "continue: without the GTID the checkpoint falls back to a binlog file and position, which "++
        "is server-local and resumes at an unrelated point after a failover.")))
    | some gtid => ({p with activeGtid := some gtid},.ok [.gtid gtid])
  else if eventType = 164 then
    (p,.error (.unrecoverable ("mariadb binlog encryption is enabled (START_ENCRYPTION_EVENT). Every "++
      "subsequent event is ciphertext that this connector cannot decode, so continuing would "++
      "silently drop all changes from this point on. Disable encrypt_binlog on the source, or "++
      "capture from an unencrypted replica.")))
  else (p,.ok [])
end
def isBegin (statement : String) : Bool := toAsciiLowercase (trim statement.toList) = "begin".toList

variable (columns : ColumnParser)

/-- A statement outside the row events.  One that is neither `BEGIN`, a DDL nor a `TRUNCATE` gives
nothing, `COMMIT` too. -/
def decodeQuery (p : LiveMysqlBinlogProvider) (statement : String) (timestampMs : UInt64) :
    LiveMysqlBinlogProvider × List MysqlBinlogMessage :=
  if isBegin statement then
    let (p,txId,_) := p.ensureActiveTx
    (p,[.begin txId timestampMs])
  else
    match extractCapturedDdl columns .mysql statement with
    | some captured =>
      (p,[.ddl {captured with ts := timestampMs} timestampMs p.binlogFile p.nextPos])
    | none =>
      match parseTruncateTarget statement with
      | none => (p,[])
      | some (schema,table) =>
        let truncate := .truncate schema table timestampMs p.binlogFile p.nextPos
        match p.activeTxId with
        | none => (p,[truncate])
        | some txId => ({p with activeTxId := none, activeGtid := none},
            [p.xidMessage txId timestampMs,truncate])

def rowsMessage : RowsKind → MysqlRowChange → MysqlBinlogMessage
  | .write => .writeRows
  | .update => .updateRows
  | .delete => .deleteRows

def decodeEventData (p : LiveMysqlBinlogProvider) (data : EventData) (timestampMs : UInt64) :
    LiveMysqlBinlogProvider × Except Error (List MysqlBinlogMessage) :=
  match data with
  | .query _ statement =>
    let (p,out) := p.decodeQuery columns statement timestampMs
    (p,.ok out)
  | .rows kind decoded =>
    let (p,txId,openedHere) := p.ensureActiveTx
    (p,decoded.map fun changes =>
      (if openedHere then [.begin txId timestampMs] else [])++changes.map (rowsMessage kind))
  | .xid xid =>
    let (p,txId) : LiveMysqlBinlogProvider × UInt64 :=
      match p.activeTxId with
      | some txId => ({p with activeTxId := none},txId)
      | none => if xid = 0 then ({p with nextTxId := saturatingAdd p.nextTxId 1},p.nextTxId) else (p,xid)
    ({p with activeGtid := none},.ok [p.xidMessage txId timestampMs])
  | .rotate name position =>
    match sanitizeBinlogFileName name with
    | .error e => (p,.error e)
    | .ok file =>
      let p := {p with binlogFile := file}
      if position.toNat < 2^32 then
        ({p with nextPos := UInt32.ofNat position.toNat},
          .ok [.rotate file (UInt32.ofNat position.toNat)])
      else (p,.error (.sourceError ("mysql rotate position exceeds u32: "++
        String.ofList (formatNat 10 position.toNat))))
  | .gtid gtid => ({p with activeGtid := some gtid},.ok [.gtid gtid])
  | .mariadb eventType serverId data => p.decodeMariadbEvent eventType serverId data
  | .heartbeat => (p,.ok [.heartbeat])
  | .other => (p,.ok [])

/-- One event off the stream. -/
def decodeEvent (p : LiveMysqlBinlogProvider) (e : BinlogEvent) :
    LiveMysqlBinlogProvider × Except Error (List MysqlBinlogMessage) :=
  {p with nextPos := advanceBinlogPos p.nextPos e.logPos}.decodeEventData columns e.data
    (e.timestamp.toUInt64*1000)

/-- How long a poll goes on: it makes so many reads before its time is up, or the connection fails. -/
structure PollAnswer where
  reads : ℕ
  failure : Option Error

/-- The messages of a poll that fails are lost with it. -/
def pollLoop (columns : ColumnParser) (maxEvents : ℕ) (failure : Option Error) :
    ℕ → LiveMysqlBinlogProvider → List MysqlBinlogMessage →
      LiveMysqlBinlogProvider × Except Error (List MysqlBinlogMessage)
  | 0, p, out =>
    match failure with
    | some e => (p,.error e)
    | none => (p,.ok out)
  | reads+1, p, out =>
    if out.length < maxEvents then
      match p.stream with
      | [] => pollLoop columns maxEvents failure reads p out
      | e::stream =>
        match {p with stream := stream}.decodeEvent columns e with
        | (p,.error e) => (p,.error e)
        | (p,.ok messages) => pollLoop columns maxEvents failure reads p (out++messages)
    else (p,.ok out)

def pollEvents (maxEvents : ℕ) (p : LiveMysqlBinlogProvider) (a : PollAnswer) :
    LiveMysqlBinlogProvider × Except Error (List MysqlBinlogMessage) :=
  if maxEvents = 0 then (p,.ok []) else pollLoop columns maxEvents a.failure a.reads p []
end LiveMysqlBinlogProvider
section
open LiveMysqlBinlogProvider (PollAnswer)

/-- The stream handle with the provider it polls. -/
structure LiveStream where
  provider : LiveMysqlBinlogProvider
  handle : MysqlStreamHandle

namespace LiveStream
variable (columns : ColumnParser) (maxEventsPerPoll : ℕ)

/-- Poll until something is released or the caller's time is up. -/
def passes (s : LiveStream) : List PollAnswer → LiveStream × Except Error (List Event)
  | [] => (s,.ok [])
  | a::answers =>
    match s.provider.pollEvents columns maxEventsPerPoll a with
    | (p,.error e) => ({s with provider := p},.error e)
    | (p,.ok messages) =>
      match s.handle.processMessages messages with
      | (h,[]) => passes ⟨p,h⟩ answers
      | (h,events) => (⟨p,h⟩,.ok events)

def nextEvents (s : LiveStream) (answers : List PollAnswer) : LiveStream × Except Error (List Event) :=
  if !s.handle.streaming then
    (s,.error (.stateError "mysql stream polling requested while stream is not running"))
  else if !s.handle.requeuedEvents.isEmpty then
    ({s with handle := {s.handle with requeuedEvents := []}},.ok s.handle.requeuedEvents)
  else s.passes columns maxEventsPerPoll answers

/-- What the provider's polls give one after another. -/
def polls (p : LiveMysqlBinlogProvider) : List PollAnswer → List (Except Error (List MysqlBinlogMessage))
  | [] => []
  | a::answers =>
    (p.pollEvents columns maxEventsPerPoll a).2:: polls (p.pollEvents columns maxEventsPerPoll a).1 answers

variable (s : LiveStream) (as : List PollAnswer)

lemma passes_handle : ((s.passes columns maxEventsPerPoll as).1.handle,(s.passes columns maxEventsPerPoll as).2) =
      s.handle.passes (polls columns maxEventsPerPoll s.provider as) := by
  induction as generalizing s with
  | nil => rfl
  | cons a as ih =>
    rw [passes,polls]
    generalize s.provider.pollEvents columns maxEventsPerPoll a = polled
    obtain ⟨p,r⟩ := polled
    cases r with
    | error => rfl
    | ok ms =>
      dsimp only
      rw [MysqlStreamHandle.passes]
      generalize s.handle.processMessages ms = processed
      obtain ⟨h,es⟩ := processed
      cases es with
      | nil => exact ih ⟨p,h⟩
      | cons => rfl

lemma nextEvents_handle : ((s.nextEvents columns maxEventsPerPoll as).1.handle,
      (s.nextEvents columns maxEventsPerPoll as).2) =
      s.handle.nextEvents (polls columns maxEventsPerPoll s.provider as) := by
  rw [nextEvents,MysqlStreamHandle.nextEvents]
  split
  · rfl
  · split
    · rfl
    · exact passes_handle columns maxEventsPerPoll s as
end LiveStream
end
end Rustcdc.Mysql
