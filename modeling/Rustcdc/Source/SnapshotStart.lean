import Rustcdc.Lib.Visibility
import Rustcdc.Source.BulkSnapshot
import Rustcdc.Source.Handoff

/-! The start of a bulk snapshot and of the stream behind it.  The read view and the position of the
log are taken by separate statements, and transactions commit between them. -/
namespace Rustcdc
/-- A failed query is reported with what it was for. -/
def queryResult {α : Type} (purpose : String) (answer : Except String α) : Except Error α :=
  match answer with
  | .error e => .error (.sourceError (purpose++e))
  | .ok a => .ok a

namespace Mysql
/-- What the server says of one table, and `split_table_reference` of its name. -/
structure TableAnswers where
  reference : Except Error (Option String × String)
  primaryKeyColumns : Except String (List String)
  allColumns : Except String (List String)
  totalRows : Except String (Option ℤ)

structure SnapshotAnswers where
  now : UInt64
  startTransaction : Except String Unit
  masterStatus : Except String (Option (String × UInt64))
  binaryLogStatus : Except String (Option (String × UInt64))
  /-- `@@GLOBAL.GTID_EXECUTED`, empty when the query fails. -/
  gtidExecuted : String

def requireColumns (columns : List String) (missing : String) : Except Error Unit :=
  if columns.isEmpty then .error (.sourceError missing) else .ok ()

def rowTotal (table : String) (totalRows : ℤ) : Except Error UInt64 :=
  if totalRows < 0 then
    .error (.sourceError ("negative row count returned for mysql table '"++table++"'"))
  else .ok (UInt64.ofNat totalRows.toNat)

/-- A table not yet read; an empty one is complete from the start. -/
def setupTable (table : String) (totalRows : UInt64) (primaryKeyColumns : List String) : TableSnapshotState where
  snapshot := ⟨table,totalRows,0,none,totalRows == 0⟩
  primaryKeyColumns := primaryKeyColumns
  rows := []
  nextRow := 0
  liveQuery := true

def collectTableState (table : String) (answers : TableAnswers) : Except Error TableSnapshotState := do
  let _ ← answers.reference
  let primaryKeyColumns ← queryResult
    ("failed to query mysql primary key metadata for '"++table++"': ") answers.primaryKeyColumns
  requireColumns primaryKeyColumns ("mysql snapshot requires PRIMARY KEY columns for table '"++table++"'")
  let allColumns ← queryResult ("failed to query mysql column metadata for '"++table++"': ") answers.allColumns
  requireColumns allColumns ("mysql snapshot table '"++table++"' has no columns")
  let counted ← queryResult ("failed counting rows for mysql table '"++table++"': ") answers.totalRows
  let totalRows ← rowTotal table (counted.getD 0)
  pure (setupTable table totalRows primaryKeyColumns)

def collectTableStates : List (String × TableAnswers) → Except Error (List TableSnapshotState)
  | [] => .ok []
  | (table,answers)::tables => do
    let state ← collectTableState table answers
    let states ← collectTableStates tables
    pure (state::states)

/-- The head of the binlog, by the statement of older servers or the one of newer ones. -/
def binaryLogHead (answers : SnapshotAnswers) : Except Error (String × UInt64) :=
  match answers.masterStatus with
  | .ok (some head) => .ok head
  | .ok none => .error (.sourceError "mysql master status unavailable for snapshot")
  | .error primaryError =>
    match answers.binaryLogStatus with
    | .ok (some head) => .ok head
    | .ok none => .error (.sourceError "mysql binary log status unavailable for snapshot")
    | .error fallbackError => .error (.sourceError
        ("failed to read mysql binary log status for snapshot (SHOW MASTER STATUS error: "++
          primaryError++"; SHOW BINARY LOG STATUS error: "++fallbackError++")"))

def binlogPosition (position : UInt64) : Except Error UInt32 :=
  if position.toNat < 2^32 then .ok (UInt32.ofNat position.toNat)
  else .error (.sourceError ("mysql binlog position exceeds u32: "++toString position.toNat))

/-- The read view is taken by the first statement, the position by the next. -/
def beginSnapshotAndCollectTableStates (answers : SnapshotAnswers) (tables : List (String × TableAnswers)) :
    Except Error (MysqlSnapshot × List TableSnapshotState) := do
  queryResult "failed to start mysql snapshot transaction: " answers.startTransaction
  let head ← binaryLogHead answers
  let binlogPos ← binlogPosition head.2
  let states ← collectTableStates tables
  pure (⟨states.map (·.snapshot),
    "mysql-snapshot-"++toString answers.now.toNat++"-"++toString tables.length,answers.now,head.1,
    binlogPos,answers.gtidExecuted⟩,states)

/-- Start without a checkpoint.  `connection` is the pool's answer. -/
def startSnapshotInternal (sourceType : String) (connection : Except Error Unit)
    (answers : SnapshotAnswers) (tables : List (String × TableAnswers)) :
    Except Error MysqlSnapshotHandle :=
  if tables.isEmpty then .error (.configError "mysql snapshot requires at least one table")
  else do
    connection
    let setup ← beginSnapshotAndCollectTableStates answers tables
    pure (.new sourceType setup.1 setup.2 true true)

variable {as : SnapshotAnswers} {ts : List (String × TableAnswers)}

lemma binlogPosition_ok {p : UInt64} {bp : UInt32} (h : binlogPosition p = .ok bp) : bp.toNat = p.toNat := by
  unfold binlogPosition at h
  split at h
  · rename_i hl
    cases h
    exact UInt32.toNat_ofNat_of_lt' hl
  · cases h

lemma startSnapshotInternal_ok {so : String} {connection : Except Error Unit} {h : MysqlSnapshotHandle}
    (hst : startSnapshotInternal so connection as ts = .ok h) :
    ∃ head, binaryLogHead as = .ok head ∧ h.snapshot.binlogFile = head.1 ∧
      h.snapshot.binlogPos.toNat = head.2.toNat ∧ h.connection = true ∧
      collectTableStates ts = .ok h.tables := by
  unfold startSnapshotInternal at hst
  split at hst
  · cases hst
  · obtain ⟨_,_,hst⟩ := except_bind_ok hst
    obtain ⟨setup,hs,hst⟩ := except_bind_ok hst
    cases hst
    obtain ⟨_,_,hs⟩ := except_bind_ok hs
    obtain ⟨head,hh,hs⟩ := except_bind_ok hs
    obtain ⟨bp,hp,hs⟩ := except_bind_ok hs
    obtain ⟨ss,hsta,hs⟩ := except_bind_ok hs
    cases hs
    exact ⟨head,hh,rfl,binlogPosition_ok hp,rfl,hsta⟩
end Mysql
namespace Postgres
/-- What the server answers to a snapshot start; the table queries are in `tables`. -/
structure SnapshotAnswers where
  connected : Bool
  now : UInt64
  begun : Except String Unit
  currentWalLsn : Except Error UInt64
  txidCurrentSnapshot : Option String
  tables : Except Error (List PostgresSnapshotHandle.TableSetup)

/-- The transaction's view is taken by its first query, which is the one for the position. -/
def startPostgresSnapshotInternal (sourceType : String) (tables : List String)
    (answers : SnapshotAnswers) : Except Error PostgresSnapshotHandle :=
  if tables.isEmpty then .error (.configError "postgres snapshot requires at least one table")
  else if !answers.connected then
    .error (.stateError "postgres connection must be established before snapshot")
  else do
    queryResult "failed to begin postgres snapshot transaction: " answers.begun
    let snapshotWatermark ← answers.currentWalLsn
    let states ← answers.tables
    pure (.startSnapshot sourceType (answers.txidCurrentSnapshot.getD
      ("pg-snapshot-"++toString answers.now.toNat++"-"++toString tables.length)) answers.now
      snapshotWatermark states)

lemma startPostgresSnapshotInternal_ok {so : String} {ta : List String}
    {an : SnapshotAnswers} {h : PostgresSnapshotHandle}
    (hs : startPostgresSnapshotInternal so ta an = .ok h) :
    an.currentWalLsn = .ok h.snapshotWatermark ∧ h.client = true ∧ ∃ ss, an.tables = .ok ss ∧
        h.tables = ss.map PostgresSnapshotHandle.setupTable := by
  unfold startPostgresSnapshotInternal at hs
  split at hs
  · cases hs
  · split at hs
    · cases hs
    · obtain ⟨_,_,hs⟩ := except_bind_ok hs
      obtain ⟨snapshotWatermark,hw,hs⟩ := except_bind_ok hs
      obtain ⟨ss,hst,hs⟩ := except_bind_ok hs
      cases hs
      exact ⟨hw,rfl,ss,hst,rfl⟩

/-- The end of the handover: the provider reports no position past the watermark. -/
theorem performHandoff_position {sn af : PostgresSnapshotHandle} {s handed : PostgresStreamHandle} {a : HandoffAnswer}
    (h : performHandoff sn s a = (af,handed,.ok ())) :
    ∃ watermark ∈ a.snapshotWatermark,
      handed.provider.position.toNat ≤ max s.provider.position.toNat watermark.toNat := by
  unfold performHandoff at h
  split at h
  · cases h
  · cases h
  · rename_i watermark _ hw _
    split at h
    · cases h
    · have hb := s.provider.confirmLsn_position_le watermark a.confirm
      have hp : (s.confirmLsn watermark a.confirm).1.provider = (s.provider.confirmLsn watermark a.confirm).1 := by
        unfold PostgresStreamHandle.confirmLsn
        split <;> rename_i he <;> rw [he]
      generalize s.confirmLsn watermark a.confirm = confirmed at h hp
      obtain ⟨confirmedStream,_ | _⟩ := confirmed
      · cases h
      · have hh : confirmedStream = handed := by
          simp only [Prod.mk.injEq] at h
          exact h.2.1
        subst hh
        exact ⟨watermark,hw,by rw [hp]; exact hb⟩
end Postgres
/-! ## The server's log under the start -/

namespace Postgres
/-- The WAL, as far as it goes: the position behind so many transactions. -/
structure Wal (size : ℕ) where
  lsnAt : ℕ → UInt64
  grows : ∀ m n, m < n → n ≤ size → (lsnAt m).toNat < (lsnAt n).toNat

/-- A start that succeeded up to the handover: the snapshot's watermark was read behind `watermark`
transactions and the stream opened behind `start`.  The slot is not ahead of the snapshot. -/
structure Startup {size : ℕ} (wal : Wal size) (watermark start : ℕ) where
  sourceType : String
  tables : List String
  answers : SnapshotAnswers
  snapshot : PostgresSnapshotHandle
  watermark_read : answers.currentWalLsn = .ok (wal.lsnAt watermark)
  snapshot_started : startPostgresSnapshotInternal sourceType tables answers = .ok snapshot
  config : StreamConfig
  streamAnswers : StartAnswers
  stream : PostgresStreamHandle
  start_read : streamAnswers.currentWalLsn = .ok (wal.lsnAt start)
  stream_started : startPostgresStream config streamAnswers none = .ok stream
  read : PostgresSnapshotHandle
  answer : HandoffAnswer
  watermark_kept : answer.snapshotWatermark = some snapshot.snapshotWatermark
  after : PostgresSnapshotHandle
  handed : PostgresStreamHandle
  handed_over : performHandoff read stream answer = (after,handed,.ok ())
  slot : UInt64
  slot_le : slot.toNat ≤ (wal.lsnAt watermark).toNat

/-- The stream is sent a transaction that ends behind the position it starts from. -/
def Startup.sends {size watermark start : ℕ} {wal : Wal size} (s : Startup wal watermark start) (i : ℕ) : Prop :=
  sendsFrom s.slot s.handed < (wal.lsnAt (i+1)).toNat
  deriving Decidable

lemma Startup.sends_behind {size watermark st : ℕ} {wal : Wal size}
    (s : Startup wal watermark st) {i : ℕ} (hb : watermark ≤ i) (hi : i < size) :
    s.sends i := by
  have ho := startPostgresStream_position s.stream_started
  obtain ⟨lsn,hl,hp⟩ := performHandoff_position s.handed_over
  have hl : lsn = wal.lsnAt watermark := by
    have hr := (startPostgresSnapshotInternal_ok s.snapshot_started).1
    rw [s.watermark_kept] at hl
    rw [s.watermark_read] at hr
    exact (Option.some.inj hl).symm.trans (Except.ok.inj hr).symm
  have hg := wal.grows watermark (i+1) (by omega) hi
  have hs := s.slot_le
  rw [ho,hl] at hp
  rw [Startup.sends,sendsFrom]
  simp only [Option.map_none,Option.getD_none] at hp
  omega
end Postgres
namespace Mysql
/-- The binlog, as far as it goes: its head behind so many transactions, with files in the order of
their names, and the transactions a GTID set names. -/
structure Binlog (size : ℕ) where
  headAt : ℕ → String × UInt64
  grows : ∀ m n, m < n → n ≤ size → (headAt m).1 < (headAt n).1 ∨
    (headAt m).1 = (headAt n).1 ∧ (headAt m).2.toNat < (headAt n).2.toNat
  names : List (List Char) → ℕ → Bool

/-- A start that succeeded up to the handover. -/
structure Startup {size : ℕ} (binlog : Binlog size) (watermark start : ℕ) (known : ℕ → Bool) where
  sourceType : String
  connection : Except Error Unit
  answers : SnapshotAnswers
  tables : List (String × TableAnswers)
  snapshot : MysqlSnapshotHandle
  watermark_read : binaryLogHead answers = .ok (binlog.headAt watermark)
  snapshot_started : startSnapshotInternal sourceType connection answers tables = .ok snapshot
  config : StreamConfig
  streamAnswers : StartAnswers
  opened : OpenedStream
  start_read : streamAnswers.binaryLogStatus = .ok (binlog.headAt start)
  known_named : ∀ sids, parseGtidSet streamAnswers.readSid streamAnswers.gtidExecuted = .ok sids →
    binlog.names sids = known
  stream_started : startStream config streamAnswers none = .ok opened
  handoffAnswers : HandoffAnswers
  outcome : HandoffOutcome
  handed_over : mysqlHandoffResult ⟨snapshot.snapshot.binlogFile,snapshot.snapshot.binlogPos,
    opened.handle.binlogFile,opened.handle.binlogPos⟩ handoffAnswers = .ok outcome

/-- A dump goes on behind its coordinates, or with what its GTID set does not name. -/
def Binlog.sends {size : ℕ} (binlog : Binlog size) (request : BinlogStreamRequest) (i : ℕ) : Prop :=
  if request.gtidSet.isEmpty then
    request.binlogFile < (binlog.headAt (i+1)).1 ∨ request.binlogFile = (binlog.headAt (i+1)).1 ∧
      request.binlogPos.toNat < (binlog.headAt (i+1)).2.toNat
  else binlog.names request.gtidSet i = false
  deriving Decidable

lemma startStream_head {cf : StreamConfig} {an : StartAnswers} {o : OpenedStream}
    {head : String × UInt64} (hh : an.binaryLogStatus = .ok head)
    (ho : startStream cf an none = .ok o) :
    o.handle.binlogFile = head.1 ∧ o.handle.binlogPos.toNat = head.2.toNat ∧
      o.request.binlogFile = head.1 ∧ o.request.binlogPos.toNat = head.2.toNat ∧
      (o.request.gtidSet = [] ∨ cf.gtidModeEnabled = true ∧
        parseGtidSet an.readSid an.gtidExecuted = .ok o.request.gtidSet) := by
  obtain ⟨p,hp,hre⟩ := except_bind_ok ho
  obtain ⟨_,_,hre⟩ := except_bind_ok hre
  obtain ⟨q,hr,hre⟩ := except_bind_ok hre
  obtain ⟨_,_,hre⟩ := except_bind_ok hre
  cases hre
  obtain ⟨head',hh',hp⟩ := except_bind_ok hp
  obtain rfl := Except.ok.inj (hh.symm.trans hh')
  dsimp only at hp
  split at hp
  · rename_i hl
    cases hp
    have hpo : (UInt32.ofNat head.2.toNat).toNat = head.2.toNat := UInt32.toNat_ofNat_of_lt' hl
    unfold binlogStreamRequest at hr
    split_ifs at hr with hm
    · split at hr
      · cases hr
      · rename_i sids hs
        cases hr
        exact ⟨rfl,hpo,rfl,hpo,.inr ⟨hm,hs⟩⟩
    · cases hr
      exact ⟨rfl,hpo,rfl,hpo,.inl rfl⟩
  · cases hp

variable {watermark : ℕ} {k : ℕ → Bool}
section
variable {size st : ℕ} {bl : Binlog size} (s : Startup bl watermark st k) (hs : st ≤ size)
include s hs

/-- The handover lets no stream through that starts behind the watermark. -/
theorem Startup.start_le : st ≤ watermark := by
  obtain ⟨head,hhe,hf,hp,_,_⟩ := startSnapshotInternal_ok s.snapshot_started
  obtain rfl := Except.ok.inj (s.watermark_read.symm.trans hhe)
  obtain ⟨hf',hp',_,_,_⟩ := startStream_head s.start_read s.stream_started
  by_contra hl
  have hn : MysqlHandoff.hasNoGap ⟨s.snapshot.snapshot.binlogFile,s.snapshot.snapshot.binlogPos,
      s.opened.handle.binlogFile,s.opened.handle.binlogPos⟩ = false := by
    unfold MysqlHandoff.hasNoGap compareBinlogPosition
    dsimp only
    rw [hf,hf',hp,hp']
    rcases bl.grows watermark st (not_le.mp hl) hs with hlt | ⟨he,hlt⟩
    · rw [if_neg fun he => String.lt_irrefl _ (he ▸ hlt),if_neg (String.lt_asymm hlt)]
      rfl
    · rw [if_pos he.symm,Nat.compare_eq_gt.mpr hlt]
      rfl
  have hh := s.handed_over
  unfold mysqlHandoffResult at hh
  rw [hn] at hh
  cases hh

lemma Startup.sends_behind (hk : s.config.gtidModeEnabled = true → ∀ i, k i = true → i < st) {i : ℕ}
    (hb : watermark ≤ i) (hi : i < size) : bl.sends s.opened.request i := by
  have hl := s.start_le hs
  obtain ⟨_,_,hf,hp,hse⟩ := startStream_head s.start_read s.stream_started
  have hc : s.opened.request.binlogFile < (bl.headAt (i+1)).1 ∨ s.opened.request.binlogFile = (bl.headAt (i+1)).1 ∧
        s.opened.request.binlogPos.toNat < (bl.headAt (i+1)).2.toNat := by
    rw [hf,hp]
    exact bl.grows st (i+1) (by omega) hi
  unfold Binlog.sends
  split_ifs with hn
  · exact hc
  · rcases hse with hno | ⟨hm,hse⟩
    · exact absurd (by rw [hno]; rfl) hn
    · rw [s.known_named _ hse]
      refine Bool.eq_false_iff.mpr fun hin => ?_
      have := hk hm i hin
      omega
end
end Mysql
section
open Visibility (Server Label Quiet)

/-- If the log is quiet between the statements that read it, every transaction is in the snapshot's
view or behind its watermark, and every one that is not in the view is sent by the stream. -/
theorem start_leaves_no_gap {τ : Type} (server : Server τ) (gtidModeEnabled : Bool) (labels : List (Label τ))
    (hquiet : Machine.Meets Visibility.Session.step (Quiet gtidModeEnabled) ⟨server,.begun⟩ labels) :
    let reached := Machine.run Visibility.Session.step ⟨server,.begun⟩ labels
    let size := reached.server.log.length
    (∀ view watermark, reached.progress.marks = some (view,watermark) → ∀ i < size, view i = true ∨ watermark ≤ i) ∧
    (∀ view watermark start, reached.progress.starts = some (view,watermark,start) →
      ∀ (wal : Postgres.Wal size) (startup : Postgres.Startup wal watermark start),
        ∀ i < size, view i = true ∨ startup.sends i) ∧
    ∀ view watermark start known, reached.progress = .listed view watermark start known →
      ∀ (binlog : Mysql.Binlog size) (startup : Mysql.Startup binlog watermark start known),
        startup.config.gtidModeEnabled = gtidModeEnabled →
        ∀ i < size, view i = true ∨ binlog.sends startup.opened.request i := by
  have hs := Visibility.run_sound_of_quiet hquiet
  generalize Machine.run Visibility.Session.step ⟨server,.begun⟩ labels = reached at hs
  intro _ size
  refine ⟨fun view watermark hm i _ => hs.seen hm i,?_,?_⟩
  · intro view watermark start hst wal startup i hi
    have hm := (hs.watermark_le_start hst).1
    exact (hs.seen hm i).imp_right fun hb => startup.sends_behind hb hi
  · intro view watermark start known hl binlog startup hmo i hi
    obtain ⟨hsi,hk⟩ := hs.listed hl
    have hm : reached.progress.marks = some (view,watermark) := by rw [hl]; rfl
    exact (hs.seen hm i).imp_right fun hb =>
      startup.sends_behind hsi (fun he => hk (hmo.symm.trans he)) hb hi

/-- A server before its first transaction. -/
def emptyServer : Server String := ⟨[],fun _ => false,fun _ h => absurd h (by simp)⟩

def sampleWal : Postgres.Wal 2 where
  lsnAt n := if n = 0 then 100 else if n = 1 then 200 else 300
  grows m n hmn hn := by
    interval_cases n <;> interval_cases m <;> decide

def sampleBinlog : Mysql.Binlog 2 where
  headAt n := ("bin.000001",if n = 0 then 4 else if n = 1 then 200 else 300)
  grows m n hmn hn := by
    refine .inr ⟨rfl,?_⟩
    interval_cases n <;> interval_cases m <;> decide
  names _ _ := false

/-- A table that is empty in the view. -/
def postgresAnswers : Postgres.SnapshotAnswers := ⟨true,1,.ok (),.ok 200,some "1:1:",.ok [⟨"users",0,["id"]⟩]⟩
def postgresSnapshot : Postgres.PostgresSnapshotHandle := .startSnapshot "postgres" "1:1:" 1 200 [⟨"users",0,["id"]⟩]
def peekStream : Postgres.PostgresStreamHandle := .new "postgres" "slot" 200 (.peek 0) 0 (fun _ _ => true) []
def handoffAnswer : Postgres.HandoffAnswer := ⟨some 200,some 200,2,.ok (),.ok ()⟩

def postgresStartup : Postgres.Startup sampleWal 1 1 where
  sourceType := "postgres"
  tables := ["users"]
  answers := postgresAnswers
  snapshot := postgresSnapshot
  watermark_read := rfl
  snapshot_started := rfl
  config := ⟨"slot",.sqlPeek,0,fun _ _ => true⟩
  streamAnswers := ⟨.ok [],.ok 200,fun _ => .ok 100,.ok (),.ok ()⟩
  stream := peekStream
  start_read := rfl
  stream_started := rfl
  read := postgresSnapshot
  answer := handoffAnswer
  watermark_kept := rfl
  after := (Postgres.performHandoff postgresSnapshot peekStream handoffAnswer).1
  handed := (Postgres.performHandoff postgresSnapshot peekStream handoffAnswer).2.1
  handed_over := rfl
  slot := 100
  slot_le := by decide

def mysqlAnswers : Mysql.SnapshotAnswers := ⟨1,.ok (),.ok (some ("bin.000001",200)),.ok none,""⟩
def mysqlTable : String × Mysql.TableAnswers := ("users",⟨.ok (none,"users"),.ok ["id"],.ok ["id"],.ok (some 0)⟩)
def mysqlSnapshot : Mysql.MysqlSnapshotHandle :=
  .new "mysql" ⟨[⟨"users",0,0,none,true⟩],"mysql-snapshot-1-1",1,"bin.000001",200,""⟩
    [Mysql.setupTable "users" 0 ["id"]] true true
def mysqlStreamAnswers : Mysql.StartAnswers := ⟨.ok ("bin.000001",200),"",.ok (),fun _ => .ok (),.ok (),.ok ()⟩

def mysqlStartup : Mysql.Startup sampleBinlog 1 1 (fun _ => false) where
  sourceType := "mysql"
  connection := .ok ()
  answers := mysqlAnswers
  tables := [mysqlTable]
  snapshot := mysqlSnapshot
  watermark_read := rfl
  snapshot_started := rfl
  config := ⟨"mysql",false,fun _ _ => true⟩
  streamAnswers := mysqlStreamAnswers
  opened := ⟨.new "mysql" "bin.000001" 200 "" (fun _ _ => true),⟨"bin.000001",200,[]⟩⟩
  start_read := rfl
  known_named := fun _ _ => rfl
  stream_started := rfl
  handoffAnswers := ⟨.ok (),[],.ok ()⟩
  outcome := ⟨[],0⟩
  handed_over := rfl

/-- A transaction before the start and one behind it. -/
def quietLabels : List (Label String) :=
  [.server (.commit "a"),.server (.expose 0),.read (fun _ => false),.read (fun _ => false),
    .read (fun _ => false),.read (fun _ => false),.server (.commit "b")]

theorem start_leaves_no_gap_sample : postgresStartup.sends 1 ∧ sampleBinlog.sends mysqlStartup.opened.request 1 := by
  obtain ⟨_,hp,hm⟩ := start_leaves_no_gap emptyServer false quietLabels (by decide)
  refine ⟨?_,?_⟩
  · rcases hp _ 1 1 rfl sampleWal postgresStartup 1 (by decide) with hv | hs
    · cases hv
    · exact hs
  · rcases hm _ 1 1 _ rfl sampleBinlog mysqlStartup rfl 1 (by decide) with hv | hs
    · cases hv
    · exact hs

/-- A transaction that is in the log but not visible when the view is taken. -/
def inFlight : List (Label String) :=
  [.server (.commit "a"),.read (fun _ => false),.server (.expose 0),.read (fun _ => false),
    .read (fun _ => false),.read (fun _ => false)]

/-- A transaction that commits between the view and the position. -/
def between : List (Label String) :=
  [.read (fun _ => false),.server (.commit "a"),.server (.expose 0),.read (fun _ => false),
    .read (fun _ => false),.read (fun _ => false)]

/-- In both runs the transaction is not in the view and in front of the watermark, and neither
stream sends it. -/
theorem commit_before_watermark_unseen : (∀ labels ∈ [inFlight,between],
      let reached := Machine.run Visibility.Session.step ⟨emptyServer,.begun⟩ labels
      reached.server.log = ["a"] ∧ reached.server.visible 0 = true ∧
        reached.progress.starts.map (fun s => (s.1 0,s.2)) = some (false,1,1)) ∧
      ¬ postgresStartup.sends 0 ∧ ¬ sampleBinlog.sends mysqlStartup.opened.request 0 := by
  refine ⟨?_,by decide,by decide⟩
  intro labels hl
  simp only [List.mem_cons,List.not_mem_nil,or_false] at hl
  rcases hl with rfl | rfl <;> exact ⟨rfl,rfl,rfl⟩
end
end Rustcdc
