import Rustcdc.Runtime.Start
import Rustcdc.Source.Mysql.Restart
import Rustcdc.Source.Postgres.Restart

/-! Where each connector opens its log: at the position of the offset it is given, and without one
where the connector itself chooses. -/
namespace Rustcdc
namespace Postgres
inductive WalTransport
  | streamingReplication | sqlPeek
  deriving DecidableEq

/-- What a stream start reads of the source's configuration. -/
structure StreamConfig where
  slotName : String
  walTransport : WalTransport
  slotIdleAdvanceIntervalMs : UInt64
  tableIsAllowed : Option String → String → Bool

/-- The server's answers to a stream start. -/
structure StartAnswers where
  catalogPrimaryKeys : Except Error (List ((String × String) × List String))
  currentWalLsn : Except Error UInt64
  /-- `confirmed_flush_lsn` of the slot, as each attempt reads it. -/
  confirmedLsn : ℕ → Except Error UInt64
  advanceSlot : Except Error Unit
  startReplication : Except Error Unit

def decodeStreamResumeLsn (slotName : String) (resumeFrom : Offset) : Except Error UInt64 :=
  if resumeFrom.sourceType ≠ "postgres" then
    .error (.checkpointError ("cannot resume postgres stream from offset source '"++resumeFrom.sourceType++"'"))
  else
    match resumeFrom with
    | .postgres lsn savedSlot _ =>
      if savedSlot ≠ slotName then
        .error (.checkpointError ("checkpoint slot '"++savedSlot++
          "' does not match configured slot '"++slotName++"'"))
      else .ok lsn
    | _ => .error (.checkpointError "failed decoding postgres stream checkpoint offset")

/-- A slot that stays behind the checkpoint is advanced to it. -/
def reconcileWithOps (checkpointLsn : UInt64) (answers : StartAnswers) : ℕ → ℕ → Except Error UInt64
  | 0, _ => answers.advanceSlot.map fun () => checkpointLsn
  | attempts+1, attempt =>
    match answers.confirmedLsn attempt with
    | .error e => .error e
    | .ok slotLsn =>
      if checkpointLsn ≤ slotLsn then .ok checkpointLsn
      else reconcileWithOps checkpointLsn answers attempts (attempt+1)
section
variable (config : StreamConfig)

def startLsn (resumeFrom : Option Offset) (answers : StartAnswers) : Except Error UInt64 :=
  match resumeFrom with
  | none => answers.currentWalLsn
  | some offset => do
    let lsn ← decodeStreamResumeLsn config.slotName offset
    match config.walTransport with
    | .streamingReplication => pure lsn
    | .sqlPeek => reconcileWithOps lsn answers 5 0

/-- Without a checkpoint the provider starts at zero, which leaves the choice to the slot. -/
def openProvider (initialConfirmedLsn : UInt64) (answers : StartAnswers) : Except Error Provider :=
  match config.walTransport with
  | .streamingReplication =>
    answers.startReplication.map fun () => .streaming initialConfirmedLsn initialConfirmedLsn
  | .sqlPeek => pure (.peek initialConfirmedLsn)

def startPostgresStream (answers : StartAnswers)
    (resumeFrom : Option Offset) : Except Error PostgresStreamHandle := do
  let catalogPrimaryKeys ← answers.catalogPrimaryKeys
  let lsnPosition ← startLsn config resumeFrom answers
  let provider ← openProvider config (if resumeFrom.isSome then lsnPosition else 0) answers
  pure (.new "postgres" config.slotName lsnPosition provider config.slotIdleAdvanceIntervalMs
    config.tableIsAllowed catalogPrimaryKeys)
end
/-- Where the server sends a stream from: no transaction that ends at or before the slot's
confirmed position or the position the stream asked for. -/
def sendsFrom (slot : UInt64) (h : PostgresStreamHandle) : ℕ := max slot.toNat h.provider.position.toNat

variable {as : StartAnswers} {c : StreamConfig} {lsn : UInt64} {o : Offset}

lemma decodeStreamResumeLsn_ok {slotName : String} (h : decodeStreamResumeLsn slotName o = .ok lsn) :
    ∃ incremental, o = .postgres lsn slotName incremental := by
  unfold decodeStreamResumeLsn at h
  split at h
  · simp at h
  · split at h
    · rename_i lsn' savedSlot incremental _
      split at h
      · simp at h
      · rename_i hs
        cases h
        exact ⟨incremental,by rw [not_not.mp hs]⟩
    · simp at h

lemma reconcileWithOps_ok {checkpointLsn : UInt64} {attempts attempt : ℕ}
    (h : reconcileWithOps checkpointLsn as attempts attempt = .ok lsn) :
    lsn = checkpointLsn := by
  induction attempts generalizing attempt with
  | zero =>
    obtain ⟨_,_,he⟩ := except_map_ok h
    exact he.symm
  | succ attempts ih =>
    rw [reconcileWithOps] at h
    split at h
    · simp at h
    · split at h
      · exact (Except.ok.inj h).symm
      · exact ih h

lemma startLsn_ok (h : startLsn c (some o) as = .ok lsn) :
    ∃ incremental, o = .postgres lsn c.slotName incremental := by
  obtain ⟨decoded,hd,hr⟩ := except_bind_ok h
  have he : lsn = decoded := by
    split at hr
    · exact (Except.ok.inj hr).symm
    · exact reconcileWithOps_ok hr
  rw [he]
  exact decodeStreamResumeLsn_ok hd

lemma openProvider_position {pr : Provider} (h : openProvider c lsn as = .ok pr) : pr.position = lsn := by
  unfold openProvider at h
  split at h
  · obtain ⟨_,_,rfl⟩ := except_map_ok h
    rfl
  · cases h
    rfl

/-- A stream asks for the position of its checkpoint, and without one for whatever the slot
holds. -/
theorem startPostgresStream_position {rf : Option Offset} {h : PostgresStreamHandle}
    (ho : startPostgresStream c as rf = .ok h) :
    h.provider.position.toNat = (rf.map rank).getD 0 := by
  obtain ⟨ca,_,hr⟩ := except_bind_ok ho
  obtain ⟨lsn,hl,hr⟩ := except_bind_ok hr
  obtain ⟨pr,hpr,hr⟩ := except_bind_ok hr
  cases hr
  have hp := openProvider_position hpr
  show pr.position.toNat = _
  cases rf with
  | none => simpa using congrArg UInt64.toNat hp
  | some =>
    obtain ⟨inc,rfl⟩ := startLsn_ok hl
    simpa [rank] using congrArg UInt64.toNat hp
end Postgres
namespace Mysql
structure StreamConfig where
  /-- `mysql` or `mariadb`, by the server's flavor. -/
  sourceType : String
  gtidModeEnabled : Bool
  tableIsAllowed : Option String → String → Bool

/-- The server's answers to a stream start, and what `Sid::from_str` makes of a GTID. -/
structure StartAnswers where
  /-- The head of the binlog. -/
  binaryLogStatus : Except Error (String × UInt64)
  /-- `@@GLOBAL.GTID_EXECUTED`, empty when the query fails. -/
  gtidExecuted : String
  positionStillAvailable : Except Error Unit
  readSid : List Char → Except String Unit
  openReplication : Except Error Unit
  binlogDump : Except Error Unit

structure MysqlStreamStartPosition where
  binlogFile : String
  binlogPos : UInt32
  gtid : String

def decodeStreamResumePosition (expectedSource : String) (offset : Offset) : Except Error MysqlStreamStartPosition :=
  if offset.sourceType ≠ expectedSource then
    .error (.checkpointError ("mysql stream offset source type mismatch: expected '"++
      expectedSource++"', found '"++offset.sourceType++"'"))
  else
    match offset with
    | .mysql _ _ binlogFile binlogPos gtid _ => .ok ⟨binlogFile,binlogPos,gtid⟩
    | _ => .error (.serializationError "not a mysql offset")

/-- The head of the log, unless an offset names another position. -/
def resolveStreamStartPosition (config : StreamConfig) (answers : StartAnswers)
    (resumeFrom : Option Offset) : Except Error MysqlStreamStartPosition := do
  let head ← answers.binaryLogStatus
  match resumeFrom with
  | some offset => do
    let resumed ← decodeStreamResumePosition config.sourceType offset
    if resumed.gtid.isEmpty then pure ⟨resumed.binlogFile,resumed.binlogPos,answers.gtidExecuted⟩
    else do
      answers.positionStillAvailable
      pure resumed
  | none =>
    if head.2.toNat < 2^32 then pure ⟨head.1,UInt32.ofNat head.2.toNat,answers.gtidExecuted⟩
    else .error (.sourceError ("mysql stream start binlog pos exceeds u32: "++ toString head.2.toNat))

def parseSids (readSid : List Char → Except String Unit) : List (List Char) → Except String (List (List Char))
  | [] => .ok []
  | entry::entries =>
    match readSid entry with
    | .error e => .error ("invalid GTID '"++String.ofList entry++"': "++e)
    | .ok () => (parseSids readSid entries).map (entry::·)

def parseGtidSet (readSid : List Char → Except String Unit) (gtidSet : String) : Except String (List (List Char)) :=
  parseSids readSid (((splitOn ',' (trim gtidSet.toList)).map trim).filter (!·.isEmpty))

/-- What the replication connection asks the server for. -/
structure BinlogStreamRequest where
  binlogFile : String
  binlogPos : UInt32
  gtidSet : List (List Char)

def binlogStreamRequest (config : StreamConfig) (answers : StartAnswers)
    (start : MysqlStreamStartPosition) : Except Error BinlogStreamRequest :=
  if config.gtidModeEnabled then
    match parseGtidSet answers.readSid start.gtid with
    | .error e => .error (.checkpointError
        ("cannot resume mysql stream: checkpointed GTID set is malformed: "++e++". "++
          "Expected a set such as '3E11FA47-71CA-11E1-9E33-C80AA9429562:1-5,8-10'."))
    | .ok sids => .ok ⟨start.binlogFile,start.binlogPos,sids⟩
  else .ok ⟨start.binlogFile,start.binlogPos,[]⟩

/-- An opened stream: the handle and the request its provider made. -/
structure OpenedStream where
  handle : MysqlStreamHandle
  request : BinlogStreamRequest

def startStream (config : StreamConfig) (answers : StartAnswers) (resumeFrom : Option Offset) :
    Except Error OpenedStream := do
  let start ← resolveStreamStartPosition config answers resumeFrom
  answers.openReplication
  let request ← binlogStreamRequest config answers start
  answers.binlogDump
  pure ⟨.new config.sourceType start.binlogFile start.binlogPos start.gtid config.tableIsAllowed,request⟩
section
variable (fileIndex : String → ℕ) (setPoint : List (List Char) → ℕ)

/-- Where the server sends a dump from: after the GTID set when it is given one, and else from the
coordinates.  `setPoint` is the point of the log up to which a set covers it. -/
def sendsFrom (request : BinlogStreamRequest) : ℕ :=
  if request.gtidSet.isEmpty then coordinate fileIndex request.binlogFile request.binlogPos
  else setPoint request.gtidSet

/-- A checkpoint whose GTID set is the point its coordinates are. -/
def Consistent (readSid : List Char → Except String Unit) : Offset → Prop
  | .mysql _ _ binlogFile binlogPos gtid _ =>
    ∀ sids, parseGtidSet readSid gtid = .ok sids → setPoint sids ≤ coordinate fileIndex binlogFile binlogPos
  | _ => True

/-- A checkpoint that says where a dump by GTID starts. -/
def NamesGtids (config : StreamConfig) : Offset → Prop
  | .mysql _ _ _ _ gtid _ => config.gtidModeEnabled = true → gtid ≠ ""
  | _ => True

variable {fileIndex setPoint} {c : StreamConfig} {as : StartAnswers} {offset : Offset} {s : MysqlStreamStartPosition}

lemma decodeStreamResumePosition_ok {expectedSource : String}
    (h : decodeStreamResumePosition expectedSource offset = .ok s) :
    ∃ st flavor incremental, offset = .mysql st flavor s.binlogFile s.binlogPos s.gtid incremental := by
  unfold decodeStreamResumePosition at h
  split at h
  · simp at h
  · split at h
    · rename_i st flavor _ _ _ incremental _
      cases h
      exact ⟨st,flavor,incremental,rfl⟩
    · simp at h

/-- From a checkpoint the start has its coordinates, and its set unless it names none. -/
theorem resolveStreamStartPosition_ok (h : resolveStreamStartPosition c as (some offset) = .ok s) :
    ∃ st flavor g inc, offset = .mysql st flavor s.binlogFile s.binlogPos g inc ∧ (g ≠ "" → s.gtid = g) := by
  obtain ⟨_,_,hr⟩ := except_bind_ok h
  obtain ⟨resumed,hre,hs⟩ := except_bind_ok hr
  obtain ⟨st,flavor,inc,rfl⟩ := decodeStreamResumePosition_ok hre
  clear h hr
  split_ifs at hs with he
  · obtain rfl := Except.ok.inj hs
    refine ⟨st,flavor,resumed.gtid,inc,rfl,fun hn => ?_⟩
    exact absurd (String.isEmpty_iff.mp he) hn
  · obtain ⟨_,_,hs⟩ := except_bind_ok hs
    obtain rfl := Except.ok.inj hs
    exact ⟨st,flavor,resumed.gtid,inc,rfl,fun _ => rfl⟩

/-- A stream opened from a checkpoint starts no later than the checkpoint. -/
theorem startStream_sendsFrom {o : OpenedStream} (hc : Consistent fileIndex setPoint as.readSid offset)
    (hn : NamesGtids c offset)
    (ho : startStream c as (some offset) = .ok o) :
    sendsFrom fileIndex setPoint o.request ≤ rank fileIndex offset := by
  obtain ⟨s,hs,hre⟩ := except_bind_ok ho
  obtain ⟨_,_,hre⟩ := except_bind_ok hre
  obtain ⟨q,hr,hre⟩ := except_bind_ok hre
  obtain ⟨_,_,hre⟩ := except_bind_ok hre
  cases hre
  obtain ⟨st,flavor,g,inc,rfl,hg⟩ := resolveStreamStartPosition_ok hs
  show sendsFrom fileIndex setPoint q ≤ coordinate fileIndex s.binlogFile s.binlogPos
  unfold binlogStreamRequest at hr
  split_ifs at hr with hm
  · split at hr
    · simp at hr
    · rename_i sids hsi
      cases hr
      rw [hg (hn hm)] at hsi
      unfold sendsFrom
      split
      · exact le_rfl
      · exact hc sids hsi
  · cases hr
    exact le_rfl
end
end Mysql
namespace Sqlserver
def bytePairs : List Char → List (List Char)
  | a::b::cs => [a,b]::bytePairs cs
  | _ => []

def readBytes : List (List Char) → Except Error (List ℕ)
  | [] => .ok []
  | piece::pieces =>
    match fromStrRadix 16 256 piece with
    | .error e => .error (.checkpointError ("invalid sqlserver LSN hex byte '"++String.ofList piece++"': "++e))
    | .ok byte => (readBytes pieces).map (byte::·)

/-- An LSN: ten bytes, compared bytewise, so as one number. -/
def lsnHexToBytes (lsnHex : String) : Except Error ℕ :=
  let value := match lsnHex.toList with
    | '0':: 'x'::cs | '0':: 'X'::cs => cs
    | cs => cs
  if value.length ≠ 20 then
    .error (.checkpointError ("invalid sqlserver LSN length: expected 20 hex chars, got "++
      toString value.length++" ("++lsnHex++")"))
  else (readBytes (bytePairs value)).map fun bytes => bytes.foldl (fun lsn byte => lsn*256+byte) 0

def lsnBytesToHex (lsn : ℕ) : String := String.ofList ('0':: 'x'::padZeros 20 (Nat.toDigits 16 lsn))

def lsnFromSourceOffset (offset : String) : Option ℕ :=
  match splitOnce ':' offset.toList with
  | some (candidate,_) => (lsnHexToBytes (String.ofList candidate)).toOption
  | none => (lsnHexToBytes offset).toOption

/-- The cursor of an offset the connector wrote, or the bare text of a snapshot handover. -/
def resumeLsn (offset : Offset) : Except Error ℕ :=
  if offset.sourceType ≠ "sqlserver" then
    .error (.checkpointError ("cannot resume sqlserver stream from source type '"++offset.sourceType++"'"))
  else
    match offset with
    | .sqlserver cursor _ | .generic _ cursor =>
      match lsnFromSourceOffset cursor with
      | none => .error (.checkpointError ("invalid sqlserver checkpoint offset: "++cursor))
      | some lsn => .ok lsn
    | _ => .error (.checkpointError
        "sqlserver checkpoint offset is neither a SqlServerOffset object nor a cursor string")

/-- The least of the capture instances' minimum LSNs. -/
def minLsn : List (Except Error ℕ) → Option ℕ → Except Error (Option ℕ)
  | [], least => .ok least
  | .error e::_, _ => .error e
  | .ok lsn::lsns, none => minLsn lsns (some lsn)
  | .ok lsn::lsns, some least => minLsn lsns (some (if lsn < least then lsn else least))

structure StartAnswers where
  /-- `fn_cdc_get_min_lsn` of each capture instance. -/
  minLsns : List (Except Error ℕ)
  setup : Except Error Unit

/-- The LSN the stream's first window starts at. -/
def startLsn (answers : StartAnswers) (resumeFrom : Option Offset) : Except Error ℕ := do
  let least ← minLsn answers.minLsns none
  match least with
  | none => .error (.sourceError "sqlserver could not determine CDC minimum LSN")
  | some least =>
    match resumeFrom with
    | none => do
      answers.setup
      pure least
    | some offset => do
      let resume ← resumeLsn offset
      if resume < least then
        .error (.checkpointError ("sqlserver checkpoint LSN "++lsnBytesToHex resume++
          " is older than CDC minimum "++lsnBytesToHex least++
          "; CDC cleanup removed required rows"))
      else do
        answers.setup
        pure resume

/-- A stream starts at its checkpoint's LSN. -/
theorem startLsn_ok {an : StartAnswers} {o : Offset} {start : ℕ} (h : startLsn an (some o) = .ok start) :
    resumeLsn o = .ok start := by
  obtain ⟨least,_,hre⟩ := except_bind_ok h
  cases least with
  | none => simp at hre
  | some =>
    obtain ⟨resume,hr,hre⟩ := except_bind_ok hre
    split at hre
    · simp at hre
    · obtain ⟨_,_,hre⟩ := except_bind_ok hre
      cases hre
      exact hr
end Sqlserver
end Rustcdc
