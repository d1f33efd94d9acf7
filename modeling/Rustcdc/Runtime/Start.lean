import Rustcdc.Runtime.Poll

/-! `start` and the reconnect of the poll loop: the two places that open the source's stream, each
from what the checkpoint store holds. -/
namespace Rustcdc
namespace Offset
def sourceType : Offset → String
  | .postgres _ _ _ => "postgres"
  | .mysql sourceType _ _ _ _ _ => sourceType
  | .sqlserver _ _ => "sqlserver"
  | .snapshot sourceType _ => sourceType
  | .mysqlSnapshot sourceType _ _ _ => sourceType
  | .sqlserverSnapshot _ => "sqlserver_snapshot"
  | .generic sourceType _ => sourceType

/-- `state_from_offset`. -/
def incrementalSnapshotState : Offset → Option IncrementalSnapshotState
  | .postgres _ _ incremental => incremental
  | .mysql _ _ _ _ _ incremental => incremental
  | .sqlserver _ incremental => incremental
  | _ => none
end Offset
/-- What a source answers while its handles are opened.  `I` is its log stream; the runtime polls
it as `H`, plain or under the incremental-snapshot driver. -/
structure Source (S I H : Type) where
  snapshotCheckpointResume : Bool
  connect : Except Error Unit
  startSnapshot : List String → Except Error S
  startSnapshotFromCheckpoint : List String → Offset → Except Error S
  openLog : Option Offset → Except Error I
  plain : I → H
  driver : I → Option IncrementalSnapshotState → Except Error H

namespace Source
variable {S I H : Type}

def disabled : Error := .configError "runtime source is disabled in this build"

variable (source : Source S I H) (kind : RuntimeSourceConfig) (resumeFrom : Option Offset)

def startStream : Except Error H :=
  match kind with
  | .disabled => .error disabled
  | _ => (source.openLog resumeFrom).map source.plain

def startIncrementalSnapshot : Except Error H :=
  match kind with
  | .disabled => .error disabled
  | .custom => .error (.configError ("incremental snapshot startup is not available for a custom source. "++
        "The DBLog watermark algorithm needs connector-native watermark queries "++
        "that the Source trait does not expose; use snapshot_tables for a "++
        "blocking initial snapshot instead."))
  | _ =>
    match source.openLog resumeFrom with
    | .error e => .error e
    | .ok inner => source.driver inner (resumeFrom.bind Offset.incrementalSnapshotState)
end Source
namespace CdcRuntime
variable {S I H : Type} (config : RuntimeConfig)

def isSnapshotCheckpoint (offset : Offset) : Bool :=
  match config.source.sourceType with
  | none => false
  | some sourceType => offset.sourceType = sourceType++"_snapshot"

/-- Two upper-case digits of a byte. -/
def hexByte (byte : UInt8) : List Char := padZeros 2 (formatNat 16 byte.toNat)

/-- Where streaming goes on after a bulk snapshot that its checkpoint interrupts. -/
def streamResumeOffsetForSnapshotCheckpoint (offset : Offset) : Except Error (Option Offset) :=
  match config.source, offset with
  | .postgres slotName, .snapshot _ state =>
    .ok (some (.postgres state.snapshotWatermark slotName none))
  | .postgres _, _ =>
    .error (.checkpointError "postgres snapshot checkpoint is missing 'snapshot_watermark'")
  | .mysql, .mysqlSnapshot _ binlogFile binlogPos gtid =>
    .ok (some (.mysql "mysql" "mysql" binlogFile binlogPos gtid none))
  | .mariadb, .mysqlSnapshot _ binlogFile binlogPos gtid =>
    .ok (some (.mysql "mariadb" "mariadb" binlogFile binlogPos gtid none))
  | .mysql, _ | .mariadb, _ =>
    .error (.checkpointError "mysql snapshot checkpoint is missing 'binlog_file'")
  | .sqlserver, .sqlserverSnapshot lsnStart =>
    if lsnStart.length ≠ 10 then
      .error (.checkpointError "sqlserver snapshot checkpoint lsn_start must contain exactly 10 bytes")
    else .ok (some (.sqlserver (String.ofList ('0':: 'x'::lsnStart.flatMap hexByte)) none))
  | .sqlserver, _ =>
    .error (.checkpointError "sqlserver snapshot checkpoint is missing 'lsn_start'")
  | .disabled, _ | .custom, _ => .ok none

/-- The checkpoint `start` goes by.  A snapshot checkpoint the connector cannot resume is
ignored. -/
def startCheckpoint (snapshotTables : List String) (source : Source S I H) (loaded : Option Offset) : Except Error (Option Offset) :=
  match loaded with
  | none => .ok none
  | some offset =>
    if isSnapshotCheckpoint config offset then
      if config.incrementalSnapshot then
        .error (.configError "cannot resume incremental snapshot startup from a snapshot checkpoint")
      else if !source.snapshotCheckpointResume then .ok none
      else if snapshotTables.isEmpty then
        .error (.configError "snapshot_tables must not be empty when resuming from a snapshot checkpoint")
      else .ok (some offset)
    else .ok (some offset)

variable (rt : CdcRuntime S H)

def withStream (opened : Except Error H) (handoffComplete : Bool) : CdcRuntime S H × Except Error Unit :=
  match opened with
  | .error e => (rt,.error e)
  | .ok stream =>
    ({rt with
      stream := some stream
      handoffComplete := handoffComplete
      state := .running},.ok ())
section
variable (snapshotTables : List String) (source : Source S I H)

def openHandles (checkpointOffset : Option Offset) : CdcRuntime S H × Except Error Unit :=
  let kind := rt.config.source
  if rt.config.incrementalSnapshot then
    {rt with snapshot := none}.withStream (source.startIncrementalSnapshot kind checkpointOffset) true
  else
    match checkpointOffset with
    | some offset =>
      if isSnapshotCheckpoint rt.config offset then
        match source.startSnapshotFromCheckpoint snapshotTables offset with
        | .error e => (rt,.error e)
        | .ok snapshot =>
          let rt := {rt with snapshot := some snapshot}
          match streamResumeOffsetForSnapshotCheckpoint rt.config offset with
          | .error e => (rt,.error e)
          | .ok none => (rt,.error (.stateError ("cannot resume streaming after snapshot checkpoint: no "++
                "'snapshot_watermark' LSN was found in the checkpoint payload. "++
                "Streaming without a known start position risks a data-loss window. "++
                "Re-run the snapshot from scratch to obtain a fresh watermark.")))
          | .ok (some resumeFrom) =>
            rt.withStream (source.startStream kind (some resumeFrom)) false
      else
        match source.startStream kind (some offset) with
        | .error e => (rt,.error e)
        | .ok stream => {rt with snapshot := none}.withStream (.ok stream) true
    | none =>
      if snapshotTables.isEmpty then
        {rt with snapshot := none}.withStream (source.startStream kind none) true
      else
        match source.startSnapshot snapshotTables with
        | .error e => (rt,.error e)
        | .ok snapshot =>
          {rt with snapshot := some snapshot}.withStream (source.startStream kind none) false

/-- `start` once the barrier's count is hydrated.  `load` is how the store answers the read. -/
def startSource (load : Except Error Unit) : CdcRuntime S H × Except Error Unit :=
  if rt.config.source = .disabled then ({rt with state := .running},.ok ())
  else if rt.config.incrementalSnapshot && !snapshotTables.isEmpty then
    (rt,.error (.configError ("cannot configure both snapshot_tables and incremental_snapshot; "++
        "choose one startup mode")))
  else
    match load with
    | .error e => (rt,.error e)
    | .ok () =>
      match startCheckpoint rt.config snapshotTables source (rt.checkpoint.load.map (·.1)) with
      | .error e => (rt,.error e)
      | .ok checkpointOffset =>
        match source.connect with
        | .error e => (rt,.error e)
        | .ok () => rt.openHandles snapshotTables source checkpointOffset

def start (count : Except Error UInt64) (load : Except Error Unit) : CdcRuntime S H × Except Error Unit :=
  match rt.state with
  | .running => (rt,.error (.stateError "runtime already started"))
  | .stopping => (rt,.error (.stateError "runtime is currently stopping"))
  | .idle | .stopped =>
    match count with
    | .error e => (rt,.error e)
    | .ok count =>
      match rt.commitBarrier.hydrateCommittedEventCount count with
      | (barrier,.error e) => ({rt with commitBarrier := barrier},.error e)
      | (barrier,.ok ()) => {rt with commitBarrier := barrier}.startSource snapshotTables source load
end
/-- Re-open the stream in the capture mode `start` chose. -/
def resumeStreamAfterReconnect (config : RuntimeConfig) (source : Source S I H)
    (resumeFrom : Option Offset) : Except Error H :=
  if config.incrementalSnapshot then source.startIncrementalSnapshot config.source resumeFrom
  else source.startStream config.source resumeFrom

/-- How a reconnect of the poll loop is answered: the stream is reopened from the checkpoint. -/
def reconnect (source : Source S I H) (load : Except Error Unit) : Reconnect H := ⟨source.connect,load,
    resumeStreamAfterReconnect rt.config source (rt.checkpoint.load.map (·.1))⟩

variable {rt : CdcRuntime S H} {sts : List String} {s : Source S I H}

lemma withStream_ok {o : Except Error H} {handoffComplete : Bool}
    (ho : (rt.withStream o handoffComplete).2 = .ok ()) :
    ∃ stream, o = .ok stream ∧ (rt.withStream o handoffComplete).1.stream = some stream := by
  cases o with
  | error => simp [withStream] at ho
  | ok stream => exact ⟨stream,rfl,rfl⟩

/-- From any checkpoint that is not a bulk snapshot's, `start` opens the stream a reconnect
opens. -/
theorem openHandles_stream {checkpointOffset : Option Offset}
    (hp : ∀ o ∈ checkpointOffset, isSnapshotCheckpoint rt.config o = false)
    (hok : (rt.openHandles sts s checkpointOffset).2 = .ok ()) :
    ∃ stream, resumeStreamAfterReconnect rt.config s checkpointOffset = .ok stream ∧
      (rt.openHandles sts s checkpointOffset).1.stream = some stream := by
  unfold openHandles resumeStreamAfterReconnect at *
  dsimp only at hok ⊢
  by_cases hi : rt.config.incrementalSnapshot = true
  · simp only [if_pos hi] at hok ⊢
    exact withStream_ok hok
  · simp only [if_neg hi] at hok ⊢
    cases checkpointOffset with
    | some o =>
      simp only [hp o rfl,Bool.false_eq_true,if_false] at hok ⊢
      cases ho : s.startStream rt.config.source (some o) with
      | error => simp [ho] at hok
      | ok stream => exact ⟨stream,rfl,rfl⟩
    | none =>
      dsimp only at hok ⊢
      split_ifs at hok with he
      · rw [if_pos he]
        exact withStream_ok hok
      · rw [if_neg he]
        cases hs : s.startSnapshot sts with
        | error => simp [hs] at hok
        | ok =>
          rw [hs] at hok
          exact withStream_ok hok

variable {l : Except Error Unit}

lemma startSource_stream (hs : rt.config.source ≠ .disabled)
    (hp : ∀ saved ∈ rt.checkpoint.load, isSnapshotCheckpoint rt.config saved.1 = false)
    (hok : (rt.startSource sts s l).2 = .ok ()) :
    ∃ stream, (rt.reconnect s l).restart = .ok stream ∧ (rt.startSource sts s l).1.stream = some stream := by
  have hl : ∀ o ∈ rt.checkpoint.load.map (·.1), isSnapshotCheckpoint rt.config o = false := by
    intro o ho
    obtain ⟨saved,hsa,rfl⟩ := Option.mem_map.mp ho
    exact hp saved hsa
  have hc : startCheckpoint rt.config sts s (rt.checkpoint.load.map (·.1)) = .ok (rt.checkpoint.load.map (·.1)) := by
    unfold startCheckpoint
    split
    · rename_i hn
      rw [hn]
    · rename_i o hso
      rw [hl o hso,hso]
      rfl
  unfold startSource at hok ⊢
  rw [if_neg hs] at hok ⊢
  split at hok
  · simp at hok
  · rename_i hm
    rw [if_neg hm]
    cases l with
    | error => simp at hok
    | ok =>
      dsimp only at hok ⊢
      rw [hc] at hok ⊢
      dsimp only at hok ⊢
      cases hco : s.connect with
      | error => simp [hco] at hok
      | ok =>
        rw [hco] at hok
        exact openHandles_stream hl hok

/-- A successful `start` and a reconnect on the same store open the same stream, unless the
checkpoint is a bulk snapshot's. -/
theorem start_stream {n : Except Error UInt64} (hs : rt.config.source ≠ .disabled)
    (hp : ∀ saved ∈ rt.checkpoint.load, isSnapshotCheckpoint rt.config saved.1 = false)
    (ho : (rt.start sts s n l).2 = .ok ()) :
    ∃ stream, (rt.reconnect s l).restart = .ok stream ∧ (rt.start sts s n l).1.stream = some stream := by
  unfold start at ho ⊢
  split at ho
  · simp at ho
  · simp at ho
  all_goals
    rename_i hst
    cases n with
    | error => simp at ho
    | ok n =>
      dsimp only at ho ⊢
      cases hh : rt.commitBarrier.hydrateCommittedEventCount n with
      | mk barrier hydrated =>
        rw [hh] at ho
        cases hydrated with
        | error => simp at ho
        | ok =>
          exact @startSource_stream S I H {rt with commitBarrier := barrier} sts s
            l hs hp ho
end CdcRuntime
end Rustcdc
