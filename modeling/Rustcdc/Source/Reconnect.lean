import Rustcdc.Source.AtLeastOnce
import Rustcdc.Source.StreamStart

/-! A reconnect in the middle of a run, against a fresh start on the same store and against the
events the run still owes: those returned and uncommitted, and those the server has not sent. -/
namespace Rustcdc
open CdcRuntime
namespace CdcRuntime
variable {S I H : Type}

/-- A reopened stream is built over the log as the source opens it at the checkpoint. -/
theorem reconnect_openLog {rt : CdcRuntime S H} {source : Source S I H} {load : Except Error Unit} {st : H}
    (ho : (rt.reconnect source load).restart = .ok st) :
    ∃ inner, source.openLog (rt.checkpoint.load.map (·.1)) = .ok inner := by
  cases hl : source.openLog (rt.checkpoint.load.map (·.1)) with
  | ok inner => exact ⟨inner,rfl⟩
  | error =>
    simp only [reconnect,resumeStreamAfterReconnect,Source.startIncrementalSnapshot,Source.startStream,hl] at ho
    split at ho <;> split at ho <;> simp [Except.map] at ho
end CdcRuntime
namespace Replay
variable {S H : Type} [SnapshotHandle S] [StreamHandle H] [Handoff S H] (C : Connector H) (opened : ℕ)

/-- A change the server has not sent: it ends after the point the stream was opened at and after
all that was returned. -/
def Unsent (s : Replay S H) (e : Event) : Prop := opened < C.endOf e ∧ ∀ b ∈ s.returned, C.endOf b < C.endOf e
def Outstanding (s : Replay S H) (e : Event) : Prop := e ∈ s.returned.diff s.committed ∨ s.Unsent C opened e

instance (s : Replay S H) (e : Event) : Decidable (s.Outstanding C opened e) := by
  unfold Outstanding Unsent
  infer_instance

variable {C} {opened} {s : Replay S H}

omit [SnapshotHandle S] [Handoff S H] in
lemma Protected.savedRank_lt (h : s.Protected C opened) {e : Event}
    (he : s.Outstanding C opened e) : C.savedRank s.runtime.checkpoint < C.endOf e := by
  obtain ⟨f,hf⟩ := h.tracked
  rcases he with he | ⟨ho,hl⟩
  · exact hf.coversNone e he
  · rw [← hf.saved]
    rcases hf.ordered.bound with hbo | ⟨b,hb,hbo⟩
    · omega
    · rw [hf.firsts] at hb
      have hlt := hl b hb
      omega
end Replay
open Replay

namespace Replay
/-- A server that answers everything, its log ending at `walLsn`. -/
def pgAnswers (walLsn : UInt64) : Postgres.StartAnswers := ⟨.ok [],.ok walLsn,fun _ => .ok 0,.ok (),.ok ()⟩
def pgStream : Postgres.StreamConfig := ⟨"slot",.streamingReplication,0,fun _ _ => true⟩

/-- A source that opens its log as told, over a bulk snapshot of type `S`. -/
def sourceOf {S I H : Type} (snapshot : Except Error S) (openLog : Option Offset → Except Error I)
    (plain : I → H) : Source S I H where
  snapshotCheckpointResume := true
  connect := .ok ()
  startSnapshot _ := snapshot
  startSnapshotFromCheckpoint _ _ := snapshot
  openLog := openLog
  plain := plain
  driver inner _ := .ok (plain inner)

def pgSource {S : Type} (snapshot : Except Error S) :
    Source S Postgres.PostgresStreamHandle Postgres.PostgresStreamHandle :=
  sourceOf snapshot (Postgres.startPostgresStream pgStream (pgAnswers 90)) id
def mysqlStream (gtidModeEnabled : Bool) : Mysql.StreamConfig := ⟨"mysql",gtidModeEnabled,fun _ _ => true⟩

/-- A server whose one binlog file ends at `head`. -/
def mysqlAnswers (head : UInt64) : Mysql.StartAnswers :=
  ⟨.ok ("bin.1",head),"uuid:1-9",.ok (),fun _ => .ok (),.ok (),.ok ()⟩

def mysqlSource (gtidModeEnabled : Bool) (head : UInt64) : Source Empty Mysql.OpenedStream Mysql.MysqlStreamHandle :=
  sourceOf (.error (.sourceError "no snapshot"))
    (Mysql.startStream (mysqlStream gtidModeEnabled) (mysqlAnswers head)) (·.handle)
def noSnapshot : Except Error Empty := .error (.sourceError "no snapshot")
def pgRun : Replay Empty Postgres.PostgresStreamHandle :=
  Machine.run (Replay.step pgConnector) pgStart (wholeCommits pgLog [])
def mysqlRun : Replay Empty Mysql.MysqlStreamHandle :=
  Machine.run (Replay.step mysqlConnector) mysqlStart (wholeCommits mysqlLog [])

instance (h : Postgres.PostgresStreamHandle) (answers : List Postgres.PassAnswer) :
    Decidable (pgConnector.Sent h answers) :=
  inferInstanceAs (Decidable (Postgres.Sent _ h answers))

instance (h : Mysql.MysqlStreamHandle) (polls : List (Except Error (List Mysql.MysqlBinlogMessage))) :
    Decidable (mysqlConnector.Sent h polls) :=
  inferInstanceAs (Decidable (Mysql.Sent _ polls))

lemma pgStart_fresh : Fresh pgConnector 0 pgStart.runtime := by
  have hg : pgConnector.Good pgHandle := ⟨by simp [pgHandle,Postgres.PostgresStreamHandle.new],
      by simp [pgHandle,Postgres.PostgresStreamHandle.new]⟩
  have ha : pgConnector.Accepts (configOn (.postgres "slot")).source := rfl
  exact started_fresh ha ⟨[]⟩ 0 none hg (by decide)

lemma mysqlStart_fresh : Fresh mysqlConnector 4 mysqlStart.runtime := by
  have hg : mysqlConnector.Good mysqlHandle := ⟨rfl,by simp [mysqlHandle,Mysql.MysqlStreamHandle.new]⟩
  have ha : mysqlConnector.Accepts (configOn .mysql).source := .inl rfl
  exact started_fresh ha ⟨[]⟩ 0 none hg (by decide)

/-- A runtime on the store before `start`. -/
def stopped {S H : Type} (source : RuntimeSourceConfig) (saved : List (Offset × UInt64)) : CdcRuntime S H :=
  {CdcRuntime.started (configOn source) ⟨saved⟩ 0 none none none with state := .idle}
end Replay
namespace Replay
/-- The checkpoint of a bulk snapshot whose watermark is 50. -/
def snapshotCheckpoint : Offset := .snapshot "postgres_snapshot" ⟨"snapshot",1,0,50,0,0,[]⟩

def afterSnapshot : CdcRuntime Unit Postgres.PostgresStreamHandle :=
  stopped (.postgres "slot") [(snapshotCheckpoint,1)]

/-- A read that fails and every reconnect as the runtime makes it, with two retries allowed. -/
def pollAfterSnapshot : Option (Except Error (List Event)) :=
  let again := afterSnapshot.reconnect (pgSource (.ok ())) (.ok ())
  let broken : Postgres.PassAnswer :=
    {Postgres.SlotTrace.passOf [] with poll := ⟨[],some (.sourceError "connection reset"),false⟩}
  (pollStreamRetrying ⟨some 2⟩ 0 (some pgHandle) (List.replicate 3 ⟨again,[broken],again⟩)).map (·.2)

def changeEndingAt (binlogPos : UInt32) : Event :=
  {Session.plainEvent with source := ⟨"mysql",formatMysqlSourceOffset "bin.1" binlogPos "",1⟩}
end Replay
end Rustcdc
