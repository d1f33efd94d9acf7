import Rustcdc.Source.Mysql.Restart
import Rustcdc.Source.Postgres.Restart

/-! At-least-once across a restart, for the two connectors whose position is the end of a
transaction. -/
namespace Rustcdc
open Machine
open CdcRuntime Postgres Mysql

/-- The durable position never covers an event that was returned and is still uncommitted, in
every run whose polls lose no new event and whose commits end at transaction ends. -/
theorem at_least_once {S : Type} [SnapshotHandle S] [Handoff S PostgresStreamHandle]
    [Handoff S MysqlStreamHandle] (config : RuntimeConfig) (checkpoint : Checkpoint Offset)
    (count : UInt64) (guard : Option EventIdempotencyGuard) :
    (∀ (txEnd : UInt64 → ℕ) (sourceName slotName : String) (lsnPosition : UInt64)
      (provider : Provider) (interval : UInt64) (allowed : Option String → String → Bool)
      (catalog : List ((String × String) × List String))
      (calls : List (RuntimeCall S PostgresStreamHandle)),
      let start := Replay.start (CdcRuntime.started config checkpoint count guard none
        (some (.new sourceName slotName lsnPosition provider interval allowed catalog)))
      let C := Postgres.connector txEnd
      config.source = .postgres slotName →
      Meets (Replay.step C) (Replay.Answered C (C.savedRank checkpoint)) start calls →
      Meets (Replay.step C) (Replay.Unsplit C) start calls →
      (run (Replay.step C) start calls).CoversNone C) ∧
    (∀ (fileIndex : String → ℕ) (sourceName binlogFile : String) (binlogPos : UInt32)
      (gtid : String) (allowed : Option String → String → Bool)
      (calls : List (RuntimeCall S MysqlStreamHandle)),
      let start := Replay.start (CdcRuntime.started config checkpoint count guard none
        (some (.new sourceName binlogFile binlogPos gtid allowed)))
      let C := Mysql.connector fileIndex
      config.source = .mysql ∨ config.source = .mariadb →
      Meets (Replay.step C) (Replay.Answered C (C.savedRank checkpoint)) start calls →
      Meets (Replay.step C) (Replay.Unsplit C) start calls →
      (run (Replay.step C) start calls).CoversNone C) := by
  constructor
  · intro txEnd sourceName slotName lsnPosition provider interval allowed catalog calls start C hs hse hsa
    have ha : C.Accepts config.source := by
      rw [hs]
      rfl
    have hg : C.Good (.new sourceName slotName lsnPosition provider interval allowed catalog) :=
      ⟨by simp [PostgresStreamHandle.new],by simp [PostgresStreamHandle.new]⟩
    exact Replay.run_coversNone ha checkpoint count guard hg hse hsa
  · intro fileIndex sourceName binlogFile binlogPos gtid allowed calls start C hs hse hsa
    have hg : C.Good (.new sourceName binlogFile binlogPos gtid allowed) := ⟨rfl,by simp [MysqlStreamHandle.new]⟩
    exact Replay.run_coversNone hs checkpoint count guard hg hse hsa

namespace Replay
section
variable {H : Type} [StreamHandle H]

/-- A read of the stream, with the connection gone if it fails. -/
def readOnce (answer : StreamHandle.Answer H) : StreamAttempt H :=
  let down : Reconnect H := ⟨.error (.sourceError "closed"),.ok (),.error (.sourceError "closed")⟩
  ⟨down,answer,down⟩

lemma attemptsSent_readOnce {C : Connector H} {s : Option H} {a : StreamHandle.Answer H} (h : ∀ hd ∈ s, C.Sent hd a) :
    C.AttemptsSent s [readOnce a] := by
  cases s with
  | none => exact ⟨fun _ ho => by simp [readOnce] at ho,trivial⟩
  | some hd => exact ⟨h hd rfl,fun _ ho => by simp [readOnce] at ho,trivial⟩

def reading (answer : StreamHandle.Answer H) : RuntimeCall Empty H := .poll
    {confirm := .ok ()
     now := 1
     schemaHistory := fun _ => none
     chunk := ()
     handoff := ()
     attempts := [readOnce answer]}

/-- Commit `count` events of the delivery. -/
def committing (delivery : UInt64) (count : ℕ) (epoch : UInt64) : RuntimeCall Empty H :=
  .commit ⟨delivery,count,epoch⟩ Session.accepting
end
/-- Two-event buffers on a source. -/
def configOn (source : RuntimeSourceConfig) : RuntimeConfig := {Session.plainConfig with
    source := source
    options := Session.pairOptions}

/-- A two-row transaction, then a one-row transaction. -/
def pgLog : List PassAnswer := [SlotTrace.passOf ([SlotTrace.record 10 (.begin ⟨10,1,1⟩),
      SlotTrace.record 10 (.relation ⟨1,"public","t",100,[⟨"id",1,23,0⟩]⟩),
      SlotTrace.record 9 (.insert 1 [.text "1"]),SlotTrace.record 10 (.insert 1 [.text "2"]),
      SlotTrace.record 10 (.commit ⟨10,11⟩)]++SlotTrace.oneRow 1 "t" 2 20)]

def pgHandle : PostgresStreamHandle := .new "postgres" "slot" 0 (.streaming 0 0) 0 (fun _ _ => true) []
def pgStart : Replay Empty PostgresStreamHandle :=
  start (.started (configOn (.postgres "slot")) ⟨[]⟩ 0 none none (some pgHandle))

/-- Transaction `n` ends at `10 * n + 1`. -/
def pgConnector : Connector PostgresStreamHandle := Postgres.connector fun xid => 10*xid.toNat+1

/-- The same two transactions in a binlog. -/
def mysqlLog : List (Except Error (List MysqlBinlogMessage)) :=
  let row : MysqlRowChange := ⟨some "app","t",none,none,some .null⟩
  [.ok [.begin 1 1,.writeRows row,.writeRows row,.xid 1 1 "bin.1" 11 none,
    .begin 2 1,.writeRows row,.xid 2 1 "bin.1" 21 none]]

def mysqlHandle : MysqlStreamHandle := .new "mysql" "bin.1" 4 "" (fun _ _ => true)
def mysqlStart : Replay Empty MysqlStreamHandle :=
  start (.started (configOn .mysql) ⟨[]⟩ 0 none none (some mysqlHandle))

/-- A server with one binlog file. -/
def mysqlConnector : Connector MysqlStreamHandle := Mysql.connector fun _ => 0

def wholeCommits {H : Type} [StreamHandle H] (log idle : StreamHandle.Answer H) : List (RuntimeCall Empty H) :=
  [reading log,committing 1 2 0,reading idle]
end Replay
open Replay in
theorem at_least_once_sample :
    (let s := run (step pgConnector) pgStart (wholeCommits pgLog [])
     s.returned.length = 3 ∧ s.committed.length = 2 ∧
      pgConnector.savedRank s.runtime.checkpoint = 11 ∧ s.CoversNone pgConnector) ∧
    (let s := run (step mysqlConnector) mysqlStart (wholeCommits mysqlLog [])
     s.returned.length = 3 ∧ s.committed.length = 2 ∧
      mysqlConnector.savedRank s.runtime.checkpoint = 11 ∧ s.CoversNone mysqlConnector) := by
  have hp := (at_least_once (S := Empty) (configOn (.postgres "slot")) ⟨[]⟩ 0 none).1
    (fun xid => 10*xid.toNat+1) "postgres" "slot" 0 (.streaming 0 0) 0 (fun _ _ => true) []
    (wholeCommits pgLog []) rfl
    ⟨⟨attemptsSent_readOnce (by decide),by decide⟩,trivial,
      ⟨attemptsSent_readOnce (by decide),by decide⟩,trivial⟩ (by decide)
  have hm := (at_least_once (S := Empty) (configOn .mysql) ⟨[]⟩ 0 none).2
    (fun _ => 0) "mysql" "bin.1" 4 "" (fun _ _ => true) (wholeCommits mysqlLog []) (.inl rfl)
    ⟨⟨attemptsSent_readOnce (by decide),by decide⟩,trivial,
      ⟨attemptsSent_readOnce (by decide),by decide⟩,trivial⟩ (by decide)
  exact ⟨⟨by decide,by decide,by decide,hp⟩,⟨by decide,by decide,by decide,hm⟩⟩

namespace Replay
variable {H : Type} [StreamHandle H]

/-- The first event of the two-row transaction is committed with a narrowed token. -/
def splitCommit (log : StreamHandle.Answer H) : List (RuntimeCall Empty H) := [reading log,committing 1 1 0]

/-- The server keeps its side, and the position saved is the end of a transaction with an event
still uncommitted. -/
def Splits (C : Connector H) (first : Replay Empty H) (calls : List (RuntimeCall Empty H)) : Prop :=
  let s := run (step C) first calls
  Meets (step C) (Answered C 0) first calls ∧
    (∃ e ∈ s.returned.diff s.committed, C.endOf e = C.savedRank s.runtime.checkpoint) ∧
    ¬ s.CoversNone C
end Replay
open Replay in
theorem split_commit_covers : Splits pgConnector pgStart (splitCommit pgLog) ∧
    Splits mysqlConnector mysqlStart (splitCommit mysqlLog) := by
  refine ⟨⟨?_,by decide,by decide⟩,⟨?_,by decide,by decide⟩⟩
  · refine ⟨⟨attemptsSent_readOnce fun handle ho => ?_,by decide⟩,trivial,trivial⟩
    cases ho
    exact (by decide : Postgres.Sent (fun xid => 10*xid.toNat+1) pgHandle pgLog)
  · refine ⟨⟨attemptsSent_readOnce fun handle ho => ?_,by decide⟩,trivial,trivial⟩
    exact (by decide : Mysql.Sent (fun _ => 0) mysqlLog)
end Rustcdc
