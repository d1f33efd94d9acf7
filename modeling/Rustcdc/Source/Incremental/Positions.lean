import Rustcdc.Source.AtLeastOnce
import Rustcdc.Source.Incremental.Chunk

/-! Checkpoints of live events with and without the incremental-snapshot driver in front of the
stream.  The driver forwards polls and confirmations, not the question where to resume. -/
namespace Rustcdc.Incremental
open Machine CdcRuntime
open Postgres (PostgresStreamHandle)
variable {P H S : Type} [Ord P] [StreamHandle H]

/-- The states the stream itself goes through when it is polled and told about positions. -/
inductive Directly (first : H) : H → Prop
  | start : Directly first first
  | polled {h : H} (before : Directly first h) (answer : StreamHandle.Answer H) :
      Directly first (StreamHandle.nextEvents h answer).1
  | confirmed {h : H} (before : Directly first h) (lsn : UInt64) (answer : Except Error Unit) :
      Directly first (StreamHandle.confirmLsn h lsn answer).1

/-- A call on the driver, or a confirmation sent through it. -/
def wrappedStep (s : DriverTrace P H) : DriverCall P H ⊕ UInt64 × Except Error Unit → DriverTrace P H
  | .inl call => s.step call
  | .inr (lsn,answer) => {s with driver := (StreamHandle.confirmLsn s.driver lsn answer).1}

lemma pass_inner (d : IncrementalSnapshotDriver P H) (a : PassAnswer P H) :
    (d.pass a).1.inner = d.inner ∨ (d.pass a).1.inner = (StreamHandle.nextEvents d.inner a.events).1 := by
  have hc := pass_cases d a
  generalize hr : d.pass a = passed at hc
  cases hc with
  | through _ h =>
    rw [h,IncrementalSnapshotDriver.passThrough]
    split
    · exact .inl rfl
    · generalize StreamHandle.nextEvents d.inner a.events = answered
      obtain ⟨i,_ | _⟩ := answered <;> exact .inr rfl
  | prepared _ _ h | emitted _ h => cases h <;> exact .inl rfl
  | collected hp =>
    right
    rw [← hr]
    unfold IncrementalSnapshotDriver.pass IncrementalSnapshotDriver.driveChunkCollect
    rw [hp]
    generalize StreamHandle.nextEvents d.inner a.events = answered
    obtain ⟨i,_ | _⟩ := answered
    · rfl
    · dsimp only [IncrementalSnapshotDriver.collectBatch]
      split <;> rfl

lemma wrappedStep_directly {f : H} (s : DriverTrace P H)
    (c : DriverCall P H ⊕ UInt64 × Except Error Unit) (h : Directly f s.driver.inner) :
    Directly f (wrappedStep s c).driver.inner := by
  rcases c with c | ⟨lsn,an⟩
  · cases c with
    | nextEvents as =>
      refine DriverTrace.step_nextEvents_rule (C := fun _ _ => True)
        (Q := fun s => Directly f s.driver.inner) (fun s a h _ => ?_) (fun _ _ h => h) h (loopMeets_true ..)
      rcases pass_inner s.driver a with hi | hi
      · exact hi.symm ▸ h
      · exact hi.symm ▸ h.polled a.events
    | request ca q =>
      rcases enqueueTables_cases s.driver ca q with hq | ⟨_,_,_,_,_,hq⟩ <;>
        simpa [wrappedStep,DriverTrace.step,hq] using h
    | setPaused | stopSnapshot => exact h
  · exact h.confirmed lsn an

/-- A checkpoint offset without the progress of the snapshot. -/
def bare : Offset → Offset
  | .postgres lsn slotName _ => .postgres lsn slotName none
  | offset => offset

/-- A runtime on the driver and one on the stream itself, with the same batch in flight. -/
structure Beside (d : IncrementalSnapshotDriver P H) (wrapped : CdcRuntime S (IncrementalSnapshotDriver P H))
    (direct : CdcRuntime S H) : Prop where
  driver : wrapped.stream = some d
  stream : direct.stream = some d.inner
  config : wrapped.config = direct.config
  pending : wrapped.pendingDelivery = direct.pendingDelivery

/-- The end of the event's transaction, as long as the stream remembers it: until it is confirmed. -/
def recordedEnd (h : PostgresStreamHandle) (e : Event) : Option UInt64 :=
  e.transaction.bind fun tx => h.committedTxEnds.reverse.lookup tx.txId
section
variable {d : IncrementalSnapshotDriver P PostgresStreamHandle}
  {direct : CdcRuntime S PostgresStreamHandle}
  {wrapped : CdcRuntime S (IncrementalSnapshotDriver P PostgresStreamHandle)} {e : Event} {lsn : UInt64}

variable (h : Beside d wrapped direct) (ho : e.source.offset = formatPgLsn lsn)
include h ho

lemma Beside.resumeOffsetFor : wrapped.resumeOffsetFor e = formatPgLsn lsn ∧
    direct.resumeOffsetFor e = formatPgLsn ((recordedEnd d.inner e).getD lsn) := by
  unfold CdcRuntime.resumeOffsetFor
  rw [h.driver,h.stream,Option.bind_some,Option.bind_some,ho]
  refine ⟨rfl,?_⟩
  have hr : StreamHandle.resumeOffsetFor d.inner e = (recordedEnd d.inner e).map formatPgLsn := by
    unfold recordedEnd
    rw [Option.map_bind]
    rfl
  rw [hr]
  cases recordedEnd d.inner e <;> rfl

lemma Beside.buildCheckpointOffset {slotName : String} (hs : direct.config.source = .postgres slotName) :
    (wrapped.buildCheckpointOffset e).map bare = .ok (.postgres lsn slotName none) ∧
      (direct.buildCheckpointOffset e).map bare =
        .ok (.postgres ((recordedEnd d.inner e).getD lsn) slotName none) := by
  obtain ⟨hw,hd⟩ := h.resumeOffsetFor ho
  unfold CdcRuntime.buildCheckpointOffset
  rw [hw,hd,h.config,hs]
  dsimp only
  rw [parsePostgresLsn_format,parsePostgresLsn_format]
  exact ⟨rfl,rfl⟩

lemma Beside.committedConfirmationLsn {count : ℕ} (hc : 0 < count ∧ count ≤ direct.uncommittedEvents.length)
    (hl : (direct.commitWindow count).getLast? = some e) (hn : e.snapshot = none)
    (hs : direct.config.source.isPostgres = true) : wrapped.committedConfirmationLsn count = .ok (some lsn) ∧
      direct.committedConfirmationLsn count = .ok (some ((recordedEnd d.inner e).getD lsn)) := by
  obtain ⟨hw,hd⟩ := h.resumeOffsetFor ho
  have hu : wrapped.uncommittedEvents = direct.uncommittedEvents := by
    rw [uncommittedEvents,uncommittedEvents,h.pending]
  have hwi : wrapped.commitWindow count = direct.commitWindow count := by rw [commitWindow,commitWindow,hu]
  have hin : ¬(count = 0 ∨ direct.uncommittedEvents.length < count) := by omega
  have hsl : e.source.offset.toList.contains '/' = true := by
    rw [ho,formatPgLsn]
    simp
  unfold CdcRuntime.committedConfirmationLsn
  rw [hu,hwi,h.config,hl,if_neg hin,if_neg hin]
  dsimp only
  rw [hn,hs,hsl,hw,hd,parsePostgresLsn_format,parsePostgresLsn_format]
  simp [Except.map]
end
namespace Replay
open Rustcdc.Replay Postgres

/-- A driver with no tables left, on a stream that has not been polled. -/
def idleDriver : IncrementalSnapshotDriver ℕ PostgresStreamHandle :=
  {DriverTrace.usersDriver 1 with inner := pgHandle, tables := [], phase := .done}

/-- The two transactions are read through it. -/
def readThrough : List (DriverCall ℕ PostgresStreamHandle ⊕ UInt64 × Except Error Unit) :=
  [.inl (.nextEvents [⟨.ok 0,.ok [],.ok 0,1,pgLog,.ok 0⟩])]

def readDriver : IncrementalSnapshotDriver ℕ PostgresStreamHandle :=
  (run wrappedStep (DriverTrace.start idleDriver) readThrough).driver
def holding {H : Type} [StreamHandle H] (stream : H) (e : Event) : CdcRuntime Empty H :=
  {CdcRuntime.started (configOn (.postgres "slot")) ⟨[]⟩ 0 none none (some stream) with
    pendingDelivery := some ⟨1,[e],0,0⟩}

/-- The first row of the first transaction, as the stream returns it. -/
def firstRow : Event := (((pgHandle.nextEvents pgLog).2.toOption.bind (·.head?)).getD Session.plainEvent)

/-- The driver after the end of that transaction, 11, is confirmed through it. -/
def confirmedDriver : IncrementalSnapshotDriver ℕ PostgresStreamHandle :=
  (run wrappedStep (DriverTrace.start idleDriver) (readThrough++[.inr (11,.ok ())])).driver

end Replay
end Rustcdc.Incremental
