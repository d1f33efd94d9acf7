import Rustcdc.Runtime.State

/-! `commit_ack`: acknowledging a delivery, the durable write, and the confirmation sent to
the source once it is durable. -/
namespace Rustcdc.CdcRuntime
variable {S H : Type} [SnapshotHandle S] [StreamHandle H]

/-- The environment's answers to one commit: the snapshot write, the barrier's write, and the
source's reply to the confirmation. -/
structure CommitAnswers where
  snapshotSave : Except Error Unit
  save : Except Error Unit
  confirm : Except Error Unit

variable (rt : CdcRuntime S H)

def resumeOffsetFor (event : Event) : String :=
  (rt.stream.bind (StreamHandle.resumeOffsetFor · event)).getD event.source.offset

/-- Delivered events the caller has not committed. -/
def uncommittedEvents : List Event :=
  match rt.pendingDelivery with
  | none => []
  | some pending => pending.remaining

/-- The next `count` uncommitted events of the in-flight delivery. -/
def commitWindow (count : ℕ) : List Event := rt.uncommittedEvents.take count

def persistSnapshotCheckpointBeforeCommit (count : ℕ) (answer : Except Error Unit) :
    CdcRuntime S H × Except Error Unit :=
  if !(rt.commitWindow count).any (·.snapshot.isSome) then (rt,.ok ())
  else
    match rt.snapshot with
    | none =>
      if rt.config.incrementalSnapshot then (rt,.ok ())
      else (rt,.error (.stateError "snapshot events are pending commit but snapshot handle is unavailable"))
    | some snapshot =>
      let target := saturatingAdd rt.commitBarrier.committedEventCount (UInt64.ofNat count)
      let written := SnapshotHandle.checkpoint snapshot target answer rt.checkpoint
      ({rt with checkpoint := written.1},written.2)

/-- The LSN to confirm once the prefix is durable, if its last event has one. -/
def committedConfirmationLsn (count : ℕ) : Except Error (Option UInt64) :=
  if count = 0 ∨ rt.uncommittedEvents.length < count then .ok none
  else
    match (rt.commitWindow count).getLast? with
    | none => .ok none
    | some lastCommitted =>
      if lastCommitted.snapshot.isSome then .ok none
      else if !eqIgnoreAsciiCase lastCommitted.source.sourceName "postgres" &&
          !rt.config.source.isPostgres then .ok none
      else if !lastCommitted.source.offset.toList.contains '/' then .ok none
      else (parsePostgresLsn (rt.resumeOffsetFor lastCommitted)).map some

/-- Tell the source about the durable position.  A refusal is remembered for the next poll. -/
def confirmCommitted (lsn : Option UInt64) (answer : Except Error Unit) : CdcRuntime S H × Option Error :=
  match lsn, rt.stream with
  | some lsn, some stream =>
    match StreamHandle.confirmLsn stream lsn answer with
    | (stream,.ok ()) =>
      ({rt with
        stream := some stream
        pendingConfirmationLsn := none
        unconfirmedStallPolls := 0},none)
    | (stream,.error e) =>
      ({rt with stream := some stream, pendingConfirmationLsn := some lsn},some e)
  | _, _ => (rt,none)

/-- The bookkeeping after a durable commit of `count` events. -/
def advanceDelivery (count : ℕ) : CdcRuntime S H := {rt with
    deliveredNotCommitted := rt.deliveredNotCommitted-count
    pendingDelivery := rt.pendingDelivery.bind fun pending =>
      let committed := pending.committedPrefix+count
      if pending.events.length ≤ committed then none
      else some {pending with
        committedPrefix := committed
        ackEpoch := saturatingAdd pending.ackEpoch 1}}

/-- The part of a commit that follows the durable write. -/
def afterCommit (count : ℕ) (confirmationLsn : Option UInt64) (answer : Except Error Unit) :
    CdcRuntime S H × Ending Unit :=
  let confirmed := rt.confirmCommitted confirmationLsn answer
  let rt := confirmed.1.advanceDelivery count
  match confirmed.2, rt.config.options.postCommitSourceConfirmPolicy with
  | some e, .failFast =>
    (rt,.err (.postCommitConfirmFailed true ("stream confirm_lsn: "++e.display)))
  | _, _ => (rt,.ok ())

variable (p : Profile) (rt : CdcRuntime S H)

/-- Acceptance and the durable write as one operation. -/
def commitThroughBarrier (count : ℕ)
    (confirmationLsn : Option UInt64) (answers : CommitAnswers) : CdcRuntime S H × Ending Unit :=
  match rt.commitBarrier.acceptAndCommit p (UInt64.ofNat count) answers.save rt.checkpoint with
  | (barrier,checkpoint,.ok ()) =>
    {rt with commitBarrier := barrier, checkpoint := checkpoint}.afterCommit count
      confirmationLsn answers.confirm
  | (barrier,checkpoint,failure) =>
    ({rt with commitBarrier := barrier, checkpoint := checkpoint},failure)

def commitPrefix (count : ℕ) (answers : CommitAnswers) : CdcRuntime S H × Ending Unit :=
  if count = 0 then (rt,.ok ())
  else if rt.deliveredNotCommitted < count ∨ rt.uncommittedEvents.length < count then
    (rt,.err (.checkpointError "cannot commit more events than were delivered"))
  else
    match rt.persistSnapshotCheckpointBeforeCommit count answers.snapshotSave with
    | (rt,.error e) => (rt,.err e)
    | (rt,.ok ()) =>
      match rt.committedConfirmationLsn count with
      | .error e => (rt,.err e)
      | .ok confirmationLsn => rt.commitThroughBarrier p count confirmationLsn answers

def commitAck (mode : AckMode) (answers : CommitAnswers) : CdcRuntime S H × Ending Unit :=
  match mode with
  | .notRequired => (rt,.ok ())
  | .required token =>
    match rt.pendingDelivery with
    | none => (rt,.err (.checkpointError "no in-flight batch is available for acknowledgement"))
    | some pending =>
      if pending.deliveryId ≠ token.deliveryId then
        (rt,.err (.checkpointError "ack token does not match the current in-flight delivery"))
      else if pending.ackEpoch ≠ token.epoch then
        (rt,.err (.checkpointError ("this ack token has already been committed (token epoch "++
            toString token.epoch.toNat++", delivery is at "++toString pending.ackEpoch.toNat++
            "). Each token may be committed once; poll again for a fresh one covering "++
            "whatever remains uncommitted.")))
      else rt.commitPrefix p token.eventCount answers
end Rustcdc.CdcRuntime
