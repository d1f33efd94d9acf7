import Rustcdc.Runtime.Commit

/-! `poll_event_batch`: redelivery of the in-flight batch, the queues behind it, and the three
sources a batch can come from, each through the same stages. -/
namespace Rustcdc.CdcRuntime
variable {S H : Type} [SnapshotHandle S] [StreamHandle H]

/-- How the source, the checkpoint store and the restarted stream answer a reconnect. -/
structure Reconnect (H : Type) where
  connect : Except Error Unit
  load : Except Error Unit
  restart : Except Error H

/-- One pass of the stream loop: the reconnect made first when no stream is open, what the
stream answers, and the reconnect made after a recoverable error. -/
structure StreamAttempt (H : Type) [StreamHandle H] where
  reopen : Reconnect H
  events : StreamHandle.Answer H
  reconnect : Reconnect H

/-- How the schema history answers for a recordable statement: the write itself and, when a
retention policy is configured, the pruning after it. -/
structure SchemaRecord where
  recordDdl : Except Error Unit
  applyRetention : Except Error Unit

structure PollAnswers (S H : Type) [SnapshotHandle S] [StreamHandle H] [Handoff S H] where
  confirm : Except Error Unit
  now : UInt64
  /-- `none` for a payload that holds no recordable statement. -/
  schemaHistory : Event → Option SchemaRecord
  chunk : SnapshotHandle.Answer S
  handoff : Handoff.Answer S H
  attempts : List (StreamAttempt H)

variable (rt : CdcRuntime S H)

def currentPendingBatch : Option EventBatch := rt.pendingDelivery.map fun pending =>
    ⟨pending.events,pending.committedPrefix,some ⟨pending.deliveryId,pending.remaining.length,pending.ackEpoch⟩⟩

def retryPendingConfirmation (answer : Except Error Unit) : CdcRuntime S H :=
  match rt.pendingConfirmationLsn, rt.stream with
  | some lsn, some stream =>
    match StreamHandle.confirmLsn stream lsn answer with
    | (stream,.ok ()) =>
      {rt with
        stream := some stream
        pendingConfirmationLsn := none
        unconfirmedStallPolls := 0}
    | (stream,.error _) => {rt with stream := some stream}
  | _, _ => rt

def deliverBufferedBatch : CdcRuntime S H × EventBatch :=
  let events := rt.bufferedEvents.take rt.config.options.maxBufferSize
  let rest := rt.bufferedEvents.drop rt.config.options.maxBufferSize
  if events.isEmpty then ({rt with bufferedEvents := rest},.empty)
  else
    ({rt with
      bufferedEvents := rest
      nextDeliveryId := saturatingAdd rt.nextDeliveryId 1
      deliveredNotCommitted := rt.deliveredNotCommitted+events.length
      pendingDelivery := some ⟨rt.nextDeliveryId,events,0,0⟩},
      ⟨events,0,some ⟨rt.nextDeliveryId,events.length,0⟩⟩)

/-- Record one schema change.  A rejected statement is reported and skipped; any other failure
aborts the poll. -/
def recordSchemaChange (schemaHistory : Event → Option SchemaRecord) (e : Event) : Except Error Unit :=
  if e.op.isSchemaChange && e.after.isSome then
    match schemaHistory e with
    | none => .ok ()
    | some answer =>
      match answer.recordDdl with
      | .ok () => answer.applyRetention
      | .error (.schemaError _) => .ok ()
      | .error error => .error error
  else .ok ()

def recordSchemaChangeEvents (schemaHistory : Event → Option SchemaRecord) : List Event → Except Error Unit
  | [] => .ok ()
  | e::es =>
    match recordSchemaChange schemaHistory e with
    | .ok () => recordSchemaChangeEvents schemaHistory es
    | .error error => .error error

def unconfirmedStallPollLimit : ℕ := 3

def stallError (lsn : UInt64) (polls : ℕ) : Error :=
  .unrecoverable ("runtime is not making progress: source position "++toString lsn.toNat++
    " was durably checkpointed but could not be confirmed to the source, so the source "++
    "keeps replaying already-committed events and the idempotency guard "++
    "suppresses all of them. "++toString polls++" consecutive polls produced no deliverable "++
    "events. Operator action required: restore connectivity to the source "++
    "so the position can be confirmed (for PostgreSQL this is "++
    "pg_replication_slot_advance — check the slot still exists and the "++
    "role retains REPLICATION). Until then the source retains its log "++
    "(on PostgreSQL, WAL on the primary).")

def filterIdempotentEvents (now : UInt64) (events : List Event) : CdcRuntime S H × Except Error (List Event) :=
  match rt.idempotencyGuard with
  | none => (rt,.ok events)
  | some guard =>
    match guard.filterEvents rt.config.hash now events with
    | (guard,.error e) => ({rt with idempotencyGuard := some guard},.error e)
    | (guard,.ok out) =>
      let rt := {rt with idempotencyGuard := some guard}
      match rt.pendingConfirmationLsn with
      | some lsn =>
        if !events.isEmpty && out.isEmpty then
          let polls := rt.unconfirmedStallPolls+1
          let rt := {rt with unconfirmedStallPolls := polls}
          if unconfirmedStallPollLimit ≤ polls then (rt,.error (stallError lsn polls))
          else (rt,.ok out)
        else if !out.isEmpty then ({rt with unconfirmedStallPolls := 0},.ok out)
        else (rt,.ok out)
      | none =>
        if !out.isEmpty then ({rt with unconfirmedStallPolls := 0},.ok out) else (rt,.ok out)

/-- Under `Skip` each event is transformed on its own and a failing one is set aside. -/
def skipTransforms (pipeline : TransformPipeline) : List Event → List Event
  | [] => []
  | e::es =>
    match pipeline.apply e with
    | .ok (some e) => e::skipTransforms pipeline es
    | .ok none | .error _ => skipTransforms pipeline es

def applyTransforms (events : List Event) : Except Error (List Event) :=
  if rt.config.transformPipeline.isEmpty || events.isEmpty then .ok events
  else
    match rt.config.options.transformErrorPolicy with
    | .halt => rt.config.transformPipeline.applyBatch events
    | .skip => .ok (skipTransforms rt.config.transformPipeline events)

/-- The cut of a batch: how many queued events fit in `room` slots and the byte budget, of
which the first always fits. -/
def cutLen (limit : Option ℕ) : ℕ → Bool → ℕ → List Event → ℕ
  | _, _, 0, _ => 0
  | _, _, _, [] => 0
  | bytes, first, room+1, e::es =>
    match limit with
    | none => cutLen limit bytes false room es+1
    | some limit =>
      let bytes' := bytes+e.estimateEventBytes
      if !first && limit < bytes' then 0
      else cutLen (some limit) bytes' false room es+1

/-- How many events of the cut stay in it so that it ends at a transaction boundary. -/
def trimLen (options : RuntimeOptions) (chunk rest : List Event) : ℕ :=
  match options.transactionBoundary with
  | .split => chunk.length
  | .preserveTransactions =>
    match chunk.getLast?.bind (·.transaction) with
    | none => chunk.length
    | some last =>
      let complete := match last.totalEvents with
        | none => false
        | some total => total.toNat ≤ min (last.eventIndex.toNat+1) (2^32-1)
      let sameTx := fun e : Event => e.transaction.map (·.txId) == some last.txId
      if complete then chunk.length
      else if rest.any (!sameTx ·) then chunk.length
      else
        let kept := chunk.length-(chunk.reverse.takeWhile sameTx).length
        if kept = 0 ∧ options.maxBufferSize ≤ chunk.length then chunk.length else kept

def buildCheckpointOffset (event : Event) : Except Error Offset :=
  let sourceType := rt.config.source.sourceType.getD event.source.sourceName
  let incremental := rt.stream.bind StreamHandle.incrementalSnapshotState
  let position := rt.resumeOffsetFor event
  match rt.config.source with
  | .postgres slotName =>
    match parsePostgresLsn position with
    | .error e => .error e
    | .ok lsn => .ok (.postgres lsn slotName incremental)
  | .mysql | .mariadb =>
    match parseMysqlStreamOffset position with
    | .error e => .error e
    | .ok (file,pos,gtid) =>
      .ok (.mysql sourceType (rt.config.source.sourceType.getD "mysql") file pos gtid incremental)
  | .sqlserver => .ok (.sqlserver position incremental)
  | .disabled | .custom => .ok (.generic sourceType position)

/-- The record an event leaves in the barrier.  A bulk-snapshot row persists nothing here; an
incremental-snapshot row persists the stream's own position. -/
def recordOffset (event : Event) : Except Error (Option Offset) :=
  if event.snapshot.isSome then
    .ok ((if rt.snapshot.isNone then rt.stream else none).bind StreamHandle.positionOffset)
  else (rt.buildCheckpointOffset event).map some

def bufferEvent (event : Event) : CdcRuntime S H × Except Error Unit :=
  match if rt.config.options.validateEvents then event.validateOrError else .ok () with
  | .error e => (rt,.error e)
  | .ok () =>
    match rt.recordOffset event with
    | .error e => (rt,.error e)
    | .ok offset =>
      match rt.commitBarrier.pushRecord offset with
      | (barrier,.ok ()) =>
        ({rt with commitBarrier := barrier, bufferedEvents := rt.bufferedEvents++[event]},.ok ())
      | (_,.error e) => (rt,.error e)

/-- Admit a cut event by event; a failure leaves the events before it buffered and drops the
rest of the cut. -/
def bufferEvents (rt : CdcRuntime S H) : List Event → CdcRuntime S H × Except Error Unit
  | [] => (rt,.ok ())
  | e::es =>
    match rt.bufferEvent e with
    | (rt,.error error) => (rt,.error error)
    | (rt,.ok ()) => rt.bufferEvents es

def flushPendingSourceEvents : CdcRuntime S H × Except Error EventBatch :=
  if rt.pendingSourceEvents.isEmpty then (rt,.ok .empty)
  else
    let available := rt.config.options.maxBufferSize-rt.commitBarrier.pendingCount
    if available = 0 then
      (rt,.error (.backpressure ("runtime commit barrier is full; acknowledge the outstanding batch with "++
          "commit_ack() before polling again. This is normal flow control: the same "++
          "poll succeeds once in-flight events are committed.")))
    else
      let cut := cutLen rt.config.options.maxEventBytes 0 true available rt.pendingSourceEvents
      let kept := trimLen rt.config.options (rt.pendingSourceEvents.take cut) (rt.pendingSourceEvents.drop cut)
      let chunk := rt.pendingSourceEvents.take kept
      match {rt with pendingSourceEvents := rt.pendingSourceEvents.drop kept}.bufferEvents chunk with
      | (rt,.error e) => (rt,.error e)
      | (rt,.ok ()) =>
        let delivered := rt.deliverBufferedBatch
        (delivered.1,.ok delivered.2)
section
variable (now : UInt64) (schemaHistory : Event → Option SchemaRecord) (events : List Event)

/-- The stages between receiving a batch and queueing it. -/
def stages : CdcRuntime S H × Except Error (List Event) :=
  match recordSchemaChangeEvents schemaHistory events with
  | .error e => (rt,.error e)
  | .ok () =>
    match rt.filterIdempotentEvents now events with
    | (rt,.error e) => (rt,.error e)
    | (rt,.ok deduplicated) => (rt,rt.applyTransforms deduplicated)

/-- A received batch: run the stages, queue what they leave, deliver. -/
def ingest : CdcRuntime S H × Except Error EventBatch :=
  match rt.stages now schemaHistory events with
  | (rt,.error e) => (rt,.error e)
  | (rt,.ok transformed) =>
    {rt with pendingSourceEvents := rt.pendingSourceEvents++transformed}.flushPendingSourceEvents
end
def exhausted (policy : ConnectionRetryPolicy) (attempt : ℕ) : Bool :=
  match policy.maxRetries with
  | none => false
  | some max => max ≤ attempt

def reconnectExhausted (attempt : ℕ) : Error :=
  .context "resuming the stream after a source disconnect" (.unrecoverable
    ("connection retries exhausted after "++toString (attempt+1)++" attempt(s) during "++
      "reconnect; the configured ConnectionRetryPolicy has given "++
      "up. Check source connectivity and credentials, then "++
      "restart the runtime. Last error is in the preceding "++
      "warn-level log lines."))

def restartExhausted (attempt : ℕ) : Error :=
  .context "restarting the stream after a recoverable source error" (.unrecoverable
    ("stream restart retries exhausted after "++toString (attempt+1)++" attempt(s); "++
      "the configured ConnectionRetryPolicy has given up. "++
      "Check source connectivity and credentials, then "++
      "restart the runtime."))

def loadFailed (occasion : String) (e : Error) : Error :=
  .checkpointError ("failed loading checkpoint while resuming the stream "++occasion++": "++
    e.display++"; refusing to restart the stream from the "++
    "live log head because that would silently skip all changes "++
    "since the last durable checkpoint")

/-- The stream loop under a retry policy.  `none` means the answers ran out first: the call has
not returned yet. -/
def pollStreamRetrying (policy : ConnectionRetryPolicy) : ℕ → Option H → List (StreamAttempt H) →
    Option (Option H × Except Error (List Event))
  | _, _, [] => none
  | attempt, none, a::as =>
    -- the pass opens the stream, and goes on to read it only in the next pass
    match a.reopen.connect with
    | .error _ =>
      if exhausted policy attempt then some (none,.error (reconnectExhausted attempt))
      else pollStreamRetrying policy (attempt+1) none as
    | .ok () =>
      match a.reopen.load with
      | .error e => some (none,.error (loadFailed "after reconnect" e))
      | .ok () =>
        match a.reopen.restart with
        | .error _ =>
          if exhausted policy attempt then some (none,.error (restartExhausted attempt))
          else pollStreamRetrying policy (attempt+1) none as
        | .ok stream => pollStreamRetrying policy attempt (some stream) as
  | attempt, some stream, a::as =>
    match StreamHandle.nextEvents stream a.events with
    | (stream,.ok events) => some (some stream,.ok events)
    | (stream,.error error) =>
      if !error.isRecoverable || exhausted policy attempt then some (some stream,.error error)
      else
        match a.reconnect.connect with
        | .error _ => pollStreamRetrying policy (attempt+1) none as
        | .ok () =>
          match a.reconnect.load with
          | .error e => some (none,.error (loadFailed "after a recoverable source error" e))
          | .ok () => pollStreamRetrying policy (attempt+1) a.reconnect.restart.toOption as

/-- Reading the open stream, with or without a retry policy. -/
def pollStream (options : RuntimeOptions) (stream : H) (attempts : List (StreamAttempt H)) :
    Option (Option H × Except Error (List Event)) :=
  match options.connectionRetry with
  | some policy => pollStreamRetrying policy 0 (some stream) attempts
  | none => attempts.head?.map fun a =>
      let answered := StreamHandle.nextEvents stream a.events
      (some answered.1,answered.2)

variable [Handoff S H] (answers : PollAnswers S H)

/-- The stream as the last source of a batch. -/
def receiveFromStream : Option (CdcRuntime S H × Except Error (List Event)) :=
  match rt.stream with
  | none => some (rt,.ok [])
  | some stream =>
    match pollStream rt.config.options stream answers.attempts with
    | none => none
    | some (stream,received) => some ({rt with stream := stream},received)

/-- The snapshot before the stream, with the handover once it has no more rows. -/
def receiveFromSnapshot : Option (CdcRuntime S H × Except Error (List Event)) :=
  match rt.snapshot with
  | none => rt.receiveFromStream answers
  | some snapshot =>
    match SnapshotHandle.nextChunk snapshot rt.config.options.maxBufferSize answers.chunk with
    | (snapshot,.error e) => some ({rt with snapshot := some snapshot},.error e)
    | (snapshot,.ok []) =>
      if rt.handoffComplete then {rt with snapshot := none}.receiveFromStream answers
      else
        match rt.stream with
        | none => some ({rt with snapshot := some snapshot},
            .error (.stateError "snapshot-to-stream handoff requires active stream"))
        | some stream =>
          match Handoff.performHandoff snapshot stream answers.handoff with
          | (snapshot,stream,.error e) =>
            some ({rt with snapshot := some snapshot, stream := some stream},.error e)
          | (_,stream,.ok ()) =>
            {rt with
              snapshot := none
              stream := some stream
              handoffComplete := true}.receiveFromStream answers
    | (snapshot,.ok chunk) => some ({rt with snapshot := some snapshot},.ok chunk)

/-- Injected events first, then the snapshot, then the stream. -/
def receive : Option (CdcRuntime S H × Except Error (List Event)) :=
  if rt.injectedEvents.isEmpty then rt.receiveFromSnapshot answers
  else
    let size := rt.config.options.maxBufferSize
    some ({rt with injectedEvents := rt.injectedEvents.drop size},
      .ok (rt.injectedEvents.take size))

/-- Whichever source the batch comes from, it goes through the same stages. -/
def pollSources : Option (CdcRuntime S H × Except Error EventBatch) :=
  match rt.receive answers with
  | none => none
  | some (rt,.error e) => some (rt,.error e)
  | some (rt,.ok []) => some (rt,.ok .empty)
  | some (rt,.ok events) => some (rt.ingest answers.now answers.schemaHistory events)

/-- What a poll serves before it turns to the sources: the in-flight batch, the buffer, the
queue.  A queue withheld whole leaves the poll to the sources. -/
def pollQueues (confirm : Except Error Unit) : CdcRuntime S H × Option (Except Error EventBatch) :=
  if rt.state ≠ .running then (rt,some (.error (.stateError "runtime is not running")))
  else
    match rt.currentPendingBatch with
    | some batch => (rt,some (.ok batch))
    | none =>
      let rt := rt.retryPendingConfirmation confirm
      if !rt.bufferedEvents.isEmpty then
        let delivered := rt.deliverBufferedBatch
        (delivered.1,some (.ok delivered.2))
      else if !rt.pendingSourceEvents.isEmpty then
        match rt.flushPendingSourceEvents with
        | (rt,.error e) => (rt,some (.error e))
        | (rt,.ok batch) => (rt,if batch.isEmpty then none else some (.ok batch))
      else (rt,none)

def pollEventBatch : Option (CdcRuntime S H × Except Error EventBatch) :=
  match rt.pollQueues answers.confirm with
  | (rt,some served) => some (rt,served)
  | (rt,none) => rt.pollSources answers
end Rustcdc.CdcRuntime
