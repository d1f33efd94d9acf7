import Rustcdc.Source.StreamStart

/-! The SQL Server stream.  The change tables are read in windows of LSNs up to the one the capture
job has harvested, each window in pages of every capture instance; truncates come from a table of
their own. -/
namespace Rustcdc.Sqlserver
structure CaptureInstanceMeta where
  captureInstance : String
  schema : String
  table : String
  primaryKey : List String
  capturedColumns : List String
  /-- The oldest LSN the instance can serve, as first seen. -/
  captureFloor : ℕ

/-- A row's place in the change tables.  LSN and sequence value are ten bytes each, as numbers; their
texts have one width, so that they compare alike. -/
structure SqlServerCdcCursor where
  lsn : ℕ
  seqval : ℕ
  operation : ℤ

def parseI32 : List Char → Option ℤ
  | '-'::c::cs => (parseDigits 10 (2^31+1) 0 (c::cs)).toOption.map fun n : ℕ => -(n : ℤ)
  | cs => (fromStrRadix 10 (2^31) cs).toOption.map fun n : ℕ => (n : ℤ)

namespace SqlServerCdcCursor
def encode (c : SqlServerCdcCursor) : String :=
  lsnBytesToHex c.lsn++":"++lsnBytesToHex c.seqval++":"++toString c.operation

def decode (offset : String) : Option SqlServerCdcCursor :=
  match splitOn ':' offset.toList with
  | lsnHex::seqvalHex::operation::_ =>
    match parseI32 operation, (lsnHexToBytes (String.ofList lsnHex)).toOption,
      (lsnHexToBytes (String.ofList seqvalHex)).toOption with
    | some operation, some lsn, some seqval => some ⟨lsn,seqval,operation⟩
    | _, _, _ => none
  | _ => none

/-- The order of `ORDER BY __$start_lsn, __$seqval, __$operation`. -/
def rank (c : SqlServerCdcCursor) : ℕ ×ₗ ℕ ×ₗ ℤ := toLex (c.lsn,toLex (c.seqval,c.operation))
end SqlServerCdcCursor
def cursorOrdering (left right : SqlServerCdcCursor) : Ordering := (compare left.lsn right.lsn).then
    ((compare left.seqval right.seqval).then (compare left.operation right.operation))

structure SqlServerRawChange where
  startLsn : ℕ
  seqval : ℕ
  operation : ℤ
  tsMs : UInt64
  row : Json
  deriving DecidableEq

def SqlServerRawChange.cursor (c : SqlServerRawChange) : SqlServerCdcCursor := ⟨c.startLsn,c.seqval,c.operation⟩

structure TruncateEventRow where
  id : ℤ
  schemaName : String
  tableName : String
  maxLsn : Option ℕ
  tsMs : UInt64
  deriving DecidableEq

structure SqlServerStreamHandle where
  captureTruncateEvents : Bool
  /-- `table_is_allowed` at the configured include and exclude lists. -/
  tableIsAllowed : Option String → String → Bool
  /-- The hash of a sequence value's text. -/
  txIdFromSeqval : String → UInt64
  lsnStart : ℕ
  lsnEnd : ℕ
  cursor : Option SqlServerCdcCursor
  pendingCursor : Option SqlServerCdcCursor
  metas : List CaptureInstanceMeta
  requeuedEvents : List Event
  maxEventsPerPoll : ℕ
  pendingUpdateBefores : List ((ℕ × ℕ) × Json × UInt64)
  windowBuffer : List Event

/-- What the server answers to a query of a change table: rows, the error it has for a range it cannot
serve, with the instance's minimum LSN as it is asked for then, or another failure. -/
inductive FetchAnswer
  | rows (rows : List SqlServerRawChange)
  | windowError (message minLsnHex : String)
  | failed (error : Error)

structure TruncateAnswer where
  now : UInt64
  rows : Except Error (List TruncateEventRow)
  markConsumed : Except Error Unit

/-- The answers to one pass of the polling loop.  `advance` is the successor of the window's end and
the harvested maximum; `harvested` is how far the capture job has come when the change tables are read,
which the stream does not see. -/
structure PassAnswer where
  harvested : ℕ
  fetch : ℕ → FetchAnswer
  truncates : TruncateAnswer
  advance : Except Error (ℕ × ℕ)
  expired : Bool

/-- The answers to one call.  `clock` is its two readings for the event of an instance that changed. -/
structure CallAnswer where
  refresh : Except Error (List CaptureInstanceMeta)
  clock : CaptureInstanceMeta → UInt64 × UInt64
  settle : Except Error (ℕ × ℕ)
  passes : List PassAnswer

def validateCaptureInstanceName (name : String) : Except Error Unit :=
  if name.isEmpty then
    .error (.sourceError "sqlserver capture_instance name must not be empty")
  else if !name.toList.all (fun c => c.isAlphanum || c == '_') then
    .error (.sourceError ("invalid sqlserver capture_instance name: "++name))
  else .ok ()
section
variable (captureInstance : String) (start stop : ℕ)

def outOfRetentionError (serverMessage : String) : Error :=
  .unrecoverable ("sqlserver CDC change data for capture instance '"++captureInstance++
    "' is no longer retained: the requested window ["++lsnBytesToHex start++", "++
    lsnBytesToHex stop++"] is outside the range currently available in the change tables, which "++
    "means the CDC cleanup job has purged changes this connector had not yet read. Resuming would "++
    "silently skip those changes, so the stream is stopped instead. Operator action required: "++
    "re-snapshot the affected tables, then restart from a fresh checkpoint. To prevent recurrence, "++
    "increase the CDC retention window (`sys.sp_cdc_change_job @job_type = 'cleanup', "++
    "@retention = ...`) so it comfortably exceeds the maximum expected connector downtime. "++
    "(server message: "++serverMessage++")")

/-- A range below the instance's minimum was purged; one above it is not captured yet. -/
def classifyCdcWindowError (serverMessage minLsnHex : String) : Except Error (List SqlServerRawChange) :=
  match lsnHexToBytes minLsnHex with
  | .error _ => .error (outOfRetentionError captureInstance start stop serverMessage)
  | .ok min =>
    if start < min then .error (outOfRetentionError captureInstance start stop serverMessage)
    else .ok []
end
/-- Where the next window sits: an empty window keeps its start. -/
def nextWindow (currentStart currentEnd incrementedEnd harvestedMax : ℕ) : ℕ × ℕ :=
  if currentEnd < currentStart then (currentStart,harvestedMax) else (incrementedEnd,harvestedMax)

/-- The page of the instances so far: the least last row of a full one, and the rows. -/
structure Fetched where
  truncationCursor : Option SqlServerCdcCursor
  flat : List (CaptureInstanceMeta × SqlServerRawChange)

def leastCursor (existing : Option SqlServerCdcCursor) (candidate : SqlServerCdcCursor) : SqlServerCdcCursor :=
  match existing with
  | some existing => if (cursorOrdering existing candidate).isLE then existing else candidate
  | none => candidate

/-- A full page may have cut rows off. -/
def Fetched.add (f : Fetched) (limit : ℕ) (captured : CaptureInstanceMeta)
    (changes : List SqlServerRawChange) : Fetched where
  truncationCursor :=
    if limit ≤ changes.length then
      match changes.getLast? with
      | some last => some (leastCursor f.truncationCursor last.cursor)
      | none => f.truncationCursor
    else f.truncationCursor
  flat := f.flat++changes.map (captured,·)

/-- The rows in the order of the change tables, without those past the cursor. -/
def Fetched.page (f : Fetched) : List (CaptureInstanceMeta × SqlServerRawChange) :=
  let sorted := f.flat.insertionSort fun a b => a.2.cursor.rank ≤ b.2.cursor.rank
  match f.truncationCursor with
  | none => sorted
  | some cursor => sorted.filter fun change => (cursorOrdering change.2.cursor cursor).isLE

def buildTruncateEvent (row : TruncateEventRow) (lsnHex : String) (tsMs : UInt64) : Event where
  before := none
  after := none
  op := .truncate
  source := ⟨"sqlserver",lsnHex,tsMs⟩
  ts := tsMs
  schema := some row.schemaName
  table := row.tableName
  primaryKey := none
  snapshot := none
  transaction := none
  envelopeVersion := eventEnvelopeVersion
  beforeIsKeyOnly := false
  unavailableColumns := []
  beforeUnavailableColumns := []

namespace SqlServerStreamHandle
variable (h : SqlServerStreamHandle) (captured : CaptureInstanceMeta)

def windowStart : ℕ :=
  if h.lsnStart < captured.captureFloor then captured.captureFloor else h.lsnStart

/-- The instance is asked for nothing in a window that is empty or ends below its floor. -/
def fetchChangesForCaptureInstance (answer : FetchAnswer) : Except Error (List SqlServerRawChange) :=
  if h.lsnEnd < h.lsnStart then .ok []
  else
    match validateCaptureInstanceName captured.captureInstance with
    | .error e => .error e
    | .ok () =>
      if h.lsnEnd < h.windowStart captured then .ok []
      else
        match answer with
        | .rows rows => .ok rows
        | .windowError message minLsnHex =>
          classifyCdcWindowError captured.captureInstance (h.windowStart captured) h.lsnEnd message
            minLsnHex
        | .failed e => .error e

def fetchAll (h : SqlServerStreamHandle) (fetch : ℕ → FetchAnswer) :
    ℕ → List CaptureInstanceMeta → Fetched → Except Error Fetched
  | _, [], f => .ok f
  | i, captured::metas, f =>
    match h.fetchChangesForCaptureInstance captured (fetch i) with
    | .error e => .error e
    | .ok changes => h.fetchAll fetch (i+1) metas (f.add h.maxEventsPerPoll captured changes)

def buildSqlserverEvent (change : SqlServerRawChange) (tsMs : UInt64) (op : Operation) (before after : Option Json) :
    Event where
  before := before
  after := after
  op := op
  source := ⟨"sqlserver",lsnBytesToHex change.startLsn,tsMs⟩
  ts := tsMs
  schema := some captured.schema
  table := captured.table
  primaryKey := if captured.primaryKey.isEmpty then none else some captured.primaryKey
  snapshot := none
  transaction := some ⟨h.txIdFromSeqval (lsnBytesToHex change.seqval),some 1,0⟩
  envelopeVersion := eventEnvelopeVersion
  beforeIsKeyOnly := false
  unavailableColumns := []
  beforeUnavailableColumns := []

/-- An event, if its table is not left out. -/
def allowed (event : Event) : List Event :=
  if h.tableIsAllowed (some captured.schema) captured.table then [event] else []

/-- An UPDATE has two rows: the first is kept until the second comes. -/
def mapChangeToEvents (change : SqlServerRawChange) : SqlServerStreamHandle × Except Error (List Event) :=
  let key := (change.startLsn,change.seqval)
  match change.operation with
  | 1 => (h,.ok (h.allowed captured
      (h.buildSqlserverEvent captured change change.tsMs .delete (some change.row) none)))
  | 2 => (h,.ok (h.allowed captured
      (h.buildSqlserverEvent captured change change.tsMs .insert none (some change.row))))
  | 3 => ({h with pendingUpdateBefores := (key,change.row,change.tsMs)::
      h.pendingUpdateBefores.filter (·.1 ≠ key)},.ok [])
  | 4 =>
    let kept := (h.pendingUpdateBefores.find? (·.1 = key)).map (·.2)
    ({h with pendingUpdateBefores := h.pendingUpdateBefores.filter (·.1 ≠ key)},
      .ok (h.allowed captured (h.buildSqlserverEvent captured change
        ((kept.map (·.2)).getD change.tsMs) .update (kept.map (·.1)) (some change.row))))
  | other => (h,.error (.sourceError ("unsupported sqlserver CDC __$operation value: "++toString other)))

/-- The changes of a page, as far as they are understood. -/
def bufferChanges : SqlServerStreamHandle → List (CaptureInstanceMeta × SqlServerRawChange) →
    SqlServerStreamHandle × Except Error Unit
  | h, [] => (h,.ok ())
  | h, change::rest =>
    match h.mapChangeToEvents change.1 change.2 with
    | (h,.error e) => (h,.error e)
    | (h,.ok events) => bufferChanges {h with windowBuffer := h.windowBuffer++events} rest

def truncateEvent (now : UInt64) (row : TruncateEventRow) : Event :=
  buildTruncateEvent row (lsnBytesToHex (row.maxLsn.getD h.lsnEnd)) (if 0 < row.tsMs then row.tsMs else now)

/-- The truncates up to the window's end, and the rows marked as consumed, which are all that were
read. -/
def fetchAndEmitTruncateEvents (answer : TruncateAnswer) : List ℤ × Except Error (List Event) :=
  if !h.captureTruncateEvents then ([],.ok [])
  else
    match answer.rows with
    | .error e => ([],.error e)
    | .ok [] => ([],.ok [])
    | .ok rows =>
      match answer.markConsumed with
      | .error e => ([],.error e)
      | .ok () => (rows.map (·.id),.ok ((rows.filter fun row =>
          h.tableIsAllowed (some row.schemaName) row.tableName).map (h.truncateEvent answer.now)))

variable (answer : Except Error (ℕ × ℕ))

def advanceWindow : SqlServerStreamHandle × Except Error Unit :=
  match answer with
  | .error e => (h,.error e)
  | .ok (incremented,harvestedMax) =>
    let next := nextWindow h.lsnStart h.lsnEnd incremented harvestedMax
    ({h with lsnStart := next.1, lsnEnd := next.2, cursor := none, pendingCursor := none},.ok ())

/-- A parked cursor keeps the window and goes on in it. -/
def settleDrainedWindow : SqlServerStreamHandle × Except Error Unit :=
  match h.pendingCursor with
  | some cursor => ({h with cursor := some cursor, pendingCursor := none},.ok ())
  | none => h.advanceWindow answer

/-- The next events of the buffer.  The window is settled when none are left, and if that fails the
events are not returned. -/
def drainPage : SqlServerStreamHandle × Except Error (List Event) :=
  let batch := h.windowBuffer.take h.maxEventsPerPoll
  let drained := {h with windowBuffer := h.windowBuffer.drop h.maxEventsPerPoll}
  if drained.windowBuffer.isEmpty then
    match drained.settleDrainedWindow answer with
    | (settled,.error e) => (settled,.error e)
    | (settled,.ok ()) => (settled,.ok batch)
  else (drained,.ok batch)
end SqlServerStreamHandle
/-- The events of a page with the truncates, by the texts of their LSNs. -/
def mergeTruncates (buffer truncates : List Event) : List Event :=
  if truncates.isEmpty then buffer
  else (buffer++truncates).insertionSort fun a b => a.source.offset ≤ b.source.offset

/-- A stream and the truncate rows it has marked as consumed. -/
structure StreamSession where
  handle : SqlServerStreamHandle
  marked : List ℤ
section
variable (s : StreamSession)

/-- A page with changes is buffered, and returned as far as it fits. -/
def fillPage (fetched : Fetched) (answer : PassAnswer) : StreamSession × Except Error (List Event) :=
  match s.handle.bufferChanges fetched.page with
  | (h,.error e) => (⟨h,s.marked⟩,.error e)
  | (h,.ok ()) =>
    match h.fetchAndEmitTruncateEvents answer.truncates with
    | (marked,.error e) => (⟨h,s.marked++marked⟩,.error e)
    | (marked,.ok truncates) =>
      let filled := {h with
        windowBuffer := mergeTruncates h.windowBuffer truncates
        pendingCursor := fetched.truncationCursor}
      let drained := filled.drainPage answer.advance
      (⟨drained.1,s.marked++marked⟩,drained.2)

/-- A window without changes is passed, with the truncates it has. -/
def emptyPage (answer : PassAnswer) : StreamSession × Option (Except Error (List Event)) :=
  match s.handle.fetchAndEmitTruncateEvents answer.truncates with
  | (marked,.error e) => (⟨s.handle,s.marked++marked⟩,some (.error e))
  | (marked,.ok truncates) =>
    match s.handle.advanceWindow answer.advance with
    | (h,.error e) => (⟨h,s.marked++marked⟩,some (.error e))
    | (h,.ok ()) => (⟨h,s.marked++marked⟩,
        if !truncates.isEmpty then some (.ok truncates)
        else if answer.expired then some (.ok []) else none)

/-- One pass of the polling loop. -/
def readPass (answer : PassAnswer) : StreamSession × Option (Except Error (List Event)) :=
  match s.handle.fetchAll answer.fetch 0 s.handle.metas ⟨none,[]⟩ with
  | .error e => (s,some (.error e))
  | .ok fetched =>
    if fetched.flat.isEmpty then emptyPage s answer
    else
      let filled := fillPage s fetched answer
      (filled.1,some filled.2)
end
def retainKnownCaptureFloors (known refreshed : List CaptureInstanceMeta) : List CaptureInstanceMeta :=
  refreshed.map fun captured =>
    match known.find? (·.captureInstance = captured.captureInstance) with
    | some existing => {captured with captureFloor := existing.captureFloor}
    | none => captured
section
variable (captured : CaptureInstanceMeta)

def dropStatement : String := "DROP TABLE "++captured.schema++"."++captured.table++" /* capture instance '"++
    captured.captureInstance++"' removed */"
def createStatement : String := "CREATE TABLE "++captured.schema++"."++captured.table++" /* capture instance '"++
    captured.captureInstance++"' discovered */"
def alterStatement : String := "ALTER TABLE "++captured.schema++"."++captured.table++" /* capture instance '"++
    captured.captureInstance++"' metadata updated */"

lemma zero_digits : ['0'] ≠ [] ∧ ['0'].all isNumberChar = true := by decide

def tableSchemaFromMeta : Json := .obj [("columns",.arr (captured.capturedColumns.map fun name =>
      let key := captured.primaryKey.contains name
      .obj [("constraints",.arr (if key then [.str "primary_key"] else [])),
        ("data_type",.str "sqlserver_captured"),("name",.str name),("nullable",.bool !key)])),
    ("primary_keys",.arr (captured.primaryKey.map .str)),("schema",.str captured.schema),
    ("table",.str captured.table),("version",.num ⟨['0'],zero_digits⟩)]

def SqlServerStreamHandle.buildSchemaEventForMeta (h : SqlServerStreamHandle)
    (clock : CaptureInstanceMeta → UInt64 × UInt64) (ddlType statement : String) : Event :=
  CapturedDdl.toEvent ⟨ddlType,captured.schema,captured.table,statement,
    if ddlType = "DROP_TABLE" then none else some (tableSchemaFromMeta captured),none,(clock captured).1⟩
    "sqlserver" (lsnBytesToHex h.lsnEnd) (clock captured).2
end
/-- What changed between two lists of instances. -/
def computeSchemaEventsForMetaRefresh (ddlEvent : String → CaptureInstanceMeta → String → Event)
    (current refreshed : List CaptureInstanceMeta) : List Event :=
  (current.filter fun old => !refreshed.any (·.captureInstance = old.captureInstance)).map
      (fun old => ddlEvent "DROP_TABLE" old (dropStatement old))++
    refreshed.flatMap fun captured =>
      match current.find? (·.captureInstance = captured.captureInstance) with
      | none => [ddlEvent "CREATE_TABLE" captured (createStatement captured)]
      | some old =>
        if old.schema ≠ captured.schema ∨ old.table ≠ captured.table ∨ old.primaryKey ≠ captured.primaryKey ∨
            old.capturedColumns ≠ captured.capturedColumns then
          [ddlEvent "ALTER_TABLE" captured (alterStatement captured)]
        else []

def SqlServerStreamHandle.refreshMetasAndCollectSchemaEvents (h : SqlServerStreamHandle) (answer : CallAnswer) :
    SqlServerStreamHandle × Except Error (List Event) :=
  match answer.refresh with
  | .error e => (h,.error e)
  | .ok refreshed =>
    let refreshed := retainKnownCaptureFloors h.metas refreshed
    ({h with metas := refreshed},
      .ok (computeSchemaEventsForMetaRefresh (fun kind captured statement =>
        h.buildSchemaEventForMeta captured answer.clock kind statement) h.metas refreshed))

/-- A call, or `none` if the passes given are not enough for it to return. -/
def nextEvents (s : StreamSession) (answer : CallAnswer) : Option (StreamSession × Except Error (List Event)) :=
  if !s.handle.requeuedEvents.isEmpty then
    some (⟨{s.handle with requeuedEvents := []},s.marked⟩,.ok s.handle.requeuedEvents)
  else
    match s.handle.refreshMetasAndCollectSchemaEvents answer with
    | (h,.error e) => some (⟨h,s.marked⟩,.error e)
    | (h,.ok schemaEvents) =>
      if !schemaEvents.isEmpty then
        some (⟨h,s.marked⟩,.ok (schemaEvents.take h.maxEventsPerPoll))
      else if !h.windowBuffer.isEmpty then
        let drained := h.drainPage answer.settle
        some (⟨drained.1,s.marked⟩,drained.2)
      else Machine.loop readPass ⟨h,s.marked⟩ answer.passes

/-- The cursor in the window, or the window's start. -/
def SqlServerStreamHandle.savedPosition (h : SqlServerStreamHandle) : Offset :=
  .generic "sqlserver" (match h.cursor with
    | some cursor => cursor.encode
    | none => lsnBytesToHex h.lsnStart)

/-- What a stream start reads of the source's configuration. -/
structure StreamConfig where
  captureTruncateEvents : Bool
  tableIsAllowed : Option String → String → Bool
  txIdFromSeqval : String → UInt64
  maxEventsPerPoll : ℕ

structure StreamAnswers where
  metas : Except Error (List CaptureInstanceMeta)
  start : StartAnswers
  maxLsn : Except Error ℕ

def resumeCursor : Option Offset → Option SqlServerCdcCursor
  | some (.sqlserver cursor _) | some (.generic _ cursor) => SqlServerCdcCursor.decode cursor
  | _ => none
def requireMinLsn (least : Option ℕ) : Except Error Unit :=
  if least.isNone then .error (.sourceError "sqlserver could not determine CDC minimum LSN")
  else .ok ()

/-- The first window.  A maximum below its start is raised to it. -/
def startSqlserverStream (config : StreamConfig) (answers : StreamAnswers)
    (resumeFrom : Option Offset) : Except Error SqlServerStreamHandle := do
  let metas ← answers.metas
  let least ← minLsn answers.start.minLsns none
  requireMinLsn least
  let maxLsn ← answers.maxLsn
  let start ← startLsn answers.start resumeFrom
  pure
    {captureTruncateEvents := config.captureTruncateEvents
     tableIsAllowed := config.tableIsAllowed
     txIdFromSeqval := config.txIdFromSeqval
     lsnStart := start
     lsnEnd := if maxLsn < start then start else maxLsn
     cursor := resumeCursor resumeFrom
     pendingCursor := none
     metas := metas
     requeuedEvents := []
     maxEventsPerPoll := config.maxEventsPerPoll
     pendingUpdateBefores := []
     windowBuffer := []}

lemma splitOnce_of_splitOn {sep : Char} {cs f second : List Char} {re : List (List Char)}
    (h : splitOn sep cs = f::second::re) : ∃ a, splitOnce sep cs = some (f,a) := by
  induction cs generalizing f with
  | nil => simp [splitOn] at h
  | cons c cs ih =>
    rw [splitOn] at h
    rw [splitOnce]
    by_cases hse : c = sep
    · rw [if_pos hse] at h
      rw [if_pos hse]
      exact ⟨cs,by rw [(List.cons.inj h).1]⟩
    · rw [if_neg hse] at h
      rw [if_neg hse]
      cases hs : splitOn sep cs with
      | nil => simp [hs] at h
      | cons =>
        simp only [hs,List.cons.injEq] at h
        obtain ⟨rfl,rfl⟩ := h
        obtain ⟨a,ha⟩ := ih hs
        exact ⟨a,by rw [ha]; rfl⟩

variable {cursor : SqlServerCdcCursor}

lemma decode_lsn {o : String} (h : SqlServerCdcCursor.decode o = some cursor) :
    lsnFromSourceOffset o = some cursor.lsn := by
  unfold SqlServerCdcCursor.decode at h
  split at h
  · rename_i lsnHex seqvalHex operation rest hs
    obtain ⟨a,ha⟩ := splitOnce_of_splitOn hs
    split at h
    · rename_i hl _
      rw [lsnFromSourceOffset,ha]
      cases h
      exact hl
    · cases h
  · cases h

lemma resumeCursor_lsn {o : Offset} {start : ℕ}
    (hc : resumeCursor (some o) = some cursor) (hs : resumeLsn o = .ok start) :
    cursor.lsn = start := by
  unfold resumeLsn at hs
  split at hs
  · cases hs
  · cases o with
    | sqlserver | generic =>
      have hl := decode_lsn hc
      simp only [hl] at hs
      exact Except.ok.inj hs
    | _ => cases hc

structure Started (config : StreamConfig) (answers : StreamAnswers) (resumeFrom : Option Offset)
    (h : SqlServerStreamHandle) : Prop where
  start : startLsn answers.start resumeFrom = .ok h.lsnStart
  window : h.lsnStart ≤ h.lsnEnd
  cursor : h.cursor = resumeCursor resumeFrom
  limit : h.maxEventsPerPoll = config.maxEventsPerPoll
  allowed : h.tableIsAllowed = config.tableIsAllowed
  capture : h.captureTruncateEvents = config.captureTruncateEvents
  requeued : h.requeuedEvents = []
  buffer : h.windowBuffer = []
  pending : h.pendingCursor = none
  metas : answers.metas = .ok h.metas

variable {r : Option Offset} {h : SqlServerStreamHandle} {as : StreamAnswers} {c : StreamConfig}

lemma startSqlserverStream_ok (hs : startSqlserverStream c as r = .ok h) : Started c as r h := by
  obtain ⟨metas,hm,hr⟩ := except_bind_ok hs
  obtain ⟨least,_,hr⟩ := except_bind_ok hr
  obtain ⟨_,_,hr⟩ := except_bind_ok hr
  obtain ⟨maxLsn,_,hr⟩ := except_bind_ok hr
  obtain ⟨st,hl,hr⟩ := except_bind_ok hr
  cases hr
  refine ⟨hl,?_,rfl,rfl,rfl,rfl,rfl,rfl,rfl,hm⟩
  show st ≤ if maxLsn < st then st else maxLsn
  split <;> omega

lemma startSqlserverStream_cursor (hst : startSqlserverStream c as r = .ok h)
    (hc : h.cursor = some cursor) : cursor.lsn = h.lsnStart := by
  have hs := startSqlserverStream_ok hst
  rw [hs.cursor] at hc
  cases r with
  | none => cases hc
  | some o => exact resumeCursor_lsn hc (startLsn_ok hs.start)
end Rustcdc.Sqlserver
