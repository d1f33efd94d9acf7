import Rustcdc.Source.Postgres.Stream

/-! The PostgreSQL bulk snapshot: chunks read table by table behind a keyset cursor, the progress
a checkpoint persists, the resume from it, and the handover to the stream. -/
namespace Rustcdc.Postgres
structure TableSnapshotState where
  snapshot : TableSnapshot
  rows : List Json
  nextRow : ℕ
  liveQuery : Bool
  primaryKeyColumns : List String

structure PostgresSnapshot where
  tables : List TableSnapshot
  snapshotId : String
  snapshotStartTs : UInt64
  snapshotEndTs : UInt64

structure PostgresSnapshotHandle where
  sourceName : String
  snapshot : PostgresSnapshot
  tables : List TableSnapshotState
  client : Bool
  transactionOpen : Bool
  snapshotWatermark : UInt64
  currentTable : ℕ
  nextChunkIndex : UInt32
  emittedRows : UInt64
  emittedInRun : UInt64

/-- What the server and the clock answer during one chunk: the rows of each query, in turn, with
their keys as text. -/
structure ChunkAnswer where
  now : UInt64
  fetch : ℕ → Except Error (List (List String × Json))

/-- A row read by the handle: its table, the cursor it left there, and its event. -/
structure SnapshotRow where
  table : ℕ
  cursor : Option String
  event : Event

def defaultSnapshotChunkSize : ℕ := 5000

/-- `public` is the schema of a name without one. -/
def splitQualifiedTableName (configured : String) : Option String × String :=
  match splitOnce '.' configured.toList with
  | some (schema,table) =>
    if !schema.isEmpty && !table.isEmpty then (some (String.ofList schema),String.ofList table)
    else (some "public",configured)
  | none => (some "public",configured)

namespace PostgresSnapshotHandle
def new (sourceName : String) (snapshot : PostgresSnapshot) (tables : List TableSnapshotState)
    (client transactionOpen : Bool) (snapshotWatermark : UInt64) : PostgresSnapshotHandle where
  sourceName := sourceName
  snapshot := snapshot
  tables := tables
  client := client
  transactionOpen := transactionOpen
  snapshotWatermark := snapshotWatermark
  currentTable := 0
  nextChunkIndex := 0
  emittedRows := 0
  emittedInRun := 0

variable (h : PostgresSnapshotHandle)

def isComplete : Bool := h.tables.all (·.snapshot.isComplete)
def syncSnapshotTables : PostgresSnapshotHandle :=
  {h with snapshot := {h.snapshot with tables := h.tables.map (·.snapshot)}}

def rowEvent (now : UInt64) (t : TableSnapshotState) (table offset : String) (row : Json) : Event where
  before := none
  after := some row
  op := .read
  source := ⟨h.sourceName,offset,now⟩
  ts := now
  schema := (splitQualifiedTableName t.snapshot.table).1
  table := table
  primaryKey := if t.primaryKeyColumns.isEmpty then none else some t.primaryKeyColumns
  snapshot := some ⟨h.snapshot.snapshotId,h.nextChunkIndex,false⟩
  transaction := none
  envelopeVersion := eventEnvelopeVersion
  beforeIsKeyOnly := false
  unavailableColumns := []
  beforeUnavailableColumns := []

/-- One more row of a table counted. -/
def emitted (index : ℕ) (update : TableSnapshotState → TableSnapshotState) : PostgresSnapshotHandle := {h with
    tables := h.tables.modify index update
    emittedRows := h.emittedRows+1
    emittedInRun := h.emittedInRun+1}

/-- A queried row moves the table's cursor to its key. -/
def passCursor (cursor : String) (t : TableSnapshotState) : TableSnapshotState :=
  {t with snapshot := {t.snapshot with
    rowsProcessed := t.snapshot.rowsProcessed+1
    cursorPosition := some cursor}}

/-- The rows of one query. -/
def readFetched (h : PostgresSnapshotHandle) (now : UInt64) (index : ℕ) (t : TableSnapshotState) :
    List (List String × Json) → PostgresSnapshotHandle × List SnapshotRow
  | [] => (h,[])
  | (keyValues,row)::fetched =>
    let cursor := String.ofList (Json.arr (keyValues.map .str)).render
    let event := h.rowEvent now t (splitQualifiedTableName t.snapshot.table).2 (t.snapshot.table++":"++cursor) row
    let rest := (h.emitted index (passCursor cursor)).readFetched now index t fetched
    (rest.1,⟨index,some cursor,event⟩::rest.2)

def storedPosition (index nextRow : ℕ) : String := toString index++":"++toString nextRow

/-- A row held in memory moves the cursor to its place in the list, except for a live query
without a client. -/
def passStored (position : String) (t : TableSnapshotState) : TableSnapshotState := {t with
    nextRow := t.nextRow+1
    snapshot := {t.snapshot with
      rowsProcessed := t.snapshot.rowsProcessed+1
      cursorPosition := if t.liveQuery then t.snapshot.cursorPosition else some position}}

def storedRow (now : UInt64) (index : ℕ) (t : TableSnapshotState) (row : Json) : SnapshotRow :=
  if t.liveQuery then
    ⟨index,none,h.rowEvent now t (splitQualifiedTableName t.snapshot.table).2
      (t.snapshot.table++":offline:"++toString t.nextRow) row⟩
  else
    ⟨index,some (storedPosition index t.nextRow),
      h.rowEvent now t t.snapshot.table (storedPosition index t.nextRow) row⟩

/-- Up to so many of the rows held in memory. -/
def readStored (h : PostgresSnapshotHandle) (now : UInt64) (index : ℕ) : ℕ → PostgresSnapshotHandle × List SnapshotRow
  | 0 => (h,[])
  | remaining+1 =>
    match h.tables[index]? with
    | none => (h,[])
    | some t =>
      match t.rows[t.nextRow]? with
      | none => (h,[])
      | some row =>
        let rest := (h.emitted index (passStored (storedPosition index t.nextRow))).readStored now index remaining
        (rest.1,h.storedRow now index t row::rest.2)

/-- The current table has no more rows. -/
def completeTable : PostgresSnapshotHandle := {h with
    tables := h.tables.modify h.currentTable fun t =>
      {t with snapshot := {t.snapshot with isComplete := true}}
    currentTable := h.currentTable+1}

/-- A table's rows in memory, and its end when they are used up. -/
def readTable (now : UInt64) (remaining : ℕ) : PostgresSnapshotHandle × List SnapshotRow :=
  let read := h.readStored now h.currentTable remaining
  match read.1.tables[h.currentTable]? with
  | some t => (if t.rows.length ≤ t.nextRow then read.1.completeTable else read.1,read.2)
  | none => read

/-- The chunk loop.  Each pass reads a row or ends a table, so a fuel of the rows wanted and the
tables left is enough; a failed query ends the loop with what was read before it. -/
def readChunk (answer : ChunkAnswer) (requested : ℕ) : ℕ → ℕ → PostgresSnapshotHandle →
    List SnapshotRow → PostgresSnapshotHandle × List SnapshotRow × Option Error
  | 0, _, h, read => (h,read,none)
  | fuel+1, query, h, read =>
    if requested ≤ read.length then (h,read,none)
    else
      match h.tables[h.currentTable]? with
      | none => (h,read,none)
      | some t =>
        if t.liveQuery && h.client then
          match answer.fetch query with
          | .error e => (h,read,some e)
          | .ok [] => readChunk answer requested fuel (query+1) h.completeTable read
          | .ok fetched =>
            let one := h.readFetched answer.now h.currentTable t fetched
            readChunk answer requested fuel (query+1) one.1 (read++one.2)
        else
          let one := h.readTable answer.now (requested-read.length)
          readChunk answer requested fuel query one.1 (read++one.2)

def markLast : List SnapshotRow → List SnapshotRow
  | [] => []
  | [row] => [{row with event := {row.event with
      snapshot := row.event.snapshot.map ({· with isLastChunk := true})}}]
  | row::rows => row::markLast rows

lemma map_markLast {β : Type} {f : SnapshotRow → β} (hf : ∀ row, f {row with event := {row.event with
      snapshot := row.event.snapshot.map ({· with isLastChunk := true})}} = f row) (rows : List SnapshotRow) :
    (markLast rows).map f = rows.map f := by
  fun_induction markLast rows with
  | case1 => rfl
  | case2 row => rw [List.map_singleton,hf,List.map_singleton]
  | case3 row rows _ ih => rw [List.map_cons,List.map_cons,ih]
section
variable (chunkSize : ℕ) (answer : ChunkAnswer)

/-- The chunk the loop read, before its rows are handed out. -/
def chunk : PostgresSnapshotHandle × List SnapshotRow × Option Error :=
  let requested := if chunkSize = 0 then defaultSnapshotChunkSize else chunkSize
  readChunk answer requested (requested+h.tables.length) 0 h []

/-- The rows a call reads, also those it loses to a failed query. -/
def readRows : List SnapshotRow :=
  if h.isComplete then []
  else
    let read := h.chunk chunkSize answer
    if read.2.2.isNone && read.1.isComplete then markLast read.2.1 else read.2.1

def nextChunk : PostgresSnapshotHandle × Except Error (List Event) :=
  if h.isComplete then
    (if h.snapshot.snapshotEndTs = 0 then
      {h with snapshot := {h.snapshot with snapshotEndTs := answer.now}} else h,.ok [])
  else
    match h.chunk chunkSize answer with
    | (read,_,some e) => (read,.error e)
    | (read,rows,none) =>
      let read := if rows.isEmpty then read else {read with nextChunkIndex := read.nextChunkIndex+1}
      let read := read.syncSnapshotTables
      (if read.isComplete then
        {read with snapshot := {read.snapshot with snapshotEndTs := answer.now}} else read,
        .ok ((h.readRows chunkSize answer).map (·.event)))
end
def checkpointState : SnapshotCheckpointState :=
  ⟨h.snapshot.snapshotId,h.snapshot.snapshotStartTs,h.snapshot.snapshotEndTs,h.snapshotWatermark,
    h.currentTable,h.nextChunkIndex,h.snapshot.tables⟩
def checkpoint (committedEventCount : UInt64) (answer : Except Error Unit) (checkpoint : Checkpoint Offset) :
    Checkpoint Offset × Except Error Unit :=
  checkpoint.save answer (.snapshot "postgres_snapshot" h.checkpointState) committedEventCount
section
variable (decode : String → Except String (List String))

/-- A cursor is the JSON text of its key values; `decode` is the JSON reader. -/
def decodePkCursor (cursor : String) (expectedColumns : ℕ) : Except Error (List String) :=
  match decode cursor with
  | .error e => .error (.checkpointError
      ("invalid postgres snapshot cursor: expected JSON array of primary key values: "++e))
  | .ok values =>
    if values.length ≠ expectedColumns then
      .error (.checkpointError ("invalid postgres snapshot cursor: expected "++
        toString expectedColumns++" key values, got "++toString values.length))
    else .ok values

def resumeTable (index : ℕ) (t : TableSnapshotState) (saved : TableSnapshot) : Except Error TableSnapshotState :=
  if t.snapshot.table ≠ saved.table then
    .error (.checkpointError ("postgres snapshot checkpoint table mismatch at index "++
      toString index++": expected '"++t.snapshot.table++"' got '"++saved.table++"'"))
  else if t.liveQuery then
    match saved.cursorPosition.map (decodePkCursor decode · t.primaryKeyColumns.length) with
    | some (.error e) => .error (.checkpointError
        ("invalid postgres snapshot cursor for table '"++saved.table++"': "++e.display))
    | _ => .ok {t with snapshot := saved, nextRow := 0}
  else if t.rows.length < saved.rowsProcessed.toNat then
    .error (.checkpointError ("rows_processed exceeds available rows for table "++saved.table))
  else .ok {t with snapshot := saved, nextRow := saved.rowsProcessed.toNat}
end
def resumeTables (decode : String → Except String (List String)) :
    ℕ → List TableSnapshotState → List TableSnapshot → Except Error (List TableSnapshotState)
  | index, t::ts, saved::rest =>
    match resumeTable decode index t saved with
    | .error e => .error e
    | .ok t =>
      match resumeTables decode (index+1) ts rest with
      | .error e => .error e
      | .ok ts => .ok (t::ts)
  | _, _, _ => .ok []

/-- The first table that is not complete. -/
def deriveCurrentTableFromProgress (tables : List TableSnapshotState) : ℕ :=
  (tables.findIdx? (!·.snapshot.isComplete)).getD tables.length

def resumeFromCheckpointPayload (h : PostgresSnapshotHandle)
    (decode : String → Except String (List String)) (state : SnapshotCheckpointState) :
    Except Error PostgresSnapshotHandle :=
  if state.tables.length ≠ h.tables.length then
    .error (.checkpointError "postgres snapshot checkpoint table count does not match snapshot handle")
  else
    match resumeTables decode 0 h.tables state.tables with
    | .error e => .error e
    | .ok tables =>
      let currentTable := deriveCurrentTableFromProgress tables
      if state.currentTable ≠ currentTable then
        .error (.checkpointError ("postgres snapshot checkpoint current_table mismatch: saved="++
          toString state.currentTable++" derived="++toString currentTable++
          " from table completion state"))
      else
        .ok (syncSnapshotTables {h with
            snapshot := {h.snapshot with
              snapshotId := state.snapshotId
              snapshotStartTs := state.snapshotStartTs
              snapshotEndTs := state.snapshotEndTs}
            snapshotWatermark := state.snapshotWatermark
            nextChunkIndex := state.nextChunkIndex
            emittedRows := (state.tables.map (·.rowsProcessed)).foldl (·+·) 0
            emittedInRun := 0
            tables := tables
            currentTable := currentTable})

/-- A table as the server describes it at the start: its name, row count and key columns. -/
structure TableSetup where
  table : String
  totalRows : UInt64
  primaryKeyColumns : List String

/-- A table not yet read; an empty one is complete from the start. -/
def setupTable (t : TableSetup) : TableSnapshotState where
  snapshot := ⟨t.table,t.totalRows,0,none,t.totalRows == 0⟩
  rows := []
  nextRow := 0
  liveQuery := true
  primaryKeyColumns := t.primaryKeyColumns

def buildSnapshotSetup (snapshotId : String) (startTs : UInt64) (tables : List TableSetup) :
    PostgresSnapshot × List TableSnapshotState :=
  let states := tables.map setupTable
  (⟨states.map (·.snapshot),snapshotId,startTs,
    if states.all (·.snapshot.isComplete) then startTs else 0⟩,states)

def startSnapshot (sourceName snapshotId : String) (startTs snapshotWatermark : UInt64)
    (tables : List TableSetup) : PostgresSnapshotHandle :=
  let setup := buildSnapshotSetup snapshotId startTs tables
  new sourceName setup.1 setup.2 true true snapshotWatermark

/-- The handle a started runtime drives: a new one without a checkpoint, one resumed from a
snapshot's checkpoint, and none once the checkpoint is a stream's. -/
def startFromCheckpoint (h : PostgresSnapshotHandle)
    (decode : String → Except String (List String)) (checkpoint : Checkpoint Offset) :
    Except Error (Option PostgresSnapshotHandle) :=
  match checkpoint.load with
  | none => .ok (some h)
  | some (.snapshot sourceType state,_) =>
    if sourceType = "postgres_snapshot" then (h.resumeFromCheckpointPayload decode state).map some
    else .ok none
  | some _ => .ok none

/-- End the snapshot's transaction once its counts agree. -/
def finish (now : UInt64) (commit : Except String Unit) : PostgresSnapshotHandle × Except Error UInt64 :=
  let h := h.syncSnapshotTables
  let h := if h.snapshot.snapshotEndTs = 0 then
    {h with snapshot := {h.snapshot with snapshotEndTs := now}} else h
  let totalProcessed := (h.snapshot.tables.map (·.rowsProcessed)).foldl (·+·) 0
  let totalExpected := (h.tables.map (·.snapshot.totalRows)).foldl (·+·) 0
  if totalProcessed ≠ h.emittedRows then
    (h,.error (.sourceError ("snapshot consistency check failed: emitted_rows="++
      toString h.emittedRows.toNat++" rows_processed="++toString totalProcessed.toNat)))
  else if !h.tables.any (·.liveQuery) && totalExpected ≠ totalProcessed then
    (h,.error (.sourceError "snapshot consistency check failed: not all rows were emitted"))
  else if h.emittedRows < h.emittedInRun then
    (h,.error (.stateError "snapshot consistency check failed: emitted_in_run exceeds emitted_rows"))
  else if !h.transactionOpen then (h,.ok h.snapshot.snapshotEndTs)
  else if !h.client then
    (h,.error (.stateError "postgres snapshot transaction is open but snapshot client is unavailable"))
  else
    match commit with
    | .error e => (h,.error (.sourceError ("failed to commit postgres snapshot transaction: "++e)))
    | .ok () => ({h with transactionOpen := false},.ok h.snapshot.snapshotEndTs)
end PostgresSnapshotHandle
instance : SnapshotHandle PostgresSnapshotHandle where
  Answer := ChunkAnswer
  nextChunk := PostgresSnapshotHandle.nextChunk
  checkpoint := PostgresSnapshotHandle.checkpoint

/-- The connection's watermarks, and what the server answers during the handover. -/
structure HandoffAnswer where
  snapshotWatermark : Option UInt64
  streamWatermark : Option UInt64
  now : UInt64
  commit : Except String Unit
  confirm : Except Error Unit

def performHandoff (snapshot : PostgresSnapshotHandle) (stream : PostgresStreamHandle) (answer : HandoffAnswer) :
    PostgresSnapshotHandle × PostgresStreamHandle × Except Error Unit :=
  match answer.snapshotWatermark, answer.streamWatermark with
  | none, _ => (snapshot,stream,.error (.stateError
      "postgres perform_handoff requires start_snapshot to have been called first"))
  | some _, none => (snapshot,stream,.error (.stateError
      "postgres perform_handoff requires start_stream to have been called first"))
  | some snapshotWatermark, some streamWatermark =>
    match snapshot.finish answer.now answer.commit with
    | (snapshot,.error e) => (snapshot,stream,.error e)
    | (snapshot,.ok _) =>
      match stream.confirmLsn snapshotWatermark answer.confirm with
      | (stream,.error e) => (snapshot,stream,.error e)
      | (stream,.ok ()) =>
        (snapshot,stream,
          if streamWatermark < snapshotWatermark then
            .error (.sourceError ("postgres handoff invariant violated: stream watermark "++
              toString streamWatermark.toNat++" is behind snapshot watermark "++
              toString snapshotWatermark.toNat))
          else .ok ())

instance : Handoff PostgresSnapshotHandle PostgresStreamHandle where
  Answer := HandoffAnswer
  performHandoff := performHandoff
end Rustcdc.Postgres
