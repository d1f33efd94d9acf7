import Rustcdc.Lib.Run
import Rustcdc.Runtime.State

/-! The incremental-snapshot driver: chunk reads bracketed by watermarks and interleaved with the
live stream, rows superseded inside the bracket left out, and log events past it held back until
the chunk has gone out. -/
namespace Rustcdc
/-- `IncrementalSnapshotState::table`. -/
def IncrementalSnapshotState.table (state : IncrementalSnapshotState) (table : String) :
    Option IncrementalSnapshotTableState :=
  state.tables.find? fun entry => eqIgnoreAsciiCase entry.table table

namespace Incremental
inductive BracketPosition
  | before | inside | after
  deriving DecidableEq

/-- A table as the catalog describes it, with the row filter in effect. -/
structure SnapshotTable where
  schema : String
  name : String
  qualified : String
  pkColumns : List String
  condition : Option String
  deriving DecidableEq

def SnapshotTable.key (spec : SnapshotTable) : String := spec.schema++"."++spec.name

structure ChunkRow where
  cursor : List Json
  row : Json
  deriving DecidableEq

/-- The part of a backend that does not ask the server. -/
structure Backend (P : Type) where
  positionOfEvent : Event → Option P
  eventInBracket : Event → P → P → P → BracketPosition
  offsetWithSnapshotState : Offset → IncrementalSnapshotState → Option Offset

/-- The bracket test of a backend whose watermark is one ordered coordinate. -/
def ordinalBracket {P : Type} [Ord P] (_ : Event) (position low high : P) : BracketPosition :=
  if (compare position high).isGT then .after else if (compare position low).isGT then .inside else .before

/-- The catalog, and the order in which a condition map iterates. -/
structure Catalog where
  describeTable : String → Except Error SnapshotTable
  iteration : List (String × String) → List (String × String)

def lookupCondition (catalog : Catalog) (conditions : List (String × String)) (tableRef : String)
    (spec : SnapshotTable) : Option String :=
  ((catalog.iteration conditions).find? fun entry =>
    eqIgnoreAsciiCase entry.1 tableRef || eqIgnoreAsciiCase entry.1 spec.key).map (·.2)

def describeWithCondition (catalog : Catalog) (tableRef : String)
    (conditions : List (String × String)) : Except Error SnapshotTable :=
  match catalog.describeTable tableRef with
  | .error e => .error e
  | .ok spec => .ok {spec with condition := lookupCondition catalog conditions tableRef spec}

structure TableProgress where
  spec : SnapshotTable
  pkCursor : Option (List Json)
  isComplete : Bool
  chunksEmitted : UInt32
  rowsEmitted : UInt64
  deriving DecidableEq

def TableProgress.key (table : TableProgress) : String := table.spec.key

/-- `u32::saturating_add` with one. -/
def saturatingSucc (n : UInt32) : UInt32 := if n.toNat+1 < 2^32 then n+1 else n

/-- A chunk read and the log events collected against it. -/
structure Collect (P : Type) where
  tableIdx : ℕ
  lowWatermark : P
  highWatermark : P
  /-- The rows by fingerprint; an overridden row doubles as the image later events are repaired
  from. -/
  chunkRows : List (String × Event)
  overridePks : List String
  nextCursor : List Json

inductive Phase (P : Type)
  | chunkPrepare (tableIdx : ℕ)
  | chunkCollect (collect : Collect P)
  | chunkEmit (tableIdx : ℕ) (events : List Event) (nextCursor : List Json) (rowCount : UInt64)
  | done

def pkFingerprint (table : String) (values : List Json) : String := table++"|"++String.ofList (Json.arr values).render
def fingerprintFromPayload (table : String) (pkColumns : List String) (payload : Json) : String :=
  pkFingerprint table (pkColumns.map fun column => (payload.get column).getD .null)

/-- The identity of the row a live event is about; the new image decides when there are two. -/
def eventFingerprint (event : Event) : Option String :=
  match event.primaryKey with
  | none => none
  | some pkColumns =>
    if pkColumns.isEmpty then none
    else (event.after.or event.before).map (fingerprintFromPayload event.table pkColumns)

structure IncrementalSnapshotDriver (P H : Type) where
  backend : Backend P
  inner : H
  tables : List TableProgress
  phase : Phase P
  chunkSize : ℕ
  tableConditions : List (String × String)
  sourceName : String
  snapshotId : String
  eventsEmitted : UInt64
  paused : Bool
  generation : UInt32
  stopped : Bool
  deferred : List Event

structure IncrementalSnapshotConfig where
  tables : List String
  chunkSize : ℕ
  tableConditions : List (String × String)

structure SnapshotRequest where
  tables : List String
  conditions : List (String × String)

def noPrimaryKey (spec : SnapshotTable) : Error :=
  .configError ("incremental snapshot: table '"++spec.key++"' must have a primary key")

/-- Resolve the tables in order; the first that cannot be chunked fails them all. -/
def resolveTables (catalog : Catalog) (conditions : List (String × String)) :
    List String → Except Error (List SnapshotTable)
  | [] => .ok []
  | tableRef::rest =>
    match describeWithCondition catalog tableRef conditions with
    | .error e => .error e
    | .ok spec =>
      if spec.pkColumns.isEmpty then .error (noPrimaryKey spec)
      else
        match resolveTables catalog conditions rest with
        | .error e => .error e
        | .ok specs => .ok (spec::specs)

/-- A configured table with the progress the checkpoint has for it. -/
def resumeTable (resume : Option IncrementalSnapshotState) (spec : SnapshotTable) : Except Error TableProgress :=
  let persisted := resume.bind (·.table spec.key)
  match persisted.bind (·.pkCursor) with
  | some cursor =>
    if cursor.length ≠ spec.pkColumns.length then
      .error (.checkpointError ("incremental snapshot: persisted keyset cursor for '"++spec.key++
        "' has "++toString cursor.length++" value(s) but the table's primary key has "++
        toString spec.pkColumns.length++" column(s). The primary key changed since the "++
        "checkpoint was written; restart the snapshot with a fresh checkpoint directory rather "++
        "than resuming from an incompatible cursor"))
    else
      .ok ⟨spec,some cursor,(persisted.map (·.isComplete)).getD false,
        (persisted.map (·.chunksEmitted)).getD 0,(persisted.map (·.rowsEmitted)).getD 0⟩
  | none =>
    .ok ⟨spec,none,(persisted.map (·.isComplete)).getD false,
      (persisted.map (·.chunksEmitted)).getD 0,(persisted.map (·.rowsEmitted)).getD 0⟩

def resumeTables (catalog : Catalog) (conditions : List (String × String))
    (resume : Option IncrementalSnapshotState) :
    List String → Except Error (List TableProgress)
  | [] => .ok []
  | tableRef::rest =>
    match describeWithCondition catalog tableRef conditions with
    | .error e => .error e
    | .ok spec =>
      if spec.pkColumns.isEmpty then .error (noPrimaryKey spec)
      else
        match resumeTable resume spec with
        | .error e => .error e
        | .ok table =>
          match resumeTables catalog conditions resume rest with
          | .error e => .error e
          | .ok tables => .ok (table::tables)

/-- Unfinished tables the checkpoint knows and the configuration does not; one that can no longer
be described is dropped. -/
def adoptTables (catalog : Catalog) (conditions : List (String × String)) :
    List TableProgress → List IncrementalSnapshotTableState → List TableProgress
  | tables, [] => tables
  | tables, persisted::rest =>
    if persisted.isComplete || tables.any (·.key = persisted.table) then
      adoptTables catalog conditions tables rest
    else
      match describeWithCondition catalog persisted.table conditions with
      | .error _ => adoptTables catalog conditions tables rest
      | .ok spec =>
        if spec.pkColumns.isEmpty then adoptTables catalog conditions tables rest
        else
          adoptTables catalog conditions (tables++[⟨spec,persisted.pkCursor,false,persisted.chunksEmitted,
              persisted.rowsEmitted⟩]) rest

def nextIncompleteTable (tables : List TableProgress) : Option ℕ := tables.findIdx? (!·.isComplete)

/-- The phase of a driver between chunks. -/
def nextPhase {P : Type} (tables : List TableProgress) : Phase P :=
  match nextIncompleteTable tables with
  | some tableIdx => .chunkPrepare tableIdx
  | none => .done

/-- `HashMap::extend`: a value given later replaces the earlier one. -/
def extendConditions (conditions : List (String × String)) : List (String × String) → List (String × String)
  | [] => conditions
  | (table,condition)::rest =>
    extendConditions (if conditions.any (·.1 = table) then
        conditions.map fun entry => if entry.1 = table then (table,condition) else entry
      else conditions++[(table,condition)]) rest

/-- One resolved table of a request: a table in progress is left alone, a finished one rewound,
a new one added.  The flag says whether there is work for it. -/
def enqueueTable (tables : List TableProgress) (spec : SnapshotTable) : List TableProgress × Bool :=
  match tables.findIdx? (·.key = spec.key) with
  | none => (tables++[⟨spec,none,false,0,0⟩],true)
  | some index =>
    if (tables[index]?.map (·.isComplete)).getD false then
      (tables.set index ⟨spec,none,false,0,0⟩,true)
    else (tables,false)

def enqueueAll : List TableProgress → List SnapshotTable → List TableProgress × ℕ
  | tables, [] => (tables,0)
  | tables, spec::specs =>
    let one := enqueueTable tables spec
    let rest := enqueueAll one.1 specs
    (rest.1,rest.2+if one.2 then 1 else 0)

namespace IncrementalSnapshotDriver
variable {P H : Type}

def new (backend : Backend P) (inner : H) (catalog : Catalog) (config : IncrementalSnapshotConfig)
    (sourceName : String) (resume : Option IncrementalSnapshotState) (now : UInt64) :
    Except Error (IncrementalSnapshotDriver P H) :=
  let stopped := (resume.map (·.stopped)).getD false
  let configured := if stopped then [] else config.tables
  match resumeTables catalog config.tableConditions resume configured with
  | .error e => .error e
  | .ok tables =>
    let adopted := if stopped then tables
      else adoptTables catalog config.tableConditions tables ((resume.map (·.tables)).getD [])
    let persistedId := (resume.map (·.snapshotId)).getD ""
    .ok {
      backend := backend
      inner := inner
      tables := adopted
      phase := nextPhase adopted
      chunkSize := max config.chunkSize 1
      tableConditions := config.tableConditions
      sourceName := sourceName
      snapshotId := if persistedId.isEmpty then "incremental-"++toString now.toNat else persistedId
      eventsEmitted := 0
      paused := (resume.map (·.paused)).getD false
      generation := (resume.map (·.generation)).getD 0
      stopped := stopped
      deferred := []}

variable (d : IncrementalSnapshotDriver P H)

/-- Newly enqueued work puts a parked driver back on the state machine. -/
def enqueueTables (catalog : Catalog) (request : SnapshotRequest) : IncrementalSnapshotDriver P H × Except Error ℕ :=
  let conditions := extendConditions d.tableConditions request.conditions
  match resolveTables catalog conditions request.tables with
  | .error e => (d,.error e)
  | .ok specs =>
    let queued := enqueueAll d.tables specs
    if queued.2 = 0 then ({d with tables := queued.1},.ok 0)
    else
      ({d with
        tables := queued.1
        generation := saturatingSucc d.generation
        stopped := false
        phase := match d.phase with
          | .done => nextPhase queued.1
          | phase => phase},.ok queued.2)

def setPaused (paused : Bool) : IncrementalSnapshotDriver P H × Bool := ({d with
    paused := paused
    phase := match paused, d.phase with
      | false, .done => nextPhase d.tables
      | _, phase => phase},d.paused)

/-- Drop every table and undelivered row; held-back log events stay. -/
def stopSnapshot : IncrementalSnapshotDriver P H × ℕ := ({d with
    tables := []
    phase := .done
    paused := false
    stopped := true
    generation := saturatingSucc d.generation},(d.tables.filter (!·.isComplete)).length)

def snapshotState : IncrementalSnapshotState where
  snapshotId := d.snapshotId
  tables := d.tables.map fun table =>
    ⟨table.key,table.pkCursor,table.isComplete,table.chunksEmitted,table.rowsEmitted,table.spec.condition⟩
  paused := d.paused
  stopped := d.stopped
  generation := d.generation

/-- The table at an index; every phase names an entry of the list. -/
def tableAt (tableIdx : ℕ) : SnapshotTable := (d.tables[tableIdx]?.map (·.spec)).getD ⟨"","","",[],none⟩

variable (now : UInt64) (tableIdx : ℕ)

def buildSnapshotEvent (fingerprint : String) (row : Json) (chunkIndex : UInt32) : Event where
  before := none
  after := some row
  op := .read
  source := ⟨d.sourceName,"incremental:"++toString d.generation.toNat++":"++
    (d.tableAt tableIdx).qualified++":"++fingerprint,now⟩
  ts := now
  schema := some (d.tableAt tableIdx).schema
  table := (d.tableAt tableIdx).name
  primaryKey := some (d.tableAt tableIdx).pkColumns
  snapshot := some ⟨d.snapshotId,chunkIndex,false⟩
  transaction := none
  envelopeVersion := eventEnvelopeVersion
  beforeIsKeyOnly := false
  unavailableColumns := []
  beforeUnavailableColumns := []

def chunkRow (row : ChunkRow) : String × Event :=
  let fingerprint := fingerprintFromPayload (d.tableAt tableIdx).name (d.tableAt tableIdx).pkColumns row.row
  (fingerprint,d.buildSnapshotEvent now tableIdx fingerprint row.row
    ((d.tables[tableIdx]?.map (·.chunksEmitted)).getD 0))
end IncrementalSnapshotDriver
/-- What the backend, the inner stream and the clock answer during one pass of the loop. -/
structure PassAnswer (P H : Type) [StreamHandle H] where
  lowWatermark : Except Error P
  chunk : Except Error (List ChunkRow)
  highWatermark : Except Error P
  now : UInt64
  events : StreamHandle.Answer H
  currentPosition : Except Error P

/-- How a pass returns, if it does: with events of the log, with rows of the chunk, or with an
error. -/
inductive Returned
  | log (events : List Event)
  | rows (events : List Event)
  | failed (error : Error)

def Returned.result : Returned → Except Error (List Event)
  | .log events => .ok events
  | .rows events => .ok events
  | .failed e => .error e

/-- The last row with the fingerprint, as a map built in row order has it. -/
def chunkIndexByKey (fingerprint : String) : List (String × Event) → Option ℕ
  | [] => none
  | row::rows =>
    match chunkIndexByKey fingerprint rows with
    | some index => some (index+1)
    | none => if row.1 = fingerprint then some 0 else none

def fillColumns (shadow : List (String × Json)) :
    List String → List (String × Json) → List String × List (String × Json)
  | [], object => ([],object)
  | column::columns, object =>
    match shadow.lookup column with
    | some value => fillColumns shadow columns (Json.insertField column value object)
    | none =>
      let rest := fillColumns shadow columns object
      (column::rest.1,rest.2)

def fillImage (shadow : List (String × Json)) (columns : List String) (image : Option Json) :
    List String × Option Json :=
  match image with
  | some (.obj object) =>
    let filled := fillColumns shadow columns object
    (filled.1,some (.obj filled.2))
  | _ => (columns,image)

/-- The columns an event carries, written over the shadow. -/
def foldImage (shadow : List (String × Json)) (image : Option Json) : List (String × Json) :=
  match image with
  | some (.obj object) => object.foldl (fun shadow field => Json.insertField field.1 field.2 shadow) shadow
  | _ => shadow

def repairPartialPayload (chunkRows : List (String × Event)) (fingerprint : String)
    (event : Event) : List (String × Event) × Event :=
  match chunkIndexByKey fingerprint chunkRows with
  | none => (chunkRows,event)
  | some index =>
    match (chunkRows[index]?.bind (·.2.after)).bind Json.asObject with
    | none => (chunkRows,event)
    | some shadow =>
      let before := fillImage shadow event.beforeUnavailableColumns event.before
      let after := fillImage shadow event.unavailableColumns event.after
      let event := {event with
        before := before.2
        after := after.2
        unavailableColumns := after.1
        beforeUnavailableColumns := before.1}
      (chunkRows.modify index fun row =>
        (row.1,{row.2 with after := some (.obj (foldImage shadow event.after))}),event)
section
variable {P : Type} [Ord P] (backend : Backend P) (collect : Collect P)

/-- Where an event with a position stands against the chunk's bracket. -/
def membership (event : Event) : Option BracketPosition := (backend.positionOfEvent event).map fun position =>
    backend.eventInBracket event position collect.lowWatermark collect.highWatermark

def maxBatchPosition : List Event → Option P
  | [] => none
  | event::events =>
    match backend.positionOfEvent event, maxBatchPosition events with
    | none, rest => rest
    | some position, none => some position
    | some position, some rest => some (if (compare position rest).isLT then rest else position)

/-- The first event past the high watermark. -/
def splitAt (events : List Event) : Option ℕ :=
  events.findIdx? fun event => membership backend collect event = some .after

/-- The event is about the chunk's table and the chunk read could not have seen it. -/
def supersedes (target : SnapshotTable) (event : Event) : Bool :=
  event.table = target.name && event.schema.getD target.schema = target.schema &&
    membership backend collect event = some .inside

/-- The batch with its superseding events repaired, and the rows they override. -/
def overrideRows (target : SnapshotTable) : Collect P → List Event → Collect P × List Event
  | collect, [] => (collect,[])
  | collect, event::events =>
    match if supersedes backend collect target event then eventFingerprint event else none with
    | none =>
      let rest := overrideRows target collect events
      (rest.1,event::rest.2)
    | some fingerprint =>
      let repaired := repairPartialPayload collect.chunkRows fingerprint event
      let rest := overrideRows target {collect with
        chunkRows := repaired.1
        overridePks := collect.overridePks.insert fingerprint} events
      (rest.1,repaired.2::rest.2)

/-- Whether the log has reached the high watermark; a quiet stream asks the source. -/
def watermarkPassed (events : List Event) (currentPosition : Except Error P) : Except Error Bool :=
  match maxBatchPosition backend events with
  | some position =>
    .ok (compare position collect.highWatermark).isGE
  | none =>
    if events.isEmpty then currentPosition.map fun position => (compare position collect.highWatermark).isGE
    else .ok false
end
def emitBatchSizeDefault : ℕ := 1000

namespace IncrementalSnapshotDriver
variable {P H : Type}

/-- Merge the chunk against the overrides. -/
def finalizeCollect (collect : Collect P) : Phase P :=
  let merged := (collect.chunkRows.filter fun row => !collect.overridePks.contains row.1).map (·.2)
  .chunkEmit collect.tableIdx merged collect.nextCursor (UInt64.ofNat merged.length)
section
variable (d : IncrementalSnapshotDriver P H)

def commitChunkProgress (tableIdx : ℕ) (nextCursor : List Json) (rowCount : UInt64) : IncrementalSnapshotDriver P H :=
  {d with tables := d.tables.modify tableIdx fun table => {table with
    pkCursor := if nextCursor.isEmpty then table.pkCursor else some nextCursor
    chunksEmitted := saturatingSucc table.chunksEmitted
    rowsEmitted := saturatingAdd table.rowsEmitted rowCount}}

def emitBatchSize : ℕ :=
  if d.chunkSize = 0 then emitBatchSizeDefault else d.chunkSize
def drainDeferred : IncrementalSnapshotDriver P H × Option Returned :=
  let batchSize := min d.deferred.length d.emitBatchSize
  ({d with deferred := d.deferred.drop batchSize},some (.log (d.deferred.take batchSize)))

/-- The table to read next: the one the phase names, or the first unfinished one. -/
def chunkTable (tableIdx : ℕ) : Option ℕ :=
  match d.tables[tableIdx]? with
  | some table => if table.isComplete then nextIncompleteTable d.tables else some tableIdx
  | none => nextIncompleteTable d.tables

/-- A table without further rows is complete. -/
def completeTable (tableIdx : ℕ) : IncrementalSnapshotDriver P H :=
  let tables := d.tables.modify tableIdx ({· with isComplete := true})
  {d with tables := tables, phase := nextPhase tables}

def startCollect (now : UInt64) (tableIdx : ℕ) (low high : P)
    (rows : List ChunkRow) : IncrementalSnapshotDriver P H :=
  {d with phase := .chunkCollect {
    tableIdx := tableIdx
    lowWatermark := low
    highWatermark := high
    chunkRows := rows.map (d.chunkRow now tableIdx)
    overridePks := []
    nextCursor := (rows.getLast?.map (·.cursor)).getD []}}
end
variable [Ord P] [StreamHandle H]
section
variable (d : IncrementalSnapshotDriver P H)

/-- Pass the log through, held-back events first. -/
def passThrough (answer : PassAnswer P H) : IncrementalSnapshotDriver P H × Option Returned :=
  if !d.deferred.isEmpty then d.drainDeferred
  else
    match StreamHandle.nextEvents d.inner answer.events with
    | (inner,.ok events) => ({d with inner := inner},some (.log events))
    | (inner,.error e) => ({d with inner := inner},some (.failed e))

def driveChunkPrepare (tableIdx : ℕ) (answer : PassAnswer P H) : IncrementalSnapshotDriver P H × Option Returned :=
  match d.chunkTable tableIdx with
  | none => ({d with phase := .done},none)
  | some tableIdx =>
    -- the watermarks bracket the read, so the calls are made in this order
    match answer.lowWatermark with
    | .error e => (d,some (.failed e))
    | .ok low =>
      match answer.chunk with
      | .error e => (d,some (.failed e))
      | .ok rows =>
        match answer.highWatermark with
        | .error e => (d,some (.failed e))
        | .ok high =>
          (if rows.isEmpty then d.completeTable tableIdx
          else d.startCollect answer.now tableIdx low high rows,none)

/-- A batch of the log against the chunk's bracket. -/
def collectBatch (collect : Collect P) (events : List Event)
    (currentPosition : Except Error P) : IncrementalSnapshotDriver P H × Option Returned :=
  match watermarkPassed d.backend collect events currentPosition with
  | .error e => (d,some (.failed e))
  | .ok passed =>
    let overridden := overrideRows d.backend (d.tableAt collect.tableIdx) collect events
    let split := (splitAt d.backend collect events).getD events.length
    let head := overridden.2.take split
    let d := {d with
      deferred := d.deferred++overridden.2.drop split
      phase := if passed then finalizeCollect overridden.1 else .chunkCollect overridden.1}
    (d,if !head.isEmpty then some (.log head) else if passed then none else some (.log []))

def driveChunkCollect (collect : Collect P)
    (answer : PassAnswer P H) : IncrementalSnapshotDriver P H × Option Returned :=
  match StreamHandle.nextEvents d.inner answer.events with
  | (inner,.error e) => ({d with inner := inner},some (.failed e))
  | (inner,.ok events) =>
    {d with inner := inner}.collectBatch collect events answer.currentPosition

def driveChunkEmit (tableIdx : ℕ) (events : List Event) (nextCursor : List Json) (rowCount : UInt64) :
    IncrementalSnapshotDriver P H × Option Returned :=
  let batchSize := min events.length d.emitBatchSize
  if 0 < batchSize then
    ({d with phase := .chunkEmit tableIdx (events.drop batchSize) nextCursor rowCount},
      some (.rows (events.take batchSize)))
  else
    -- the whole chunk is in the consumer's hands
    let d := {d.commitChunkProgress tableIdx nextCursor rowCount with phase := .chunkPrepare tableIdx}
    if !d.deferred.isEmpty then d.drainDeferred else (d,none)

/-- One pass of the loop; without a result the loop goes on. -/
def pass (answer : PassAnswer P H) : IncrementalSnapshotDriver P H × Option Returned :=
  match d.phase with
  | .done => d.passThrough answer
  | .chunkEmit tableIdx events nextCursor rowCount =>
    d.driveChunkEmit tableIdx events nextCursor rowCount
  | .chunkPrepare tableIdx =>
    if d.paused then d.passThrough answer else d.driveChunkPrepare tableIdx answer
  | .chunkCollect collect => d.driveChunkCollect collect answer

/-- The state machine until it has something to return. -/
def drive (answers : List (PassAnswer P H)) : Option (IncrementalSnapshotDriver P H × Returned) :=
  Machine.loop pass d answers

/-- The events handed to the caller are counted. -/
def counted (returned : Returned) : IncrementalSnapshotDriver P H :=
  match returned.result with
  | .error _ => d
  | .ok events =>
    {d with eventsEmitted := saturatingAdd d.eventsEmitted (UInt64.ofNat events.length)}

def nextEvents (answers : List (PassAnswer P H)) :
    Option (IncrementalSnapshotDriver P H × Except Error (List Event)) :=
  (d.drive answers).map fun driven => (driven.1.counted driven.2,driven.2.result)
end
/-- No position is reported while log events are held back: the inner stream is already past
them. -/
def positionOffset (d : IncrementalSnapshotDriver P H) : Option Offset :=
  if !d.deferred.isEmpty then none
  else
    (StreamHandle.positionOffset d.inner).bind (d.backend.offsetWithSnapshotState · d.snapshotState)

/-- `save_position`; `innerSave` is the inner stream's own. -/
def savePosition (d : IncrementalSnapshotDriver P H) (answer : Except Error Unit)
    (innerSave : Checkpoint Offset → Checkpoint Offset × Except Error Unit)
    (checkpoint : Checkpoint Offset) : Checkpoint Offset × Except Error Unit :=
  if !d.deferred.isEmpty then (checkpoint,.ok ())
  else
    match d.positionOffset with
    | none => innerSave checkpoint
    | some offset => checkpoint.save answer offset d.eventsEmitted
end IncrementalSnapshotDriver
/-- The driver as a stream; a call whose passes are not all answered yet has not returned. -/
instance {P H : Type} [Ord P] [StreamHandle H] : StreamHandle (IncrementalSnapshotDriver P H) where
  Answer := List (PassAnswer P H)
  nextEvents d answers := (d.nextEvents answers).getD (d,.ok [])
  confirmLsn d lsn answer :=
    let confirmed := StreamHandle.confirmLsn d.inner lsn answer
    ({d with inner := confirmed.1},confirmed.2)
  resumeOffsetFor _ _ := none
  positionOffset := IncrementalSnapshotDriver.positionOffset
  incrementalSnapshotState d := some d.snapshotState
end Incremental
end Rustcdc
