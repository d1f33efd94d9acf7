import Rustcdc.Source.TableRows

/-! The MySQL bulk snapshot: chunks read table by table behind a keyset cursor. -/
namespace Rustcdc.Mysql
open Postgres (SnapshotRow)
open Postgres.PostgresSnapshotHandle (markLast)

structure TableSnapshotState where
  snapshot : TableSnapshot
  primaryKeyColumns : List String
  rows : List Json
  nextRow : ℕ
  liveQuery : Bool

structure MysqlSnapshot where
  tables : List TableSnapshot
  snapshotId : String
  snapshotStartTs : UInt64
  binlogFile : String
  binlogPos : UInt32
  gtid : String

structure MysqlSnapshotHandle where
  sourceName : String
  snapshot : MysqlSnapshot
  tables : List TableSnapshotState
  connection : Bool
  transactionOpen : Bool
  currentTable : ℕ
  nextChunkIndex : UInt32
  emittedRows : UInt64

/-- What the server and the clock answer during one chunk: the rows of each query, in turn, with
their keys. -/
structure ChunkAnswer where
  now : UInt64
  fetch : ℕ → Except Error (List (Json × Json))

def defaultSnapshotChunkSize : ℕ := 5000

namespace MysqlSnapshotHandle
def new (sourceName : String) (snapshot : MysqlSnapshot) (tables : List TableSnapshotState)
    (connection transactionOpen : Bool) : MysqlSnapshotHandle where
  sourceName := sourceName
  snapshot := snapshot
  tables := tables
  connection := connection
  transactionOpen := transactionOpen
  currentTable := 0
  nextChunkIndex := 0
  emittedRows := 0

variable (h : MysqlSnapshotHandle)

def isComplete : Bool := h.tables.all (·.snapshot.isComplete)
def syncSnapshotTables : MysqlSnapshotHandle :=
  {h with snapshot := {h.snapshot with tables := h.tables.map (·.snapshot)}}

def rowEvent (now : UInt64) (t : TableSnapshotState) (cursor : String) (row : Json) : Event where
  before := none
  after := some row
  op := .read
  source := ⟨h.sourceName,h.snapshot.binlogFile++":"++toString h.snapshot.binlogPos.toNat++":"++ cursor,now⟩
  ts := now
  schema := none
  table := t.snapshot.table
  primaryKey := some t.primaryKeyColumns
  snapshot := some ⟨h.snapshot.snapshotId,h.nextChunkIndex,false⟩
  transaction := none
  envelopeVersion := eventEnvelopeVersion
  beforeIsKeyOnly := false
  unavailableColumns := []
  beforeUnavailableColumns := []

def fetchLiveRows (answer : Except Error (List (Json × Json))) : Except Error (List (Json × Json)) :=
  if !h.connection then
    .error (.stateError "mysql snapshot live query requires an active connection")
  else
    match h.tables[h.currentTable]? with
    | none => .ok []
    | some t =>
      if t.primaryKeyColumns.isEmpty then
        .error (.sourceError ("mysql snapshot requires a PRIMARY KEY for keyset pagination: "++ t.snapshot.table))
      else answer

def cursorText (key : Json) : String := String.ofList key.render

def passCursor (cursor : String) (t : TableSnapshotState) : TableSnapshotState :=
  {t with snapshot := {t.snapshot with
    rowsProcessed := t.snapshot.rowsProcessed+1
    cursorPosition := some cursor}}

/-- The rows of one query. -/
def readFetched (h : MysqlSnapshotHandle) (now : UInt64) (index : ℕ) (t : TableSnapshotState) :
    List (Json × Json) → MysqlSnapshotHandle × List SnapshotRow
  | [] => (h,[])
  | (key,row)::fetched =>
    let cursor := cursorText key
    let event := h.rowEvent now t cursor row
    let read : MysqlSnapshotHandle :=
      {h with tables := h.tables.modify index (passCursor cursor), emittedRows := h.emittedRows+1}
    let rest := read.readFetched now index t fetched
    (rest.1,⟨index,some cursor,event⟩::rest.2)

def storedPosition (nextRow : ℕ) : String := "["++toString nextRow++"]"

def passStored (t : TableSnapshotState) : TableSnapshotState := {t with
    nextRow := t.nextRow+1
    snapshot := {t.snapshot with
      rowsProcessed := t.snapshot.rowsProcessed+1
      cursorPosition := some (storedPosition t.nextRow)}}

/-- Up to so many of the rows held in memory. -/
def readStored (h : MysqlSnapshotHandle) (now : UInt64) (index : ℕ) : ℕ → MysqlSnapshotHandle × List SnapshotRow
  | 0 => (h,[])
  | remaining+1 =>
    match h.tables[index]? with
    | none => (h,[])
    | some t =>
      match t.rows[t.nextRow]? with
      | none => (h,[])
      | some row =>
        let read : MysqlSnapshotHandle :=
          {h with tables := h.tables.modify index passStored, emittedRows := h.emittedRows+1}
        let rest := read.readStored now index remaining
        (rest.1,⟨index,some (storedPosition t.nextRow),h.rowEvent now t (storedPosition t.nextRow) row⟩::rest.2)

/-- The current table has no more rows. -/
def completeTable : MysqlSnapshotHandle := {h with
    tables := h.tables.modify h.currentTable fun t =>
      {t with snapshot := {t.snapshot with isComplete := true}}
    currentTable := h.currentTable+1}

/-- A table's rows in memory, and its end when they are used up. -/
def readTable (now : UInt64) (remaining : ℕ) : MysqlSnapshotHandle × List SnapshotRow :=
  let read := h.readStored now h.currentTable remaining
  match read.1.tables[h.currentTable]? with
  | some t => (if t.rows.length ≤ t.nextRow then read.1.completeTable else read.1,read.2)
  | none => read

def asksServer : Bool :=
  match h.tables[h.currentTable]? with
  | some t => t.liveQuery
  | none => false

/-- One pass of the chunk loop. -/
def readPass (now : UInt64) (h : MysqlSnapshotHandle) (remaining : ℕ)
    (fetched : List (Json × Json)) : MysqlSnapshotHandle × List SnapshotRow :=
  match h.tables[h.currentTable]? with
  | none => (h,[])
  | some t =>
    if t.liveQuery then
      match fetched with
      | [] => (h.completeTable,[])
      | fetched => h.readFetched now h.currentTable t fetched
    else h.readTable now remaining

def reader (now : UInt64) : Scan.Reader MysqlSnapshotHandle (Json × Json) SnapshotRow where
  pending h := h.currentTable < h.tables.length
  asks := asksServer
  pass := readPass now
section
variable (chunkSize : ℕ) (answer : ChunkAnswer)

/-- The chunk the loop read, before its rows are handed out.  Each pass reads a row or ends a table,
so a fuel of the rows wanted and the tables is enough. -/
def chunk : MysqlSnapshotHandle × List SnapshotRow × Option Error :=
  let requested := if chunkSize = 0 then defaultSnapshotChunkSize else chunkSize
  (reader answer.now).read (fun query h => h.fetchLiveRows (answer.fetch query)) requested
    (requested+h.tables.length) 0 h []

/-- The rows a call reads, also those it loses to a failed query. -/
def readRows : List SnapshotRow :=
  if h.isComplete then []
  else
    let read := h.chunk chunkSize answer
    if read.2.2.isNone && read.1.isComplete then markLast read.2.1 else read.2.1

def nextSnapshotChunk : MysqlSnapshotHandle × Except Error (List Event) :=
  if h.isComplete then (h,.ok [])
  else
    match h.chunk chunkSize answer with
    | (read,_,some e) => (read,.error e)
    | (read,rows,none) =>
      let read := if rows.isEmpty then read else {read with nextChunkIndex := read.nextChunkIndex+1}
      (read.syncSnapshotTables,.ok ((h.readRows chunkSize answer).map (·.event)))
end
section
variable (contents : ℕ → List TableRow)

/-- A table stands behind so many rows: by its cursor if it is queried, else by its place in the rows
held in memory.  A complete one has none left. -/
structure TableStands (i : ℕ) (t : TableSnapshotState) (k : ℕ) : Prop where
  le : k ≤ (contents i).length
  cursor : t.liveQuery = true → t.snapshot.cursorPosition = cursorAt (contents i) k
  stored : t.liveQuery = false → t.nextRow = k ∧ t.rows = (contents i).map Prod.snd
  complete : t.snapshot.isComplete = true → k = (contents i).length

def Stands (count : ℕ) (h : MysqlSnapshotHandle) (done : ℕ → ℕ) : Prop :=
  Scan.Stands (TableStands contents) count h.tables done

/-- The server's side of a query: the rows behind the table's cursor. -/
def Right (h : MysqlSnapshotHandle) (limit : ℕ) (fetched : List (Json × Json)) : Prop :=
  ∀ t ∈ h.tables[h.currentTable]?, RowsBehind (contents h.currentTable) t.snapshot.cursorPosition
    limit (fetched.map fun row => (cursorText row.1,row.2))
  deriving Decidable

/-- The server's side of a call: every query that is answered is answered with the rows asked for. -/
def Served (h : MysqlSnapshotHandle) (chunkSize : ℕ) (answer : ChunkAnswer) : Prop :=
  let requested := if chunkSize = 0 then defaultSnapshotChunkSize else chunkSize
  (reader answer.now).Served (fun query h => h.fetchLiveRows (answer.fetch query)) requested
    (Right contents) (requested+h.tables.length) 0 h []
  deriving Decidable

variable {contents} {co : ℕ} {h : MysqlSnapshotHandle} {done : ℕ → ℕ}

variable {t : TableSnapshotState}

lemma TableStands.advance {i k : ℕ} (hl : t.liveQuery = true) {row : TableRow}
    (hr : (contents i)[k]? = some row) (h : TableStands contents i t k) :
    TableStands contents i (passCursor row.1 t) (k+1) := by
  have hlt : k < (contents i).length := (List.getElem?_eq_some_iff.mp hr).1
  refine ⟨hlt,fun _ => (cursorAt_succ hr).symm,fun hn => ?_,fun hc => ?_⟩
  · cases hl.symm.trans hn
  · exact absurd (h.complete hc) hlt.ne

lemma TableStands.store {i k : ℕ} (hs : t.liveQuery = false) {row : Json}
    (hro : t.rows[t.nextRow]? = some row) (h : TableStands contents i t k) :
    TableStands contents i (passStored t) (k+1) ∧ (valuesOf contents i)[k]? = some row := by
  obtain ⟨hn,hr⟩ := h.stored hs
  have hv : (valuesOf contents i)[k]? = some row := by
    rw [valuesOf,← hr,← hn]
    exact hro
  have hlt : k < (contents i).length := by
    have := (List.getElem?_eq_some_iff.mp hv).1
    rwa [valuesOf,List.length_map] at this
  refine ⟨⟨hlt,fun hl => ?_,fun _ => ⟨by rw [← hn]; rfl,hr⟩,fun hc => ?_⟩,hv⟩
  · cases hs.symm.trans hl
  · exact absurd (h.complete hc) hlt.ne

lemma completeTable_stands (hs : h.Stands contents co done) (hr : ∀ t, h.tables[h.currentTable]? = some t →
      done h.currentTable = (contents h.currentTable).length) :
    h.completeTable.Stands contents co done :=
  Scan.Stands.keep hs fun t ht ha =>
    ⟨ha.le,ha.cursor,ha.stored,fun _ => hr t ht⟩

variable {a : ChunkAnswer} {f : List (Json × Json)} {c : ℕ}
section
variable (hs : h.Stands contents co done)
include hs

lemma readFetched_stands {i : ℕ} {t' : TableSnapshotState} (ht : h.tables[i]? = some t') (hl : t'.liveQuery = true)
    (now : UInt64) (hr : (f.map fun row => (cursorText row.1,row.2)) <+: (contents i).drop (done i)) :
    MovesOn (Stands contents co) contents done (h.readFetched now i t f) := by
  induction f generalizing h t' done with
  | nil => exact movesOn_nothing hs
  | cons row f ih =>
    obtain ⟨hn,hr⟩ := front_cons hr
    rw [readFetched]
    refine .cons (ih ?_ (Scan.modify_at ht) hl ?_) (valuesOf_next hn) rfl
    · refine Scan.Stands.modify hs fun t ht' ha => ?_
      cases ht.symm.trans ht'
      exact ha.advance hl hn
    · rwa [Function.update_self]

/-- Rows held in memory are read from the place the table stands at. -/
theorem readStored_stands {i n : ℕ} (hn : h.currentTable = n) (ht : h.tables[i]? = some t)
    (hst : t.liveQuery = false) (now : UInt64) (k : ℕ) :
    MovesOn (fun h done => h.Stands contents co done ∧ h.currentTable = n ∧
      ∃ t, h.tables[i]? = some t ∧ t.liveQuery = false) contents done (h.readStored now i k) := by
  induction k generalizing h t done with
  | zero => exact movesOn_nothing ⟨hs,hn,t,ht,hst⟩
  | succ k ih =>
    rw [readStored,ht]
    dsimp only
    cases hr : t.rows[t.nextRow]? with
    | none => exact movesOn_nothing ⟨hs,hn,t,ht,hst⟩
    | some =>
      obtain ⟨hm,hv⟩ := (hs.each i t ht).store hst hr
      refine .cons (ih ?_ hn (Scan.modify_at ht) hst) hv rfl
      refine Scan.Stands.modify hs fun t' ht' _ => ?_
      cases ht.symm.trans ht'
      exact hm

lemma readTable_stands (ht : h.tables[h.currentTable]? = some t) (hst : t.liveQuery = false) (now : UInt64) (k : ℕ) :
    MovesOn (Stands contents co) contents done (h.readTable now k) := by
  obtain ⟨done',⟨hs',hp,t',ht',hst'⟩,hto⟩ := readStored_stands hs rfl ht hst now k
  unfold readTable
  dsimp only
  rw [ht']
  refine ⟨done',?_,hto⟩
  dsimp only
  split_ifs with hu
  · refine completeTable_stands hs' fun t'' ht'' => ?_
    rw [hp] at ht'' ⊢
    obtain rfl := Option.some.inj (ht''.symm.trans ht')
    have ha := hs'.each h.currentTable t'' ht''
    obtain ⟨hn,hr⟩ := ha.stored hst'
    have hl := ha.le
    rw [hr,List.length_map,hn] at hu
    omega
  · exact hs'

lemma readPass_stands (now : UInt64) {k : ℕ} (hre : 0 < k)
    (hr : if h.asksServer then h.Right contents k f else f = []) :
    MovesOn (Stands contents co) contents done (readPass now h k f) := by
  unfold readPass
  cases ht : h.tables[h.currentTable]? with
  | none => exact movesOn_nothing hs
  | some t =>
    dsimp only
    cases ha : t.liveQuery with
    | false => exact readTable_stands hs ht ha now k
    | true =>
      have hro : RowsBehind (contents h.currentTable) t.snapshot.cursorPosition k
          (f.map fun row => (cursorText row.1,row.2)) := by
        rw [asksServer,ht] at hr
        dsimp only at hr
        rw [if_pos ha] at hr
        exact hr t ht
      have hat := hs.each h.currentTable t ht
      cases f with
      | nil => exact movesOn_nothing (completeTable_stands hs fun _ _ => hro.nil hat.le (hat.cursor ha) hre)
      | cons => exact readFetched_stands hs ht ha now (hro.front hat.le (hat.cursor ha))

lemma chunk_stands (hse : h.Served contents c a) :
    MovesOn (Stands contents co) contents done ((h.chunk c a).1,(h.chunk c a).2.1) := by
  unfold MovesOn
  refine Scan.Reader.read_keeps (Stands contents co) ?_ hs hse
  exact fun _ _ _ _ hi _ hr hri => readPass_stands hi a.now hr hri

/-- A call moves the tables on by the rows it reads, whether it returns them or fails. -/
theorem nextSnapshotChunk_stands (hse : h.Served contents c a) :
    MovesOn (Stands contents co) contents done ((h.nextSnapshotChunk c a).1,h.readRows c a) := by
  refine (chunk_stands hs hse).call (fun hc => ?_) (fun hc done' hs' => ?_)
  · rw [nextSnapshotChunk,if_pos hc]
    exact hs
  · rw [nextSnapshotChunk,if_neg (by simp [hc])]
    generalize h.chunk c a = r at hs'
    obtain ⟨r,rs,_ | e⟩ := r
    · dsimp only
      split <;> exact hs'
    · exact hs'
end
end
end MysqlSnapshotHandle
end Rustcdc.Mysql
