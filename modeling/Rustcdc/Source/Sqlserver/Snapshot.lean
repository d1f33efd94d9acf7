import Rustcdc.Source.StreamStart
import Rustcdc.Source.TableRows

/-! The SQL Server bulk snapshot.  A table is taken to be read when as many rows were read as were
counted before. -/
namespace Rustcdc.Sqlserver
open Postgres (SnapshotRow)
open Postgres.PostgresSnapshotHandle (markLast)

structure TableSnapshotState where
  snapshot : TableSnapshot
  schema : String
  table : String
  primaryKeyColumns : List String

structure SqlServerSnapshot where
  tables : List TableSnapshot
  snapshotId : String
  snapshotStartTs : UInt64
  lsnStart : ℕ

structure SqlServerSnapshotHandle where
  snapshot : SqlServerSnapshot
  tables : List TableSnapshotState
  currentTable : ℕ
  nextChunkIndex : UInt32
  emittedRows : UInt64

/-- What the server and the clock answer during one chunk: the rows of each query, in turn, with the
texts of their keys. -/
structure ChunkAnswer where
  now : UInt64
  fetch : ℕ → Except Error (List (String × Json))

namespace SqlServerSnapshotHandle
variable (h : SqlServerSnapshotHandle)

def isComplete : Bool := h.tables.all (·.snapshot.isComplete)
def syncSnapshotTables : SqlServerSnapshotHandle :=
  {h with snapshot := {h.snapshot with tables := h.tables.map (·.snapshot)}}

def rowEvent (now : UInt64) (t : TableSnapshotState) (cursor : String) (row : Json) : Event where
  before := none
  after := some row
  op := .read
  source := ⟨"sqlserver",lsnBytesToHex h.snapshot.lsnStart++":"++cursor,now⟩
  ts := now
  schema := some t.schema
  table := t.table
  primaryKey := if t.primaryKeyColumns.isEmpty then none else some t.primaryKeyColumns
  snapshot := some ⟨h.snapshot.snapshotId,h.nextChunkIndex,false⟩
  transaction := none
  envelopeVersion := eventEnvelopeVersion
  beforeIsKeyOnly := false
  unavailableColumns := []
  beforeUnavailableColumns := []

def fetchKeysetRows (answer : Except Error (List (String × Json))) : Except Error (List (String × Json)) :=
  match h.tables[h.currentTable]? with
  | none => .ok []
  | some t =>
    if t.primaryKeyColumns.isEmpty then
      .error (.sourceError ("sqlserver snapshot requires a PRIMARY KEY for keyset pagination: "++
        t.schema++"."++t.table))
    else answer

def passCursor (cursor : String) (t : TableSnapshotState) : TableSnapshotState :=
  {t with snapshot := {t.snapshot with
    rowsProcessed := saturatingAdd t.snapshot.rowsProcessed 1
    cursorPosition := some cursor}}

/-- The rows of one query. -/
def readFetched (h : SqlServerSnapshotHandle) (now : UInt64) (index : ℕ) (t : TableSnapshotState) :
    List (String × Json) → SqlServerSnapshotHandle × List SnapshotRow
  | [] => (h,[])
  | (cursor,row)::fetched =>
    let event := h.rowEvent now t cursor row
    let read : SqlServerSnapshotHandle := {h with
        tables := h.tables.modify index (passCursor cursor)
        emittedRows := saturatingAdd h.emittedRows 1}
    let rest := read.readFetched now index t fetched
    (rest.1,⟨index,some cursor,event⟩::rest.2)

def completeTable : SqlServerSnapshotHandle := {h with
    tables := h.tables.modify h.currentTable fun t =>
      {t with snapshot := {t.snapshot with isComplete := true}}
    currentTable := h.currentTable+1}

/-- The current table has as many rows read as were counted. -/
def countReached : Bool :=
  match h.tables[h.currentTable]? with
  | some t => t.snapshot.totalRows ≤ t.snapshot.rowsProcessed
  | none => false

def asksServer : Bool :=
  match h.tables[h.currentTable]? with
  | some t => !t.snapshot.isComplete
  | none => false

/-- One pass of the chunk loop: a complete table is passed over. -/
def readPass (now : UInt64) (h : SqlServerSnapshotHandle) (_remaining : ℕ)
    (fetched : List (String × Json)) : SqlServerSnapshotHandle × List SnapshotRow :=
  match h.tables[h.currentTable]? with
  | none => (h,[])
  | some t =>
    if t.snapshot.isComplete then ({h with currentTable := h.currentTable+1},[])
    else
      match fetched with
      | [] => (h.completeTable,[])
      | fetched =>
        let read := h.readFetched now h.currentTable t fetched
        (if read.1.countReached then read.1.completeTable else read.1,read.2)

def reader (now : UInt64) : Scan.Reader SqlServerSnapshotHandle (String × Json) SnapshotRow where
  pending h := h.currentTable < h.tables.length
  asks := asksServer
  pass := readPass now
section
variable (chunkSize : ℕ) (answer : ChunkAnswer)

/-- The chunk the loop read, before its rows are handed out.  Each pass reads a row or ends a table,
so a fuel of the rows wanted and the tables is enough. -/
def chunk : SqlServerSnapshotHandle × List SnapshotRow × Option Error :=
  let requested := if chunkSize = 0 then 1000 else chunkSize
  (reader answer.now).read (fun query h => h.fetchKeysetRows (answer.fetch query)) requested
    (requested+h.tables.length) 0 h []

/-- The rows a call reads, also those it loses to a failed query. -/
def readRows : List SnapshotRow :=
  if h.isComplete then []
  else
    let read := h.chunk chunkSize answer
    if read.2.2.isNone && read.1.isComplete then markLast read.2.1 else read.2.1
end
/-- `u32::saturating_add` of one. -/
def nextIndex (index : UInt32) : UInt32 := if index = UInt32.ofNat (2^32-1) then index else index+1

def nextSqlserverSnapshotChunk (chunkSize : ℕ) (answer : ChunkAnswer) :
    SqlServerSnapshotHandle × Except Error (List Event) :=
  if h.isComplete then (h,.ok [])
  else
    match h.chunk chunkSize answer with
    | (read,_,some e) => (read,.error e)
    | (read,rows,none) =>
      let read := if rows.isEmpty then read else
        {read with nextChunkIndex := nextIndex read.nextChunkIndex}
      (read.syncSnapshotTables,.ok ((h.readRows chunkSize answer).map (·.event)))
section
variable (contents : ℕ → List TableRow)

/-- A table stands behind so many rows, and no more than those are counted; a complete one has none
left.  The count it is compared with is not below the number of rows. -/
structure TableStands (i : ℕ) (t : TableSnapshotState) (k : ℕ) : Prop where
  le : k ≤ (contents i).length
  cursor : t.snapshot.cursorPosition = cursorAt (contents i) k
  processed : t.snapshot.rowsProcessed.toNat ≤ k
  total : (contents i).length ≤ t.snapshot.totalRows.toNat
  complete : t.snapshot.isComplete = true → k = (contents i).length

def Stands (count : ℕ) (h : SqlServerSnapshotHandle) (done : ℕ → ℕ) : Prop :=
  Scan.Stands (TableStands contents) count h.tables done

/-- The server's side of a query: the rows behind the table's cursor. -/
def Right (h : SqlServerSnapshotHandle) (limit : ℕ) (fetched : List (String × Json)) : Prop :=
  ∀ t ∈ h.tables[h.currentTable]?, RowsBehind (contents h.currentTable) t.snapshot.cursorPosition limit fetched
  deriving Decidable

/-- The server's side of a call: every query that is answered is answered with the rows asked for. -/
def Served (h : SqlServerSnapshotHandle) (chunkSize : ℕ) (answer : ChunkAnswer) : Prop :=
  let requested := if chunkSize = 0 then 1000 else chunkSize
  (reader answer.now).Served (fun query h => h.fetchKeysetRows (answer.fetch query)) requested
    (Right contents) (requested+h.tables.length) 0 h []
  deriving Decidable

variable {contents} {co : ℕ} {h : SqlServerSnapshotHandle} {done : ℕ → ℕ}
  {a : ChunkAnswer} {fetched : List (String × Json)} {t : TableSnapshotState}
  {c : ℕ}

lemma TableStands.advance {i k : ℕ} {row : TableRow} (hr : (contents i)[k]? = some row)
    (h : TableStands contents i t k) :
    TableStands contents i (passCursor row.1 t) (k+1) := by
  have hl : k < (contents i).length := (List.getElem?_eq_some_iff.mp hr).1
  refine ⟨hl,(cursorAt_succ hr).symm,?_,h.total,fun hc => ?_⟩
  · have ha := saturatingAdd_toNat t.snapshot.rowsProcessed 1
    have ho : (1 : UInt64).toNat = 1 := rfl
    have hp := h.processed
    change (saturatingAdd t.snapshot.rowsProcessed 1).toNat ≤ k+1
    omega
  · exact absurd (h.complete hc) hl.ne
section
variable (hs : h.Stands contents co done)
include hs

lemma completeTable_stands (hr : ∀ t, h.tables[h.currentTable]? = some t →
      done h.currentTable = (contents h.currentTable).length) :
    h.completeTable.Stands contents co done :=
  Scan.Stands.keep hs fun t ht ha =>
    ⟨ha.le,ha.cursor,ha.processed,ha.total,fun _ => hr t ht⟩

lemma readFetched_stands {i : ℕ} (now : UInt64) (hr : fetched <+: (contents i).drop (done i)) :
    MovesOn (Stands contents co) contents done (h.readFetched now i t fetched) := by
  induction fetched generalizing h done with
  | nil => exact movesOn_nothing hs
  | cons row fetched ih =>
    obtain ⟨hn,hr⟩ := front_cons hr
    rw [readFetched]
    refine .cons (ih ?_ ?_) (valuesOf_next hn) rfl
    · exact Scan.Stands.modify hs fun _ _ ha => ha.advance hn
    · rwa [Function.update_self]

lemma countReached_read (hr : h.countReached = true) :
    done h.currentTable = (contents h.currentTable).length := by
  unfold countReached at hr
  cases ht : h.tables[h.currentTable]? with
  | none => simp [ht] at hr
  | some t =>
    rw [ht] at hr
    have hl := UInt64.le_iff_toNat_le.mp (of_decide_eq_true hr)
    have ha := hs.each h.currentTable t ht
    have := ha.le
    have := ha.processed
    have := ha.total
    omega

lemma readPass_stands (now : UInt64) {k : ℕ} (hre : 0 < k)
    (hr : if h.asksServer then h.Right contents k fetched else fetched = []) :
    MovesOn (Stands contents co) contents done (readPass now h k fetched) := by
  unfold readPass
  cases ht : h.tables[h.currentTable]? with
  | none => exact movesOn_nothing hs
  | some t =>
    dsimp only
    cases hc : t.snapshot.isComplete with
    | true => exact movesOn_nothing hs
    | false =>
      have hro : RowsBehind (contents h.currentTable) t.snapshot.cursorPosition k
          fetched := by
        rw [asksServer,ht] at hr
        dsimp only at hr
        rw [if_pos (by rw [hc]; rfl)] at hr
        exact hr t ht
      have ha := hs.each h.currentTable t ht
      cases fetched with
      | nil => exact movesOn_nothing (completeTable_stands hs fun _ _ => hro.nil ha.le ha.cursor hre)
      | cons row fetched =>
        obtain ⟨done',hs',hto⟩ := readFetched_stands hs now (hro.front ha.le ha.cursor)
        refine ⟨done',?_,hto⟩
        change Stands contents co (if _ then _ else _) _
        split_ifs with hrea
        · exact completeTable_stands hs' fun _ _ => countReached_read hs' hrea
        · exact hs'

lemma chunk_stands (hse : h.Served contents c a) :
    MovesOn (Stands contents co) contents done ((h.chunk c a).1,(h.chunk c a).2.1) := by
  unfold MovesOn
  refine Scan.Reader.read_keeps (Stands contents co) ?_ hs hse
  exact fun _ _ _ _ hi _ hr hri => readPass_stands hi a.now hr hri

/-- A call moves the tables on by the rows it reads, whether it returns them or fails. -/
theorem nextSqlserverSnapshotChunk_stands (hse : h.Served contents c a) :
    MovesOn (Stands contents co) contents done ((h.nextSqlserverSnapshotChunk c a).1,h.readRows c a) := by
  refine (chunk_stands hs hse).call (fun hc => ?_) (fun hc done' hs' => ?_)
  · rw [nextSqlserverSnapshotChunk,if_pos hc]
    exact hs
  · rw [nextSqlserverSnapshotChunk,if_neg (by simp [hc])]
    generalize h.chunk c a = r at hs'
    obtain ⟨r,rs,_ | e⟩ := r
    · dsimp only
      split <;> exact hs'
    · exact hs'
end
end
end SqlServerSnapshotHandle
end Rustcdc.Sqlserver
