import Rustcdc.Source.Postgres.SnapshotProgress
import Rustcdc.Source.TableRows

/-! Where a PostgreSQL bulk snapshot stands in each of its tables: every row up to there was read. -/
namespace Rustcdc
open Postgres (SnapshotRow)
namespace Postgres.PostgresSnapshotHandle
variable (contents : ℕ → List TableRow)

def cursorText (key : List String) : String := String.ofList (Json.arr (key.map .str)).render

/-- A table stands behind so many rows: by its cursor if it is queried, else by its place in the rows
held in memory.  A complete one has none left. -/
structure TableStands (queried : Bool) (i : ℕ) (t : TableSnapshotState) (k : ℕ) : Prop where
  le : k ≤ (contents i).length
  cursor : (t.liveQuery && queried) = true → t.snapshot.cursorPosition = cursorAt (contents i) k
  stored : (t.liveQuery && queried) = false → t.nextRow = k ∧ t.rows = (contents i).map Prod.snd
  complete : t.snapshot.isComplete = true → k = (contents i).length

def Stands (count : ℕ) (h : PostgresSnapshotHandle) (done : ℕ → ℕ) : Prop :=
  Scan.Stands (TableStands contents h.client) count h.tables done

def asksServer (h : PostgresSnapshotHandle) : Bool :=
  match h.tables[h.currentTable]? with
  | some t => t.liveQuery && h.client
  | none => false

/-- One pass of the chunk loop. -/
def readPass (now : UInt64) (h : PostgresSnapshotHandle) (remaining : ℕ)
    (fetched : List (List String × Json)) : PostgresSnapshotHandle × List SnapshotRow :=
  match h.tables[h.currentTable]? with
  | none => (h,[])
  | some t =>
    if t.liveQuery && h.client then
      match fetched with
      | [] => (h.completeTable,[])
      | fetched => h.readFetched now h.currentTable t fetched
    else h.readTable now remaining

def reader (now : UInt64) : Scan.Reader PostgresSnapshotHandle (List String × Json) SnapshotRow where
  pending h := h.currentTable < h.tables.length
  asks := asksServer
  pass := readPass now

lemma readChunk_eq (answer : ChunkAnswer) (rq k query : ℕ) (h : PostgresSnapshotHandle)
    (read : List SnapshotRow) : readChunk answer rq k query h read =
      (reader answer.now).read (fun query _ => answer.fetch query) rq k query h read := by
  induction k generalizing query h read with
  | zero => rfl
  | succ k ih =>
    rw [readChunk,Scan.Reader.read]
    by_cases hr : rq ≤ read.length
    · rw [if_pos hr,if_pos (by simp [hr])]
    · rw [if_neg hr]
      cases ht : h.tables[h.currentTable]? with
      | none =>
        have hl : h.tables.length ≤ h.currentTable := List.getElem?_eq_none_iff.mp ht
        rw [if_pos (by simp [reader,hl])]
      | some t =>
        have hlt : h.currentTable < h.tables.length := (List.getElem?_eq_some_iff.mp ht).1
        have ha : (reader answer.now).asks h = (t.liveQuery && h.client) := by
          simp [reader,asksServer,ht]
        rw [if_neg (by simp [reader,hr,hlt]),ha]
        by_cases hq : (t.liveQuery && h.client) = true
        · have hp : ∀ fetched, (reader answer.now).pass h (rq-read.length) fetched =
              match fetched with
              | [] => (h.completeTable,[])
              | fetched => h.readFetched answer.now h.currentTable t fetched := fun fetched => by
            simp [reader,readPass,ht,hq]
          dsimp only
          rw [if_pos hq,if_pos hq]
          rcases answer.fetch query with _ | _ | ⟨row,fetched⟩
          · rfl
          · dsimp only
            rw [hp,List.append_nil]
            exact ih _ _ _
          · dsimp only
            rw [hp]
            exact ih _ _ _
        · have hp : (reader answer.now).pass h (rq-read.length) [] = h.readTable answer.now (rq-read.length) := by
            simp [reader,readPass,ht,hq]
          dsimp only
          rw [if_neg hq,if_neg hq,hp]
          exact ih _ _ _

/-- The server's side of a query: the rows behind the table's cursor. -/
def Right (h : PostgresSnapshotHandle) (limit : ℕ) (fetched : List (List String × Json)) : Prop :=
  ∀ t ∈ h.tables[h.currentTable]?, RowsBehind (contents h.currentTable) t.snapshot.cursorPosition
    limit (fetched.map fun row => (cursorText row.1,row.2))
  deriving Decidable

variable {contents} {c : ℕ}

variable {h : PostgresSnapshotHandle} {t : TableSnapshotState} {done : ℕ → ℕ}
  {q : Bool} {answer : ChunkAnswer} {f : List (List String × Json)}
  {chunkSize : ℕ}

lemma TableStands.advance {i k : ℕ} (hq : (t.liveQuery && q) = true) {row : TableRow}
    (hr : (contents i)[k]? = some row) (h : TableStands contents q i t k) :
    TableStands contents q i (passCursor row.1 t) (k+1) := by
  have hl : k < (contents i).length := (List.getElem?_eq_some_iff.mp hr).1
  refine ⟨hl,fun _ => (cursorAt_succ hr).symm,fun hn => ?_,fun hc => ?_⟩
  · cases hq.symm.trans hn
  · exact absurd (h.complete hc) hl.ne

lemma completeTable_stands (hs : h.Stands contents c done) (hr : ∀ t, h.tables[h.currentTable]? = some t →
      done h.currentTable = (contents h.currentTable).length) :
    h.completeTable.Stands contents c done :=
  Scan.Stands.keep hs fun t ht ha =>
    ⟨ha.le,ha.cursor,ha.stored,fun _ => hr t ht⟩

lemma TableStands.store {i k : ℕ} (hs : (t.liveQuery && q) = false) {row : Json}
    (hro : t.rows[t.nextRow]? = some row) (h : TableStands contents q i t k)
    (p : String) :
    TableStands contents q i (passStored p t) (k+1) ∧ (valuesOf contents i)[k]? = some row := by
  obtain ⟨hn,hr⟩ := h.stored hs
  have hv : (valuesOf contents i)[k]? = some row := by
    rw [valuesOf,← hr,← hn]
    exact hro
  have hl : k < (contents i).length := by
    have := (List.getElem?_eq_some_iff.mp hv).1
    rwa [valuesOf,List.length_map] at this
  refine ⟨⟨hl,fun hq => ?_,fun _ => ⟨by rw [← hn]; rfl,hr⟩,fun hc => ?_⟩,hv⟩
  · cases hs.symm.trans hq
  · exact absurd (h.complete hc) hl.ne
section
variable (hs : h.Stands contents c done)
include hs

lemma readFetched_stands {i : ℕ} {t' : TableSnapshotState} (ht : h.tables[i]? = some t')
    (hq : (t'.liveQuery && h.client) = true) (now : UInt64)
    (hr : (f.map fun row => (cursorText row.1,row.2)) <+: (contents i).drop (done i)) :
    MovesOn (Stands contents c) contents done (h.readFetched now i t f) := by
  induction f generalizing h t' done with
  | nil => exact movesOn_nothing hs
  | cons row f ih =>
    obtain ⟨hn,hr⟩ := front_cons hr
    rw [readFetched]
    refine .cons (ih ?_ (Scan.modify_at ht) hq ?_) (valuesOf_next hn) rfl
    · refine Scan.Stands.modify hs fun t ht' ha => ?_
      cases ht.symm.trans ht'
      exact ha.advance hq hn
    · rwa [Function.update_self]

/-- Rows held in memory are read from the place the table stands at. -/
theorem readStored_stands {i n : ℕ} (hn : h.currentTable = n) (ht : h.tables[i]? = some t)
    (hst : (t.liveQuery && h.client) = false) (now : UInt64) (k : ℕ) :
    MovesOn (fun h done => h.Stands contents c done ∧ h.currentTable = n ∧
      ∃ t, h.tables[i]? = some t ∧ (t.liveQuery && h.client) = false) contents done (h.readStored now i k) := by
  induction k generalizing h t done with
  | zero => exact movesOn_nothing ⟨hs,hn,t,ht,hst⟩
  | succ k ih =>
    rw [readStored,ht]
    dsimp only
    cases hr : t.rows[t.nextRow]? with
    | none => exact movesOn_nothing ⟨hs,hn,t,ht,hst⟩
    | some row =>
      obtain ⟨hm,hv⟩ := (hs.each i t ht).store hst hr (storedPosition i t.nextRow)
      have hvi : rowView (h.storedRow now i t row) = (i,row) := by
        unfold storedRow
        split <;> rfl
      refine .cons (ih ?_ hn (Scan.modify_at ht) hst) hv hvi
      refine Scan.Stands.modify hs fun t' ht' _ => ?_
      cases ht.symm.trans ht'
      exact hm

lemma readTable_stands (ht : h.tables[h.currentTable]? = some t) (hst : (t.liveQuery && h.client) = false)
    (now : UInt64) (k : ℕ) :
    MovesOn (Stands contents c) contents done (h.readTable now k) := by
  obtain ⟨done',⟨hs',hp,t',ht',hst'⟩,hto⟩ := readStored_stands hs rfl ht hst now k
  unfold readTable
  dsimp only
  rw [ht']
  refine ⟨done',?_,hto⟩
  dsimp only
  split_ifs with hu
  · refine completeTable_stands hs' fun t'' ht'' => ?_
    rw [hp] at ht'' ⊢
    obtain rfl := Option.some.inj (ht''.symm.trans ht')
    have ha := hs'.each h.currentTable t'' ht''
    obtain ⟨hn,hr⟩ := ha.stored hst'
    have hl := ha.le
    rw [hr,List.length_map,hn] at hu
    omega
  · exact hs'

lemma readPass_stands (now : UInt64) {k : ℕ} (hre : 0 < k)
    (hr : if h.asksServer then h.Right contents k f else f = []) :
    MovesOn (Stands contents c) contents done (readPass now h k f) := by
  unfold readPass
  cases ht : h.tables[h.currentTable]? with
  | none => exact movesOn_nothing hs
  | some t =>
    dsimp only
    cases ha : t.liveQuery && h.client with
    | false => exact readTable_stands hs ht ha now k
    | true =>
      have hro : RowsBehind (contents h.currentTable) t.snapshot.cursorPosition k
          (f.map fun row => (cursorText row.1,row.2)) := by
        rw [asksServer,ht] at hr
        dsimp only at hr
        rw [if_pos ha] at hr
        exact hr t ht
      have hat := hs.each h.currentTable t ht
      cases f with
      | nil => exact movesOn_nothing (completeTable_stands hs fun _ _ => hro.nil hat.le (hat.cursor ha) hre)
      | cons => exact readFetched_stands hs ht ha now (hro.front hat.le (hat.cursor ha))
end
variable (contents) in
/-- The server's side of a call: every query that is answered is answered with the rows asked for. -/
def Served (h : PostgresSnapshotHandle) (chunkSize : ℕ) (answer : ChunkAnswer) : Prop :=
  let requested := if chunkSize = 0 then defaultSnapshotChunkSize else chunkSize
  (reader answer.now).Served (fun query _ => answer.fetch query) requested (Right contents)
    (requested+h.tables.length) 0 h []
  deriving Decidable
section
variable (hs : h.Stands contents c done) (hse : h.Served contents chunkSize answer)
include hs hse

lemma chunk_stands :
    MovesOn (Stands contents c) contents done ((h.chunk chunkSize answer).1,(h.chunk chunkSize answer).2.1) := by
  unfold MovesOn chunk
  dsimp only
  rw [readChunk_eq]
  refine Scan.Reader.read_keeps (Stands contents c) ?_ hs hse
  exact fun _ _ _ _ hi _ hr hri => readPass_stands hi answer.now hr hri

/-- A call moves the tables on by the rows it reads, whether it returns them or fails. -/
theorem nextChunk_stands :
    MovesOn (Stands contents c) contents done ((h.nextChunk chunkSize answer).1,h.readRows chunkSize answer) := by
  refine (chunk_stands hs hse).call (fun hc => ?_) (fun hc done' hs' => ?_)
  · rw [nextChunk,if_pos hc]
    dsimp only
    split <;> exact hs
  · rw [nextChunk,if_neg (by simp [hc])]
    generalize h.chunk chunkSize answer = r at hs'
    obtain ⟨r,rs,_ | e⟩ := r
    · dsimp only
      split <;> split <;> exact hs'
    · exact hs'
end
end Postgres.PostgresSnapshotHandle
end Rustcdc
