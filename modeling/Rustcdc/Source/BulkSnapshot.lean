import Rustcdc.Source.Mysql.Snapshot
import Rustcdc.Source.Postgres.SnapshotRows
import Rustcdc.Source.Sqlserver.Snapshot

/-! What the calls of a bulk snapshot return.  A call walks the tables and moves their cursors before
the next query, so one that fails later drops the rows it has read. -/
namespace Rustcdc
open List Machine
open Postgres (SnapshotRow)

/-- What was returned of each table is the part of it in front of the place where the snapshot
stands. -/
def ReadUpTo (contents : ℕ → List TableRow) (Stands : (ℕ → ℕ) → Prop) (returned : List SnapshotRow) : Prop :=
  ∃ done, Stands done ∧ ∀ i, Scan.of i (returned.map rowView) = (valuesOf contents i).take (done i)

/-- Every row of each of the tables was returned. -/
def AllReturned (contents : ℕ → List TableRow) (count : ℕ) (returned : List SnapshotRow) : Prop :=
  ∀ i < count, Scan.of i (returned.map rowView) = valuesOf contents i

lemma ReadUpTo.all {contents : ℕ → List TableRow} {T : Type} {P : ℕ → T → ℕ → Prop} {n : ℕ} {ts : List T}
    {complete : T → Bool} {returned : List SnapshotRow} (hre : ReadUpTo contents (Scan.Stands P n ts) returned)
    (hc : ts.all complete = true) (hP : ∀ i t k, P i t k → complete t = true → k = (contents i).length) :
    AllReturned contents n returned := by
  obtain ⟨d,hs,hr⟩ := hre
  intro i hi
  rw [hr i,hs.all (all_eq_true.mp hc) hP hi,valuesOf,← length_map Prod.snd,take_length]

namespace Postgres.PostgresSnapshotHandle
/-- The calls of a snapshot and the rows they return. -/
def traceStep : Scan.Trace PostgresSnapshotHandle SnapshotRow → ℕ × ChunkAnswer →
    Scan.Trace PostgresSnapshotHandle SnapshotRow :=
  Scan.Trace.step (fun h c => h.nextChunk c.1 c.2) fun h c => h.readRows c.1 c.2

/-- The server answers as asked, and no call fails that has read rows. -/
def Sound (contents : ℕ → List TableRow) (t : Scan.Trace PostgresSnapshotHandle SnapshotRow)
    (c : ℕ × ChunkAnswer) : Prop :=
  t.handle.Served contents c.1 c.2 ∧ ((t.handle.nextChunk c.1 c.2).2.isOk = false → t.handle.readRows c.1 c.2 = [])
  deriving Decidable

variable {cs : ℕ → List TableRow} {c : ℕ} {h : PostgresSnapshotHandle}

lemma stands_of_fresh (hco : h.tables.length = c)
    (hf : ∀ (i : ℕ) t, h.tables[i]? = some t → (t.liveQuery && h.client) = true ∧
      t.snapshot.cursorPosition = none ∧ (t.snapshot.isComplete = true → cs i = [])) :
    h.Stands cs c fun _ => 0 := by
  refine ⟨hco,fun i t ht => ?_⟩
  obtain ⟨hl,hcu,he⟩ := hf i t ht
  refine ⟨Nat.zero_le _,fun _ => hcu,fun hn => ?_,fun hc => ?_⟩
  · cases hl.symm.trans hn
  · rw [he hc,length_nil]
end Postgres.PostgresSnapshotHandle
namespace Mysql.MysqlSnapshotHandle
/-- The calls of a snapshot and the rows they return. -/
def traceStep : Scan.Trace MysqlSnapshotHandle SnapshotRow → ℕ × ChunkAnswer →
    Scan.Trace MysqlSnapshotHandle SnapshotRow :=
  Scan.Trace.step (fun h c => h.nextSnapshotChunk c.1 c.2) fun h c => h.readRows c.1 c.2

/-- The server answers as asked, and no call fails that has read rows. -/
def Sound (contents : ℕ → List TableRow) (t : Scan.Trace MysqlSnapshotHandle SnapshotRow)
    (c : ℕ × ChunkAnswer) : Prop :=
  t.handle.Served contents c.1 c.2 ∧
    ((t.handle.nextSnapshotChunk c.1 c.2).2.isOk = false → t.handle.readRows c.1 c.2 = [])
  deriving Decidable

variable {cs : ℕ → List TableRow} {c : ℕ} {h : MysqlSnapshotHandle}

lemma stands_of_fresh (hco : h.tables.length = c) (hf : ∀ (i : ℕ) t, h.tables[i]? = some t → t.liveQuery = true ∧
      t.snapshot.cursorPosition = none ∧ (t.snapshot.isComplete = true → cs i = [])) :
    h.Stands cs c fun _ => 0 := by
  refine ⟨hco,fun i t ht => ?_⟩
  obtain ⟨hl,hcu,he⟩ := hf i t ht
  refine ⟨Nat.zero_le _,fun _ => hcu,fun hn => ?_,fun hc => ?_⟩
  · cases hl.symm.trans hn
  · rw [he hc,length_nil]
end Mysql.MysqlSnapshotHandle
namespace Sqlserver.SqlServerSnapshotHandle
/-- The calls of a snapshot and the rows they return. -/
def traceStep : Scan.Trace SqlServerSnapshotHandle SnapshotRow → ℕ × ChunkAnswer →
    Scan.Trace SqlServerSnapshotHandle SnapshotRow :=
  Scan.Trace.step (fun h c => h.nextSqlserverSnapshotChunk c.1 c.2) fun h c => h.readRows c.1 c.2

/-- The server answers as asked, and no call fails that has read rows. -/
def Sound (contents : ℕ → List TableRow) (t : Scan.Trace SqlServerSnapshotHandle SnapshotRow)
    (c : ℕ × ChunkAnswer) : Prop :=
  t.handle.Served contents c.1 c.2 ∧
    ((t.handle.nextSqlserverSnapshotChunk c.1 c.2).2.isOk = false → t.handle.readRows c.1 c.2 = [])
  deriving Decidable

variable {cs : ℕ → List TableRow} {c : ℕ} {h : SqlServerSnapshotHandle}

lemma stands_of_fresh (hco : h.tables.length = c)
    (hf : ∀ (i : ℕ) t, h.tables[i]? = some t → t.snapshot.cursorPosition = none ∧
      t.snapshot.rowsProcessed = 0 ∧ (cs i).length ≤ t.snapshot.totalRows.toNat ∧
      (t.snapshot.isComplete = true → t.snapshot.totalRows = 0)) :
    h.Stands cs c fun _ => 0 := by
  refine ⟨hco,fun i t ht => ?_⟩
  obtain ⟨hcu,hp,hto,he⟩ := hf i t ht
  refine ⟨Nat.zero_le _,hcu,by rw [hp]; exact le_rfl,hto,fun hc => ?_⟩
  rw [he hc] at hto
  exact (Nat.le_zero.mp hto).symm
end Sqlserver.SqlServerSnapshotHandle
section
open Postgres (PostgresSnapshotHandle)
open Mysql (MysqlSnapshotHandle)
open Sqlserver (SqlServerSnapshotHandle)

/-- For each handle: if the row counts taken at the start are not too small and every call that fails
fails at its first query, what the calls return of a table is what stands in front of its cursor, and
when the snapshot is complete every row of every table was returned. -/
theorem bulk_rows_returned (contents : ℕ → List TableRow) (count : ℕ) :
    (∀ (h : PostgresSnapshotHandle) (calls : List (ℕ × Postgres.ChunkAnswer)), h.Stands contents count (fun _ => 0) →
      Meets PostgresSnapshotHandle.traceStep (PostgresSnapshotHandle.Sound contents) ⟨h,[]⟩ calls →
      let reached := run PostgresSnapshotHandle.traceStep ⟨h,[]⟩ calls
      ReadUpTo contents (reached.handle.Stands contents count) reached.delivered ∧
        (reached.handle.isComplete = true → AllReturned contents count reached.delivered)) ∧
    (∀ (h : MysqlSnapshotHandle) (calls : List (ℕ × Mysql.ChunkAnswer)), h.Stands contents count (fun _ => 0) →
      Meets MysqlSnapshotHandle.traceStep (MysqlSnapshotHandle.Sound contents) ⟨h,[]⟩ calls →
      let reached := run MysqlSnapshotHandle.traceStep ⟨h,[]⟩ calls
      ReadUpTo contents (reached.handle.Stands contents count) reached.delivered ∧
        (reached.handle.isComplete = true → AllReturned contents count reached.delivered)) ∧
    ∀ (h : SqlServerSnapshotHandle) (calls : List (ℕ × Sqlserver.ChunkAnswer)), h.Stands contents count (fun _ => 0) →
      Meets SqlServerSnapshotHandle.traceStep (SqlServerSnapshotHandle.Sound contents) ⟨h,[]⟩ calls →
      let reached := run SqlServerSnapshotHandle.traceStep ⟨h,[]⟩ calls
      ReadUpTo contents (reached.handle.Stands contents count) reached.delivered ∧
        (reached.handle.isComplete = true → AllReturned contents count reached.delivered) := by
  refine ⟨fun h calls hs hso => ?_,fun h calls hs hso => ?_, fun h calls hs hso => ?_⟩
  · have hr := Scan.run_delivered rowView (PostgresSnapshotHandle.Stands contents count)
      (fun _ _ _ hs hse => PostgresSnapshotHandle.nextChunk_stands hs hse) hs hso
    exact ⟨hr,fun hc => ReadUpTo.all hr hc fun _ _ _ ha hd => ha.complete hd⟩
  · have hr := Scan.run_delivered rowView (MysqlSnapshotHandle.Stands contents count)
      (fun _ _ _ hs hse => MysqlSnapshotHandle.nextSnapshotChunk_stands hs hse) hs hso
    exact ⟨hr,fun hc => ReadUpTo.all hr hc fun _ _ _ ha hd => ha.complete hd⟩
  · have hr := Scan.run_delivered rowView (SqlServerSnapshotHandle.Stands contents count)
      (fun _ _ _ hs hse => SqlServerSnapshotHandle.nextSqlserverSnapshotChunk_stands hs hse) hs hso
    exact ⟨hr,fun hc => ReadUpTo.all hr hc fun _ _ _ ha hd => ha.complete hd⟩

def twoTables (i : ℕ) : List TableRow :=
  if i = 0 then [("[\"1\"]",.str "a")] else if i = 1 then [("[\"2\"]",.str "b")] else []
def counted (table : String) (total : UInt64) : TableSnapshot := ⟨table,total,0,none,false⟩
def postgresTables : PostgresSnapshotHandle :=
  .new "postgres" ⟨[counted "users" 1,counted "orders" 1],"snapshot-1",1,0⟩
    [⟨counted "users" 1,[],0,true,["id"]⟩,⟨counted "orders" 1,[],0,true,["id"]⟩] true true 100
def mysqlTables : MysqlSnapshotHandle :=
  .new "mysql" ⟨[counted "users" 1,counted "orders" 1],"snapshot-1",1,"bin.1",4,""⟩
    [⟨counted "users" 1,["id"],[],0,true⟩,⟨counted "orders" 1,["id"],[],0,true⟩] true true

def sqlserverTables (total : UInt64) : SqlServerSnapshotHandle where
  snapshot := ⟨[counted "users" total,counted "orders" 1],"snapshot-1",1,100⟩
  tables := [⟨counted "users" total,"dbo","users",["id"]⟩,⟨counted "orders" 1,"dbo","orders",["id"]⟩]
  currentTable := 0
  nextChunkIndex := 0
  emittedRows := 0

def unreachable : Error := .sourceError "connection reset"

/-- Queries that are answered in turn, and the one after them that fails. -/
def answered {ρ : Type} (queries : List (List ρ)) (query : ℕ) : Except Error (List ρ) :=
  match queries[query]? with
  | some rows => .ok rows
  | none => .error unreachable

lemma postgresTables_stands : postgresTables.Stands twoTables 2 fun _ => 0 :=
  PostgresSnapshotHandle.stands_of_fresh rfl fun i t ht => by
    have hm := mem_of_getElem? ht
    simp only [postgresTables,PostgresSnapshotHandle.new,mem_cons,not_mem_nil,or_false] at hm
    rcases hm with rfl | rfl <;> simp [postgresTables,PostgresSnapshotHandle.new,counted]

lemma mysqlTables_stands : mysqlTables.Stands twoTables 2 fun _ => 0 :=
  MysqlSnapshotHandle.stands_of_fresh rfl fun i t ht => by
    have hm := mem_of_getElem? ht
    simp only [mysqlTables,MysqlSnapshotHandle.new,mem_cons,not_mem_nil,or_false] at hm
    rcases hm with rfl | rfl <;> simp [counted]

lemma sqlserverTables_stands : (sqlserverTables 1).Stands twoTables 2 fun _ => 0 :=
  SqlServerSnapshotHandle.stands_of_fresh rfl fun i t ht => by
    have ho : (twoTables i).length ≤ 1 := by
      unfold twoTables
      split
      · exact le_rfl
      · split <;> simp
    have hm := mem_of_getElem? ht
    simp only [sqlserverTables,mem_cons,not_mem_nil,or_false] at hm
    rcases hm with rfl | rfl <;> simp [counted,ho]

/-- A call that fails at its first query, and then the rows. -/
def postgresCalls : List (ℕ × Postgres.ChunkAnswer) :=
  [(2,⟨1,answered []⟩),(2,⟨1,answered [[(["1"],.str "a")],[],[(["2"],.str "b")]]⟩),(2,⟨1,answered [[]]⟩)]

def mysqlCalls : List (ℕ × Mysql.ChunkAnswer) := [(2,⟨1,answered []⟩),
    (2,⟨1,answered [[(.arr [.str "1"],.str "a")],[],[(.arr [.str "2"],.str "b")]]⟩),
    (2,⟨1,answered [[]]⟩)]
def sqlserverCalls : List (ℕ × Sqlserver.ChunkAnswer) :=
  [(2,⟨1,answered []⟩),(2,⟨1,answered [[("[\"1\"]",.str "a")],[("[\"2\"]",.str "b")]]⟩)]

theorem bulk_rows_returned_sample : AllReturned twoTables 2
        (run PostgresSnapshotHandle.traceStep ⟨postgresTables,[]⟩ postgresCalls).delivered ∧
      AllReturned twoTables 2 (run MysqlSnapshotHandle.traceStep ⟨mysqlTables,[]⟩ mysqlCalls).delivered ∧
      AllReturned twoTables 2 (run SqlServerSnapshotHandle.traceStep ⟨sqlserverTables 1,[]⟩
          sqlserverCalls).delivered := by
  obtain ⟨hp,hm,hs⟩ := bulk_rows_returned twoTables 2
  exact ⟨(hp postgresTables postgresCalls postgresTables_stands (by decide +kernel)).2 (by decide +kernel),
    (hm mysqlTables mysqlCalls mysqlTables_stands (by decide +kernel)).2 (by decide +kernel),
    (hs (sqlserverTables 1) sqlserverCalls sqlserverTables_stands (by decide +kernel)).2 (by decide +kernel)⟩

/-- The first call reads the first table to its end and fails at the second. -/
def failingCalls : List (ℕ × Postgres.ChunkAnswer) :=
  [(2,⟨1,answered [[(["1"],.str "a")],[]]⟩),(2,⟨1,answered [[(["2"],.str "b")],[]]⟩)]

/-- Two rows where one was counted. -/
def grownTable (i : ℕ) : List TableRow :=
  if i = 0 then [("[\"1\"]",.str "a"),("[\"2\"]",.str "b")] else []

def grownCalls : List (ℕ × Sqlserver.ChunkAnswer) := [(1,⟨1,answered [[("[\"1\"]",.str "a")]]⟩),(1,⟨1,answered [[]]⟩)]

/-- The snapshot is complete and the row of the first table was never returned.  Also a SQL Server
snapshot is complete when as many rows were read as were counted, with rows left. -/
theorem failed_call_drops_row : postgresTables.Stands twoTables 2 (fun _ => 0) ∧
      Meets PostgresSnapshotHandle.traceStep
        (fun t c => t.handle.Served twoTables c.1 c.2) ⟨postgresTables,[]⟩ failingCalls ∧
      (run PostgresSnapshotHandle.traceStep ⟨postgresTables,[]⟩ failingCalls).handle.isComplete = true ∧
      (run PostgresSnapshotHandle.traceStep ⟨postgresTables,[]⟩ failingCalls).delivered.map rowView = [(1,.str "b")] ∧
      Meets SqlServerSnapshotHandle.traceStep (SqlServerSnapshotHandle.Sound grownTable)
        ⟨sqlserverTables 1,[]⟩ grownCalls ∧
      (run SqlServerSnapshotHandle.traceStep ⟨sqlserverTables 1,[]⟩ grownCalls).handle.isComplete = true ∧
      (run SqlServerSnapshotHandle.traceStep ⟨sqlserverTables 1,[]⟩
        grownCalls).delivered.map rowView = [(0,.str "a")] :=
  ⟨postgresTables_stands,by decide +kernel,by decide +kernel,by decide +kernel,by decide +kernel,
    by decide +kernel,by decide +kernel⟩
end
end Rustcdc
