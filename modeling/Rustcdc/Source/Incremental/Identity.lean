import Rustcdc.Core.Replica
import Rustcdc.Source.Incremental.Chunk
import Rustcdc.Source.Mysql.Row
import Rustcdc.Source.Postgres.Message

/-! The identity of a row on its two ways into the driver: read with a chunk, or decoded from the
log.  A chunk takes the key columns in the order the catalog declares them; the decoders take them
from the relation or from the row. -/
namespace Rustcdc.Incremental
section
variable {pks : List String} {t : String}

lemma pkFingerprint_injective {values values' : List Json}
    (h : pkFingerprint t values = pkFingerprint t values') : values = values' := by
  have hc := congrArg String.toList h
  simp only [pkFingerprint,String.toList_append,List.append_assoc,List.append_cancel_left_eq,
    String.toList_ofList] at hc
  exact Json.arr.inj (Json.render_injective hc)

lemma fingerprintFromPayload_inj {keys pks : List String} {p q : Json} :
    fingerprintFromPayload t keys p = fingerprintFromPayload t pks q ↔ keyValues keys p.get = keyValues pks q.get :=
  ⟨pkFingerprint_injective,congrArg (pkFingerprint t)⟩

/-- An event is identified with a chunk row exactly if both show the same key values, each in the order
in which its side takes the columns. -/
theorem eventFingerprint_eq_iff {e : Event} {im : Json} {sp : SnapshotTable} {row : ChunkRow} (ht : e.table = sp.name)
    (hk : e.primaryKey = some pks) (hn : pks ≠ []) (hi : e.after.or e.before = some im) :
    eventFingerprint e = some (sp.fingerprint row) ↔ keyValues pks im.get = keyValues sp.pkColumns row.row.get := by
  have he : pks.isEmpty = false := by simpa using hn
  have hf : eventFingerprint e = some (fingerprintFromPayload sp.name pks im) := by
    rw [eventFingerprint,hk]
    simp [he,hi,ht]
  rw [hf,Option.some_inj]
  exact fingerprintFromPayload_inj
end
section
inductive RowEvent (d : Postgres.Decoder) (oid : UInt32) (e : Event) : Prop
  | insert (tuple : List Postgres.PgValue) (lsn : UInt64) (built : d.buildInsertEvent oid tuple lsn = .ok e)
  | update (update : Postgres.PgUpdate) (lsn : UInt64) (relation : update.relationOid = oid)
      (built : d.buildUpdateEvent update lsn = .ok e)
  | delete (delete : Postgres.PgDelete) (lsn : UInt64) (relation : delete.relationOid = oid)
      (built : d.buildDeleteEvent delete lsn = .ok e)

variable {d : Postgres.Decoder}
variable {oid : UInt32} {e : Event}

lemma RowEvent.ofRelation (h : RowEvent d oid e) : d.OfRelation oid e := by
  cases h with
  | insert tuple lsn built => exact Postgres.Decoder.buildInsertEvent_ofRelation built
  | update update lsn relation built =>
    exact relation ▸ Postgres.Decoder.buildUpdateEvent_ofRelation built
  | delete delete lsn relation built =>
    exact relation ▸ Postgres.Decoder.buildDeleteEvent_ofRelation built
end
section
open Mysql

def valueIn (row : MysqlRow) (column : String) : Option MysqlValue := (cellNamed column row).bind (·.2)

lemma chunk_value (row : MysqlRow) (c : String) : ((chunkRowToJson row).get c).getD .null =
      ((valueIn row c).map mysqlValueToJson).getD .null := by
  rw [get_chunkRowToJson,valueIn]
  cases cellNamed c row with
  | none | some => rfl

variable {l : EnumSetLabels} {row : MysqlRow} {s : SnapshotTable} {co : String}

lemma log_value (hp : ∀ c ∈ cellNamed co row, Plain c.1 c.2) :
    ((mysqlRowToJsonWithLabels row l).get co).getD .null = ((valueIn row co).map mysqlValueToJson).getD .null := by
  rw [get_mysqlRowToJsonWithLabels fun c hc =>
    ⟨(hp c hc).1,(hp c hc).2.1⟩,valueIn]
  cases hc : cellNamed co row with
  | none => rfl
  | some c => exact columnJson_plain (hp c hc)

lemma mysql_keyValues {r logged : MysqlRow} (hv : ∀ co ∈ s.pkColumns, valueIn r co = valueIn logged co)
    (hp : ∀ co ∈ s.pkColumns, ∀ ce ∈ cellNamed co logged, Plain ce.1 ce.2) :
    keyValues s.pkColumns (mysqlRowToJsonWithLabels logged l).get = keyValues s.pkColumns (chunkRowToJson r).get := by
  refine List.map_congr_left fun co hc => ?_
  rw [log_value (hp co hc),chunk_value,hv co hc]

lemma logged_image {b a : Option MysqlRow} {logged : MysqlRow} (hl : a.or b = some logged) :
    (a.map (mysqlRowToJsonWithLabels · l)).or (b.map (mysqlRowToJsonWithLabels · l)) =
      some (mysqlRowToJsonWithLabels logged l) := by
  rw [← Option.map_or,hl]
  rfl

lemma mysql_distinct {row' : MysqlRow} {v v' : MysqlValue} (c c' : List Json)
    (hc : co ∈ s.pkColumns) (hv : valueIn row co = some v)
    (hv' : valueIn row' co = some v') (ha : Alike v v')
    (hn : v ≠ v') :
    s.fingerprint ⟨c,chunkRowToJson row⟩ ≠ s.fingerprint ⟨c',chunkRowToJson row'⟩ := by
  intro hf
  have he := List.map_inj_left.mp (fingerprintFromPayload_inj.mp hf) co hc
  refine hn (widest_injective ha ?_)
  rw [chunk_value,chunk_value,hv,hv'] at he
  simpa [mysqlValueToJson_eq] using he
end
/-- A table whose key is declared over the given columns. -/
def keyedBy (pkColumns : List String) : SnapshotTable := ⟨"shop","order_lines","shop.order_lines",pkColumns,none⟩

/-- The relation as the replication stream describes it, with both key columns flagged. -/
def orderLines : Postgres.PgRelation :=
  ⟨16384,"shop","order_lines",100,[⟨"order_id",1,23,-1⟩,⟨"line",1,23,-1⟩,⟨"note",0,25,-1⟩]⟩
def orderLinesDecoder : Postgres.Decoder := ⟨"shop",[(16384,orderLines)],[],some 7,1000,[]⟩

/-- The log's event for a new row of the table. -/
def lineInserted : Event := {orderLinesDecoder.rowEvent 16384 4096 .insert with
    after := some (.obj [("line",.str "3"),("note",.str "gift"),("order_id",.str "41")])}

def lineRead : ChunkRow := ⟨[.str "41",.str "3"],.obj [("line",.str "3"),("note",.null),("order_id",.str "41")]⟩
section
open Mysql

def keyRow (columnType : ColumnType) (characterSet : UInt16) (value : MysqlValue) : MysqlRow :=
  [(⟨"id",columnType,characterSet,true⟩,some value)]

/-- A row of a table keyed by two columns. -/
def pairRow : MysqlRow := [(⟨"order_id",.other,63,true⟩,some (.int 41)),(⟨"line",.other,63,true⟩,some (.int 3))]
def binlog : MysqlStreamHandle := .new "shop" "binlog.000001" 4 "" fun _ _ => true

/-- The log's event for a new row, and its row in a chunk. -/
def logged (row : MysqlRow) : Event :=
  binlog.buildEvent .insert (decodeRowChange "shop" "order_lines" ⟨[],[]⟩ none (some row))

def chunkRow (row : MysqlRow) : ChunkRow := ⟨[],chunkRowToJson row⟩

/-- The bytes 0xDEADBEEF, and the bytes of the text `deadbeef`. -/
def binaryKey : MysqlValue := .bytes [0xde,0xad,0xbe,0xef]
def textKey : MysqlValue := .bytes [0x64,0x65,0x61,0x64,0x62,0x65,0x65,0x66]
def dateRow : MysqlRow := keyRow .newDate 63 (.date 2026 7 20 0 0 0 0)
def textRow : MysqlRow := keyRow .character 63 textKey

end
end Rustcdc.Incremental
