import Rustcdc.Core.Event
import Rustcdc.Core.Position

/-! Decoded pgoutput messages and the events built from them. -/
namespace Rustcdc.Postgres
structure PgColumn where
  name : String
  flags : UInt8
  typeOid : UInt32
  typeModifier : Int32
  deriving DecidableEq

def PgColumn.isKey (c : PgColumn) : Bool := c.flags &&& 1 ≠ 0

inductive PgValue
  | null
  | unchanged
  | text (value : String)

structure PgRelation where
  oid : UInt32
  «namespace» : String
  name : String
  replicaIdentity : UInt8
  columns : List PgColumn
  deriving DecidableEq

structure PgBegin where
  finalLsn : UInt64
  commitTimestampUs : Int64
  xid : UInt32

structure PgCommit where
  commitLsn : UInt64
  endLsn : UInt64

structure PgUpdate where
  relationOid : UInt32
  keyTuple : Option (List PgValue)
  oldTuple : Option (List PgValue)
  newTuple : List PgValue

structure PgDelete where
  relationOid : UInt32
  keyTuple : Option (List PgValue)
  oldTuple : Option (List PgValue)

inductive PgOutputMessage
  | begin (message : PgBegin)
  | commit (message : PgCommit)
  | relation (message : PgRelation)
  | insert (relationOid : UInt32) (newTuple : List PgValue)
  | update (message : PgUpdate)
  | delete (message : PgDelete)
  | truncate (relationOids : List UInt32)
  | unknown (tag : UInt8)

/-- One WAL record: its position, the decoder's answer for its payload, and the clock when it
is processed. -/
structure PgOutputXLogData where
  lsn : UInt64
  data : Except Error PgOutputMessage
  now : UInt64

def pgTypeNames : List (UInt32 × String) :=
  [(16,"bool"),(17,"bytea"),(18,"char"),(19,"name"),(20,"int8"),(21,"int2"),(23,"int4"),
    (25,"text"),(26,"oid"),(700,"float4"),(701,"float8"),(790,"money"),(869,"inet"),(650,"cidr"),
    (829,"macaddr"),(774,"macaddr8"),(1000,"_bool"),(1001,"_bytea"),(1002,"_char"),
    (1005,"_int2"),(1007,"_int4"),(1009,"_text"),(1014,"_bpchar"),(1015,"_varchar"),
    (1016,"_int8"),(1017,"_point"),(1021,"_float4"),(1022,"_float8"),(1042,"bpchar"),
    (1043,"varchar"),(1082,"date"),(1083,"time"),(1114,"timestamp"),(1115,"_timestamp"),
    (1184,"timestamptz"),(1185,"_timestamptz"),(1186,"interval"),(1187,"_interval"),
    (1231,"_numeric"),(1266,"timetz"),(1560,"bit"),(1562,"varbit"),(1700,"numeric"),
    (2278,"void"),(2950,"uuid"),(2951,"_uuid"),(3802,"jsonb"),(3807,"_jsonb"),(114,"json"),
    (199,"_json"),(142,"xml"),(143,"_xml"),(3614,"tsvector"),(3615,"tsquery"),(600,"point"),
    (601,"lseg"),(602,"path"),(603,"box"),(604,"polygon"),(718,"circle")]

def pgTypeName (oid : UInt32) : String := (pgTypeNames.lookup oid).getD ("pg_type_oid:"++toString oid.toNat)

/-- Microseconds since 2000 as milliseconds since 1970, saturating, never negative. -/
def pgTimestampToMillis (pgUs : Int64) : UInt64 :=
  let unixUs := min (pgUs.toInt+946684800000000) (2^63-1)
  if unixUs < 0 then 0 else UInt64.ofNat (unixUs.toNat/1000)

/-- What the decoder knows about tables and the transaction it is in. -/
structure Decoder where
  sourceName : String
  relationMap : List (UInt32 × PgRelation)
  catalogPrimaryKeys : List ((String × String) × List String)
  currentXid : Option UInt32
  currentCommitTs : UInt64
  partialTxEvents : List Event

namespace Decoder
variable (d : Decoder) (oid : UInt32)

def relation : Option PgRelation := d.relationMap.lookup oid

def unknownRelation : Error := .sourceError ("postgres row event references relation oid "++toString oid.toNat++
    " for which no RELATION message has been seen. pgoutput guarantees RELATION precedes "++
    "any row referencing it, so the decoder state is inconsistent and the row "++
    "cannot be attributed to a table. Dropping it would lose data silently. "++
    "Restart the connector to rebuild the relation cache.")

def staleRelation (r : PgRelation) (values : ℕ) : Error :=
  .sourceError ("postgres tuple for relation '"++r.namespace++"."++r.name++"' (oid "++
    toString r.oid.toNat++") has "++toString values++" values but the "++
    "cached schema has only "++toString r.columns.length++" columns. The table's schema changed "++
    "and this connector's RELATION cache is stale. Emitting the row would "++
    "silently drop the extra columns. Restart the connector to re-read "++
    "the relation metadata.")

/-- Pair the values with the columns; a value without a column makes the tuple stale. -/
def tupleFields : List PgColumn → List PgValue → Option (List (String × Json) × List String)
  | _, [] => some ([],[])
  | [], _::_ => none
  | c::cs, v::vs =>
    (tupleFields cs vs).map fun rest =>
      match v with
      | .null => ((c.name,.null)::rest.1,rest.2)
      | .text s => ((c.name,.str s)::rest.1,rest.2)
      | .unchanged => (rest.1,c.name::rest.2)

/-- The row as an object, with the columns the source could not supply. -/
def tupleToJson (values : List PgValue) : Except Error (Json × List String) :=
  match d.relation oid with
  | none => .error (unknownRelation oid)
  | some r =>
    match tupleFields r.columns values with
    | none => .error (staleRelation r values.length)
    | some (fields,unavailable) =>
      -- later columns overwrite earlier ones of the same name, as in the source's map
      .ok (.obj (fields.foldl (fun map field => Json.insertField field.1 field.2 map) []), unavailable)

def relationTableName : String :=
  match d.relation oid with
  | some r => r.name
  | none => "unknown_"++toString oid.toNat

def relationSchema : Option String := (d.relation oid).map (·.namespace)

/-- The replica-identity code of `REPLICA IDENTITY FULL`. -/
def replicaIdentityFull : UInt8 := 102

def resolvePrimaryKey (r : PgRelation) : Option (List String) :=
  if r.replicaIdentity = replicaIdentityFull then
    (d.catalogPrimaryKeys.lookup (r.namespace,r.name)).bind fun key =>
      if key.isEmpty then none else some key
  else
    let keys := (r.columns.filter (·.isKey)).map (·.name)
    if keys.isEmpty then none else some keys

def relationPrimaryKey : Option (List String) := (d.relation oid).bind d.resolvePrimaryKey
def txMeta : Option TransactionMetadata := d.currentXid.map fun xid =>
    ⟨xid.toUInt64,none,UInt32.ofNat d.partialTxEvents.length⟩
def sourceMeta (lsn : UInt64) : SourceMetadata := ⟨d.sourceName,formatPgLsn lsn,d.currentCommitTs⟩

/-- What every row event of a relation has in common. -/
def rowEvent (lsn : UInt64) (op : Operation) : Event where
  before := none
  after := none
  op := op
  source := d.sourceMeta lsn
  ts := d.currentCommitTs
  schema := d.relationSchema oid
  table := d.relationTableName oid
  primaryKey := d.relationPrimaryKey oid
  snapshot := none
  transaction := d.txMeta
  envelopeVersion := eventEnvelopeVersion
  beforeIsKeyOnly := false
  unavailableColumns := []
  beforeUnavailableColumns := []

/-- The before-image: the full old tuple, else the key tuple, else none. -/
def beforeImage (old key : Option (List PgValue)) : Except Error (Option Json × Bool × List String) :=
  match old, key with
  | some tuple, _ => (d.tupleToJson oid tuple).map fun r => (some r.1,false,r.2)
  | none, some tuple => (d.tupleToJson oid tuple).map fun r => (some r.1,true,[])
  | none, none => .ok (none,false,[])

def buildInsertEvent (newTuple : List PgValue) (lsn : UInt64) : Except Error Event :=
  (d.tupleToJson oid newTuple).map fun r =>
    {d.rowEvent oid lsn .insert with after := some r.1, unavailableColumns := r.2}

/-- `sort_unstable` and `dedup`. -/
def sortedColumns (columns : List String) : List String :=
  (columns.mergeSort (fun a b => decide (a ≤ b))).destutter (· ≠ ·)

def buildUpdateEvent (update : PgUpdate) (lsn : UInt64) : Except Error Event :=
  match d.tupleToJson update.relationOid update.newTuple with
  | .error e => .error e
  | .ok after =>
    (d.beforeImage update.relationOid update.oldTuple update.keyTuple).map fun image =>
      {d.rowEvent update.relationOid lsn .update with
        before := image.1
        after := some after.1
        beforeIsKeyOnly := image.2.1
        unavailableColumns := after.2
        beforeUnavailableColumns := sortedColumns image.2.2}

def buildDeleteEvent (delete : PgDelete) (lsn : UInt64) : Except Error Event :=
  (d.beforeImage delete.relationOid delete.oldTuple delete.keyTuple).map fun image =>
    {d.rowEvent delete.relationOid lsn .delete with
      before := image.1
      beforeIsKeyOnly := image.2.1
      beforeUnavailableColumns := image.2.2}

/-- What every row event takes from its relation and its transaction. -/
structure OfRelation (d : Decoder) (oid : UInt32) (e : Event) : Prop where
  table : e.table = d.relationTableName oid
  primaryKey : e.primaryKey = d.relationPrimaryKey oid
  transaction : e.transaction = d.txMeta

variable {d : Decoder} {lsn : UInt64} {e : Event}

lemma buildInsertEvent_ofRelation {oid : UInt32} {newTuple : List PgValue}
    (h : d.buildInsertEvent oid newTuple lsn = .ok e) :
    d.OfRelation oid e := by
  obtain ⟨_,_,rfl⟩ := except_map_ok h
  exact ⟨rfl,rfl,rfl⟩

lemma buildUpdateEvent_ofRelation {u : PgUpdate} (h : d.buildUpdateEvent u lsn = .ok e) : d.OfRelation u.relationOid e := by
  rw [buildUpdateEvent] at h
  split at h
  · cases h
  · obtain ⟨_,_,rfl⟩ := except_map_ok h
    exact ⟨rfl,rfl,rfl⟩

lemma buildDeleteEvent_ofRelation {delete : PgDelete} (h : d.buildDeleteEvent delete lsn = .ok e) : d.OfRelation delete.relationOid e := by
  obtain ⟨_,_,rfl⟩ := except_map_ok h
  exact ⟨rfl,rfl,rfl⟩
def buildTruncateEvents (oids : List UInt32) (lsn : UInt64) : List Event :=
  oids.map fun oid => {d.rowEvent oid lsn .truncate with primaryKey := none}

/-- The zero a schema without a recorded version carries. -/
def zeroVersion : JsonNumber := ⟨['0'],by decide⟩

def columnJson (primaryKeys : List String) (c : PgColumn) : Json :=
  let isPrimaryKey := primaryKeys.contains c.name
  .obj [("constraints",.arr (if isPrimaryKey then [.str "primary_key"] else [])),
    ("data_type",.str (pgTypeName c.typeOid)),("name",.str c.name),
    ("nullable",.bool !isPrimaryKey)]

def relationToTableSchema (r : PgRelation) (primaryKeys : List String) : Json :=
  .obj [("columns",.arr (r.columns.map (columnJson primaryKeys))),
    ("primary_keys",.arr (primaryKeys.map .str)),("schema",.str r.namespace),
    ("table",.str r.name),("version",.num zeroVersion)]

def buildRelationSchemaChangeEvent (r : PgRelation) (lsn now : UInt64) : Event :=
  let tsMs := if d.currentCommitTs = 0 then now else d.currentCommitTs
  let captured : CapturedDdl :=
    {ddlType := "ALTER_TABLE"
     schema := r.namespace
     table := r.name
     statement := "ALTER TABLE "++r.namespace++"."++r.name++ " /* derived from pgoutput RELATION metadata */"
     resultSchema := some (relationToTableSchema r ((d.resolvePrimaryKey r).getD []))
     schemaDiff := none
     ts := tsMs}
  captured.toEvent d.sourceName (formatPgLsn lsn) tsMs
end Decoder
end Rustcdc.Postgres
