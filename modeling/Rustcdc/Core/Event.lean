import Rustcdc.Core.Basic
import Rustcdc.Core.Json
import Rustcdc.Core.Text

/-! The canonical change event and the checks made on it. -/
namespace Rustcdc
inductive Operation
  | insert | update | delete | read | schemaChange | truncate
  deriving DecidableEq

def Operation.isSchemaChange (op : Operation) : Bool := op = .schemaChange

structure SourceMetadata where
  sourceName : String
  offset : String
  timestamp : UInt64
  deriving DecidableEq

structure SnapshotMetadata where
  snapshotId : String
  chunkIndex : UInt32
  isLastChunk : Bool
  deriving DecidableEq

structure TransactionMetadata where
  txId : UInt64
  totalEvents : Option UInt32
  eventIndex : UInt32
  deriving DecidableEq

structure Event where
  before : Option Json
  after : Option Json
  op : Operation
  source : SourceMetadata
  ts : UInt64
  schema : Option String
  table : String
  primaryKey : Option (List String)
  snapshot : Option SnapshotMetadata
  transaction : Option TransactionMetadata
  envelopeVersion : UInt16
  beforeIsKeyOnly : Bool
  unavailableColumns : List String
  beforeUnavailableColumns : List String
  deriving DecidableEq

def eventEnvelopeVersion : UInt16 := 1

structure ValidationError where
  field : String
  message : String

def ValidationError.display (e : ValidationError) : String := e.field++": "++e.message

namespace Event
variable (e : Event)

def qualifiedTableName : String :=
  match e.schema with
  | some schema => if schema.isEmpty then e.table else schema++"."++e.table
  | none => e.table

/-- One finding when the condition holds, none otherwise. -/
def finding (condition : Bool) (field message : String) : List ValidationError :=
  if condition then [⟨field,message⟩] else []

/-- The image constraints of each operation. -/
def imageErrors : List ValidationError :=
  match e.op with
  | .insert =>
    finding e.after.isNone "after" "insert events must include after"++
    finding e.before.isSome "before" "insert events must not include before"
  | .update =>
    finding e.after.isNone "after" "update events must include after"++
    finding e.before.isNone "before" "update events must include before"
  | .delete =>
    finding e.before.isNone "before" "delete events must include before"++
    finding e.after.isSome "after" "delete events must not include after"
  | .read => finding e.after.isNone "after" "read events must include after"
  | .schemaChange => finding e.after.isNone "after" "schema_change events must include after"
  | .truncate =>
    finding e.before.isSome "before" "truncate events must not include before"++
    finding e.after.isSome "after" "truncate events must not include after"

def transactionErrors : List ValidationError :=
  match e.transaction with
  | some ⟨_,some total,index⟩ =>
    finding (total = 0) "transaction.total_events" "total_events must be greater than zero when set"++
    finding (total ≤ index) "transaction.event_index" "event_index must be lower than total_events"
  | _ => []

/-- A column both listed as unavailable and present in the row. -/
def contradicts (columns : List String) (row : Option Json) : Bool :=
  match row.bind Json.asObject with
  | none => false
  | some object => columns.any (Json.containsKey object)

def validate : List ValidationError := finding (blank e.table) "table" "table name must not be empty"++
  finding (e.ts = 0) "ts" "timestamp must be non-zero"++
  finding (e.envelopeVersion ≠ eventEnvelopeVersion) "envelope_version"
    ("expected envelope version 1, got "++toString e.envelopeVersion.toNat)++
  finding (blank e.source.sourceName) "source.source_name" "source_name must not be empty"++
  e.imageErrors++
  e.transactionErrors++
  finding (e.beforeIsKeyOnly && e.op ≠ .update && e.op ≠ .delete) "before_is_key_only"
    "before_is_key_only can only be true for UPDATE or DELETE events"++
  finding (e.beforeIsKeyOnly && e.before.isNone) "before_is_key_only"
    ("before_is_key_only is true but before is None; "++
      "key-only before-images must carry at least the primary-key columns in before")++
  finding (contradicts e.unavailableColumns e.after) "unavailable_columns"
    ("a column listed in unavailable_columns must be absent from after; "++
      "emitting it with a placeholder value defeats the purpose of the list")++
  finding (contradicts e.beforeUnavailableColumns e.before) "before_unavailable_columns"
    ("a column listed in before_unavailable_columns must be absent from before; "++
      "emitting it with a placeholder value defeats the purpose of the list")++
  finding (e.beforeIsKeyOnly && !e.beforeUnavailableColumns.isEmpty) "before_unavailable_columns"
    ("before_unavailable_columns must be empty when before_is_key_only is true; "++
      "a key-only before-image omits non-key columns by design, not by TOAST")++
  finding ((e.op = .truncate || e.op = .schemaChange) &&
      !(e.unavailableColumns.isEmpty && e.beforeUnavailableColumns.isEmpty)) "unavailable_columns"
    ("unavailable_columns must be empty for TRUNCATE and SCHEMA_CHANGE events, "++ "which carry no row payload")

def validateOrError : Except Error Unit :=
  match e.validate with
  | [] => .ok ()
  | errors => .error (.validationError (errors.map ValidationError.display))

/-- Every declared key column is present in the row image the operation carries. -/
def hasResolvableKey : Bool :=
  match e.primaryKey with
  | none => false
  | some [] => false
  | some keys =>
    let row := match e.op with
      | .delete => e.before
      | _ => e.after.or e.before
    match row.bind Json.asObject with
    | none => false
    | some object => keys.all (Json.containsKey object)

def payloadLen : Option Json → ℕ
  | none => 0
  | some .null => 4
  | some (.bool _) => 5
  | some (.num n) => n.text.length
  | some (.str s) => s.utf8ByteSize+2
  | some value => value.renderLen

/-- The size the byte budget of a batch charges for an event. -/
def estimateEventBytes : ℕ := payloadLen e.before+payloadLen e.after+e.table.utf8ByteSize+
    (e.schema.map (·.utf8ByteSize)).getD 0+e.source.sourceName.utf8ByteSize+
    e.source.offset.utf8ByteSize+((e.primaryKey.getD []).map (·.utf8ByteSize)).sum+128
end Event
/-- A captured statement, its schemas as the JSON they serialize to. -/
structure CapturedDdl where
  ddlType : String
  schema : String
  table : String
  statement : String
  resultSchema : Option Json
  schemaDiff : Option Json
  ts : UInt64

namespace CapturedDdl
/-- The payload with one more field when there is a value for it. -/
def withField (key : String) (value : Option Json) (fields : List (String × Json)) : List (String × Json) :=
  match value with
  | none => fields
  | some value => Json.insertField key value fields

def toEvent (ddl : CapturedDdl) (sourceName offset : String) (tsMs : UInt64) : Event where
  before := none
  after := some (.obj (withField "schema_diff" ddl.schemaDiff (withField "result_schema" ddl.resultSchema
      [("ddl_type",.str ddl.ddlType),("schema",.str ddl.schema),
        ("statement",.str ddl.statement),("table",.str ddl.table)])))
  op := .schemaChange
  source := ⟨sourceName,offset,ddl.ts⟩
  ts := tsMs
  schema := some ddl.schema
  table := ddl.table++"__ddl_events"
  primaryKey := none
  snapshot := none
  transaction := none
  envelopeVersion := eventEnvelopeVersion
  beforeIsKeyOnly := false
  unavailableColumns := []
  beforeUnavailableColumns := []
end CapturedDdl
end Rustcdc
