import Rustcdc.Core.Event
import Rustcdc.Lib.Run

/-! The schema history of the tables.  A DDL is known by the source position it was captured at: one with
an id that an entry of its table has is taken for a replay and gets that entry's version. -/
namespace Rustcdc
structure ColumnDef where
  name : String
  dataType : String
  nullable : Bool
  constraints : List String
  deriving DecidableEq

structure TableSchema where
  schema : String
  table : String
  columns : List ColumnDef
  primaryKeys : List String
  version : UInt32
  deriving DecidableEq

inductive SchemaDiffOperation
  | addColumn (column : ColumnDef)
  | dropColumn (name : String)
  | renameColumn (old new : String)
  | unsupported (clause : String)
  deriving DecidableEq

inductive DDLEvent
  | createTable (schema : TableSchema)
  | alterTable (schema : TableSchema)
  | alterTableDiff (schema table : String) (diff : List SchemaDiffOperation)
  | dropTable (schema table : String)
  deriving DecidableEq

def tableKey (schema table : String) : String := schema++"."++table

/-- The table a DDL is about. -/
def DDLEvent.key : DDLEvent → String
  | .createTable schema | .alterTable schema => tableKey schema.schema schema.table
  | .alterTableDiff schema table _ | .dropTable schema table => tableKey schema table

namespace TableSchema
def hasColumn (schema : TableSchema) (name : String) : Bool := schema.columns.any (·.name = name)
def diffError (schema : TableSchema) (what : String) : Error :=
  .schemaError ("cannot apply ALTER TABLE diff"++what++" on "++schema.schema++"."++schema.table)

/-- The first column of the name, with another name. -/
def renameFirst (old new : String) : List ColumnDef → List ColumnDef
  | [] => []
  | column::columns =>
    if column.name = old then {column with name := new}::columns
    else column::renameFirst old new columns

def applyOperation (schema : TableSchema) : SchemaDiffOperation → Except Error TableSchema
  | .addColumn column =>
    if schema.hasColumn column.name then
      .error (schema.diffError (": column '"++column.name++"' already exists"))
    else
      let isKey := column.constraints.any (eqIgnoreAsciiCase · "primary_key") &&
        !schema.primaryKeys.contains column.name
      .ok {schema with
        columns := schema.columns++[column]
        primaryKeys := if isKey then schema.primaryKeys++[column.name] else schema.primaryKeys}
  | .dropColumn name =>
    if !schema.hasColumn name then
      .error (schema.diffError (": column '"++name++"' does not exist"))
    else
      .ok {schema with
        columns := schema.columns.filter (·.name ≠ name)
        primaryKeys := schema.primaryKeys.filter (· ≠ name)}
  | .renameColumn old new =>
    if schema.hasColumn new then
      .error (schema.diffError (": rename target '"++new++"' already exists"))
    else if !schema.hasColumn old then
      .error (schema.diffError (": source column '"++old++"' does not exist"))
    else
      .ok {schema with
        columns := renameFirst old new schema.columns
        primaryKeys := schema.primaryKeys.map fun key => if key = old then new else key}
  | .unsupported clause =>
    .error (schema.diffError (" with unsupported clause '"++clause++"'"))

def applySchemaDiff (schema : TableSchema) : List SchemaDiffOperation → Except Error TableSchema
  | [] => .ok schema
  | operation::diff =>
    match schema.applyOperation operation with
    | .error e => .error e
    | .ok schema => schema.applySchemaDiff diff
end TableSchema
structure VersionedSchema where
  version : UInt32
  recordedAt : UInt64
  schema : Option TableSchema
  ddlId : Option String
  deriving DecidableEq

/-- The entries of each table, oldest first. -/
abbrev SchemaStore := List (String × List VersionedSchema)

namespace SchemaStore
def entries (store : SchemaStore) (key : String) : List VersionedSchema := (store.lookup key).getD []

def push (key : String) (entry : VersionedSchema) : SchemaStore → SchemaStore
  | [] => [(key,[entry])]
  | (k,entries)::store =>
    if k = key then (k,entries++[entry])::store else (k,entries)::push key entry store
section
variable (store : SchemaStore)

def nextVersion (key : String) : UInt32 :=
  match (store.entries key).getLast? with
  | some entry => entry.version+1
  | none => 1

/-- The version an entry of the table has for the id; an empty id is not looked for. -/
def existingVersionForDdl (key ddlId : String) : Option UInt32 :=
  if ddlId.isEmpty then none
  else ((store.entries key).find? (·.ddlId = some ddlId)).map (·.version)

/-- The schema a DDL leaves its table with, `none` for a dropped one. -/
def resultSchema (version : UInt32) : DDLEvent → Except Error (Option TableSchema)
  | .createTable schema | .alterTable schema => .ok (some {schema with version := version})
  | .alterTableDiff schema table diff =>
    match (store.entries (tableKey schema table)).getLast?.bind (·.schema) with
    | none => .error (.schemaError ("cannot apply ALTER TABLE diff to unknown table '"++ tableKey schema table++"'"))
    | some current => (current.applySchemaDiff diff).map fun next => some {next with version := version}
  | .dropTable _ _ => .ok none

def recordDdlInStore (ddlId : String) (ddl : DDLEvent) (timestamp : UInt64) : SchemaStore × Except Error UInt32 :=
  match store.existingVersionForDdl ddl.key ddlId with
  | some version => (store,.ok version)
  | none =>
    let version := store.nextVersion ddl.key
    match store.resultSchema version ddl with
    | .error e => (store,.error e)
    | .ok schema =>
      let id := if ddlId.isEmpty then none else some ddlId
      (store.push ddl.key ⟨version,timestamp,schema,id⟩,.ok version)

def latestSchemaForTable (table : String) : Option TableSchema := (store.entries table).getLast?.bind (·.schema)

/-- Keep the newest entries of each table. -/
def applyStoreRetention (maxVersionsPerTable : ℕ) : SchemaStore :=
  store.map fun (key,entries) => (key,entries.drop (entries.length-maxVersionsPerTable))

/-- The number of entries of all tables. -/
def size : ℕ := (store.map (·.2.length)).sum

lemma entries_push_self (key : String) (entry : VersionedSchema) :
    (store.push key entry).entries key = store.entries key++[entry] := by
  induction store with
  | nil => simp [push,entries]
  | cons t store ih =>
    obtain ⟨k,es⟩ := t
    rw [push]
    by_cases hk : k = key
    · simp [entries,hk]
    · have hn : (key == k) = false := by simpa using Ne.symm hk
      simpa [entries,hk,List.lookup,hn] using ih
end
variable {store : SchemaStore} {key : String} {other ddlId : String} {entry : VersionedSchema}

lemma entries_push_ne (store : SchemaStore) (hn : other ≠ key) (entry : VersionedSchema) :
    (store.push key entry).entries other = store.entries other := by
  induction store with
  | nil =>
    have hb : (other == key) = false := by simpa using hn
    simp [push,entries,List.lookup,hb]
  | cons t store ih =>
    obtain ⟨k,es⟩ := t
    rw [push]
    by_cases hk : k = key
    · have hb : (other == k) = false := by simpa [hk] using hn
      simp [entries,hk,List.lookup,hk ▸ hb]
    · by_cases ho : other = k
      · simp [entries,hk,List.lookup,ho]
      · have hb : (other == k) = false := by simpa using ho
        simpa [entries,hk,List.lookup,hb] using ih

lemma mem_entries_push {new : VersionedSchema} : entry ∈ (store.push key new).entries other ↔
      entry ∈ store.entries other ∨ (other = key ∧ entry = new) := by
  by_cases h : other = key
  · subst h
    simp [entries_push_self]
  · simp [entries_push_ne store h,h]

lemma entries_retention (store : SchemaStore) (li : ℕ) (key : String) : (store.applyStoreRetention li).entries key =
      (store.entries key).drop ((store.entries key).length-li) := by
  induction store with
  | nil => simp [applyStoreRetention,entries]
  | cons t store ih =>
    obtain ⟨k,es⟩ := t
    by_cases hk : key = k
    · simp [applyStoreRetention,entries,List.lookup,hk]
    · have hb : (key == k) = false := by simpa using hk
      simpa [applyStoreRetention,entries,List.lookup,hb] using ih

lemma mem_entries_retention {k : ℕ}
    (h : entry ∈ (store.applyStoreRetention k).entries key) : entry ∈ store.entries key := by
  rw [entries_retention] at h
  exact List.mem_of_mem_drop h

lemma size_push (store : SchemaStore) (key : String) (entry : VersionedSchema) :
    (store.push key entry).size = store.size+1 := by
  induction store with
  | nil => rfl
  | cons t store ih =>
    rw [push]
    split
    · simp [size]
      omega
    · simp only [size,List.map_cons,List.sum_cons] at ih ⊢
      omega

inductive Recorded (store : SchemaStore) (ddlId : String) (ddl : DDLEvent) (timestamp : UInt64) :
    SchemaStore × Except Error UInt32 → Prop
  | replay (entry : VersionedSchema) (named : ddlId ≠ "") (mem : entry ∈ store.entries ddl.key)
      (id : entry.ddlId = some ddlId)
      (found : store.existingVersionForDdl ddl.key ddlId = some entry.version) :
      Recorded store ddlId ddl timestamp (store,.ok entry.version)
  | refused (e : Error) (new : store.existingVersionForDdl ddl.key ddlId = none) :
      Recorded store ddlId ddl timestamp (store,.error e)
  | appended (schema : Option TableSchema) (new : store.existingVersionForDdl ddl.key ddlId = none) :
      Recorded store ddlId ddl timestamp (store.push ddl.key ⟨store.nextVersion ddl.key,timestamp,schema,
          if ddlId.isEmpty then none else some ddlId⟩,.ok (store.nextVersion ddl.key))

lemma existing_some {version : UInt32} (h : store.existingVersionForDdl key ddlId = some version) :
    ddlId ≠ "" ∧ ∃ entry ∈ store.entries key, entry.ddlId = some ddlId ∧ entry.version = version := by
  rw [existingVersionForDdl] at h
  split at h
  · cases h
  · rename_i hn
    obtain ⟨entry,hf,rfl⟩ := Option.map_eq_some_iff.mp h
    have hi := List.find?_some hf
    exact ⟨by simpa using hn,entry,List.mem_of_find?_eq_some hf,by simpa using hi,rfl⟩

lemma existing_none (hn : ddlId ≠ "") (h : store.existingVersionForDdl key ddlId = none) :
    ∀ entry ∈ store.entries key, entry.ddlId ≠ some ddlId := by
  rw [existingVersionForDdl,if_neg (by simpa using hn),Option.map_eq_none_iff,List.find?_eq_none] at h
  intro entry he
  simpa using h entry he

lemma record_recorded (store : SchemaStore) (ddlId : String) (ddl : DDLEvent) (t : UInt64) :
    Recorded store ddlId ddl t (store.recordDdlInStore ddlId ddl t) := by
  rw [recordDdlInStore]
  cases he : store.existingVersionForDdl ddl.key ddlId with
  | some =>
    obtain ⟨hn,entry,hen,hi,rfl⟩ := existing_some he
    exact .replay entry hn hen hi he
  | none =>
    dsimp only
    split
    · exact .refused _ he
    · exact .appended _ he
end SchemaStore
end Rustcdc
