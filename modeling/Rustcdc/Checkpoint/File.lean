import Rustcdc.Core.Bytes
import Rustcdc.Core.Position

/-! The file-backed checkpoint store: one file per source type, checked before each write against
the record it replaces, and read back as the furthest record of the source family. -/
namespace Rustcdc
/-- `Value::as_str`. -/
def Json.asStr : Json → Option String
  | .str value => some value
  | _ => none

/-- `Value::as_u64`. -/
def Json.asU64 : Json → Option ℕ
  | .num n => if allDigits n.text && digitsValue n.text < 2^64 then some (digitsValue n.text) else none
  | _ => none

lemma not_mem_padZeros {c : Char} (hc : ∀ d < 16, c ≠ upperDigit d) (w n : ℕ) : c ∉ padZeros w (formatNat 10 n) := by
  intro hm
  rcases List.mem_append.mp hm with hz | hdi
  · exact hc 0 (by decide) (List.eq_of_mem_replicate hz)
  · rcases mem_digitsInto (by decide : 1 < 10 ∧ 10 ≤ 16) hdi with hn | ⟨d,hd,he⟩
    · cases hn
    · exact hc d hd he

def natText (n : ℕ) : String := String.ofList (formatNat 10 n)

def fileCheckpointFormatVersion : UInt16 := 1

structure FileCheckpointRecord where
  checkpointFormatVersion : UInt16
  sourceType : String
  committedEventCount : UInt64
  offset : Json
  contentChecksum : String

structure StoredCheckpointRecord where
  sourceType : String
  committedEventCount : UInt64
  offset : Json

/-- The serialization of the fields the checksum covers. -/
def checksumPreimage (version : UInt16) (sourceType : String) (count : UInt64) (offset : Json) : List Char :=
  "\x7b\"checkpoint_format_version\":".toList++formatNat 10 version.toNat++
    ",\"source_type\":".toList++Json.renderString sourceType++
    ",\"committed_event_count\":".toList++formatNat 10 count.toNat++
    ",\"offset\":".toList++offset.render++"\x7d".toList

/-- SHA-256 of a text as lowercase hex. -/
abbrev Digest := List Char → String

namespace FileCheckpointRecord
variable (sha256 : Digest)

def computeChecksum (record : FileCheckpointRecord) : String :=
  sha256 (checksumPreimage record.checkpointFormatVersion record.sourceType record.committedEventCount record.offset)

def new (sourceType : String) (count : UInt64) (offset : Json) : FileCheckpointRecord where
  checkpointFormatVersion := fileCheckpointFormatVersion
  sourceType := sourceType
  committedEventCount := count
  offset := offset
  contentChecksum := sha256 (checksumPreimage fileCheckpointFormatVersion sourceType count offset)

def verifyChecksum (path : String) (record : FileCheckpointRecord) : Except Error Unit :=
  let expected := record.computeChecksum sha256
  if record.contentChecksum = expected then .ok ()
  else .error (.checkpointError ("checkpoint file '"++path++ "' failed its integrity check (recorded checksum "++
    (if record.contentChecksum.isEmpty then "<absent>" else record.contentChecksum)++
    ", computed "++expected++"). The file has been corrupted or edited by hand. Resuming from it "++
    "risks silently skipping or replaying events, so the runtime refuses to load it. Restore the "++
    "file from backup, or re-seed it with `FileCheckpoint::restore_from_record`."))
end FileCheckpointRecord
/-- The commit-LSN field of a SQL Server cursor. -/
def cdcCursorLsn (offset : Json) : Option String := ((offset.get "cursor").bind (·.asStr)).map fun cursor =>
    match splitOnce ':' cursor.toList with
    | some (lsn,_) => String.ofList lsn
    | none => cursor

/-- A binlog file's sequence number and the position in it. -/
def binlogCoordinate (offset : Json) : Option (ℕ × ℕ) := ((offset.get "binlog_file").bind (·.asStr)).bind fun file =>
    (rsplitOnce '.' file.toList).bind fun parts =>
      (fromStrRadix 10 (2^64) parts.2).toOption.bind fun sequence =>
        ((offset.get "binlog_pos").bind (·.asU64)).bind fun position =>
          if position < 2^32 then some (sequence,position) else none
section
variable (existing next : Json)

def postgresRegression : Option String :=
  if existing.get "slot_name" ≠ next.get "slot_name" then none
  else
    ((existing.get "lsn").bind (·.asU64)).bind fun before =>
      ((next.get "lsn").bind (·.asU64)).bind fun after =>
        if after = 0 ∧ 0 < before then some ("postgres LSN "++natText before++" → 0") else none

def binlogRegression : Option String :=
  -- with a GTID the coordinates of two servers are not comparable
  if ((next.get "gtid").bind (·.asStr)).any (!·.isEmpty) then none
  else if existing.get "source_flavor" ≠ next.get "source_flavor" then none
  else
    (binlogCoordinate existing).bind fun before =>
      (binlogCoordinate next).bind fun after =>
        if after.1 < before.1 ∨ (after.1 = before.1 ∧ after.2 < before.2) then
          some ("mysql binlog position "++natText before.1++":"++natText before.2++" → "++
            natText after.1++":"++natText after.2)
        else none

def sqlserverRegression : Option String := (cdcCursorLsn existing).bind fun before =>
    (cdcCursorLsn next).bind fun after =>
      if after < before then some ("sqlserver CDC commit LSN "++before++" → "++after) else none

def snowflakeRegression : Option String :=
  if existing.get "database" ≠ next.get "database" ∨ existing.get "schema" ≠ next.get "schema" then
    none
  else
    ((existing.get "window_end_nanos").bind (·.asU64)).bind fun before =>
      ((next.get "window_end_nanos").bind (·.asU64)).bind fun after =>
        if after < before then
          some ("snowflake window end "++natText before++"ns → "++natText after++"ns")
        else none
end
def streamPositionRegression (sourceType : String) (existing next : Json) : Option String :=
  if sourceType = "postgres" then postgresRegression existing next
  else if sourceType = "mysql" ∨ sourceType = "mariadb" then binlogRegression existing next
  else if sourceType = "sqlserver" then sqlserverRegression existing next
  else if sourceType = "snowflake" then snowflakeRegression existing next
  else none

def validateCheckpointProgress (existing : Option StoredCheckpointRecord)
    (next : StoredCheckpointRecord) : Except Error Unit :=
  match existing with
  | none => .ok ()
  | some existing =>
    if next.committedEventCount < existing.committedEventCount then
      .error (.checkpointError ("refusing non-monotonic checkpoint write for source '"++
        next.sourceType++"': existing committed_event_count="++
        natText existing.committedEventCount.toNat++" is greater than next "++
        "committed_event_count="++natText next.committedEventCount.toNat))
    else if existing.committedEventCount = next.committedEventCount ∧ existing.offset ≠ next.offset then
      .error (.checkpointError ("refusing conflicting checkpoint write for source '"++
        next.sourceType++"': committed_event_count="++natText next.committedEventCount.toNat++
        " matches the existing record but the offset payload differs"))
    else
      match streamPositionRegression next.sourceType existing.offset next.offset with
      | none => .ok ()
      | some detail => .error (.checkpointError ("refusing checkpoint write for source '"++
          next.sourceType++"': the stream position moved backwards ("++detail++
          "). The committed-event count still advanced, so this is not a replay — it means the "++
          "connector handed the checkpoint a position it cannot have reached, and writing it "++
          "would make the next restart resume before data that is already committed downstream. "++
          "Either the source was reset or repointed at a different server (clear the checkpoint "++
          "directory and re-snapshot), or this is a connector defect worth reporting."))

/-- A checkpoint file: its name, the time it was written, its permissions and what it holds. -/
structure CheckpointFile where
  name : String
  modified : ℕ
  mode : UInt32
  record : FileCheckpointRecord

/-- The store with the checkpoint files of its directory. -/
structure FileCheckpoint where
  checkpointDir : String
  fileMode : UInt32
  readOnly : Bool
  files : List CheckpointFile

/-- What the operating system answers during one save. -/
structure SaveAnswer where
  /-- Taking or verifying the owner lease and finding the directory. -/
  lease : Except Error Unit
  /-- Writing the temporary file and renaming it, with the time of the write. -/
  write : Except Error ℕ
  /-- Making the rename durable. -/
  sync : Except Error Unit

namespace FileCheckpoint
def sourceFamily (sourceType : String) : String :=
  let suffix := "_snapshot".toList
  if suffix.isSuffixOf sourceType.toList then
    String.ofList (sourceType.toList.take (sourceType.toList.length-suffix.length))
  else sourceType

def checkpointName (sourceType : String) : String := "checkpoint_"++sourceType++".json"
def pathOf (store : FileCheckpoint) (name : String) : String := store.checkpointDir++"/"++name

/-- Group and other may not read or write a checkpoint file. -/
def secureMode (mode : UInt32) : Bool := mode &&& 0o077 = 0

def insecurePermissions (path : String) (mode : UInt32) : Error :=
  .checkpointError ("checkpoint file '"++path++"' has insecure permissions "++
    String.ofList (padZeros 4 (Nat.toDigits 8 (mode &&& 0o777).toNat))++
    "; expected 0600 (no access for group/other). Run: chmod 600 "++path)

def unsupportedVersion (path : String) (version : UInt16) : Error :=
  .checkpointError ("unsupported checkpoint file format version "++natText version.toNat++" in '"++
    path++"'; supported version is "++natText fileCheckpointFormatVersion.toNat)

variable (sha256 : Digest) (store : FileCheckpoint)

def readRecord (file : CheckpointFile) : Except Error FileCheckpointRecord :=
  let path := store.pathOf file.name
  if !secureMode file.mode then .error (insecurePermissions path file.mode)
  else if file.record.checkpointFormatVersion ≠ fileCheckpointFormatVersion then
    .error (unsupportedVersion path file.record.checkpointFormatVersion)
  else (file.record.verifyChecksum sha256 path).map fun _ => file.record

def validateMonotonicProgress (sourceType : String) (next : FileCheckpointRecord) : Except Error Unit :=
  match store.files.find? (·.name = checkpointName sourceType) with
  | none => .ok ()
  | some file =>
    match store.readRecord sha256 file with
    | .error e => .error e
    | .ok existing =>
      validateCheckpointProgress (some ⟨existing.sourceType,existing.committedEventCount,existing.offset⟩)
        ⟨next.sourceType,next.committedEventCount,next.offset⟩

def readOnlyHandle : Error := .checkpointError ("this FileCheckpoint handle for '"++store.checkpointDir++
    "' is read-only and cannot write. It was created with FileCheckpoint::read_only(), which takes "++
    "no owner lease so it can safely inspect a directory another instance owns. Use "++
    "FileCheckpoint::new() for the owning instance.")

/-- The directory once the file has been renamed into place. -/
def replaceFile (file : CheckpointFile) : FileCheckpoint :=
  {store with files := store.files.filter (·.name ≠ file.name)++[file]}

def saveBlocking (sourceType : String) (record : FileCheckpointRecord) (answer : SaveAnswer) :
    FileCheckpoint × Except Error Unit :=
  if store.readOnly then (store,.error store.readOnlyHandle)
  else
    match answer.lease with
    | .error e => (store,.error e)
    | .ok () =>
      match store.validateMonotonicProgress sha256 sourceType record with
      | .error e => (store,.error e)
      | .ok () =>
        match answer.write with
        | .error e => (store,.error e)
        | .ok modified =>
          (store.replaceFile ⟨checkpointName sourceType,modified,store.fileMode,record⟩,answer.sync)

/-- `save` of an offset, given by its source type and its payload. -/
def save (sourceType : String) (offset : Json) (count : UInt64) (answer : SaveAnswer) :
    FileCheckpoint × Except Error Unit :=
  store.saveBlocking sha256 sourceType (.new sha256 sourceType count offset) answer

/-- The order the records are sorted in: by count, then by time, then by path. -/
def notAfter (a b : CheckpointFile) : Prop := a.record.committedEventCount < b.record.committedEventCount ∨
    (a.record.committedEventCount = b.record.committedEventCount ∧
      (a.modified < b.modified ∨ (a.modified = b.modified ∧ a.name ≤ b.name)))
  deriving Decidable

def mixedFamilies (families : List String) : Error :=
  .checkpointError ("mixed checkpoint source families found in directory '"++store.checkpointDir++
    "': "++", ".intercalate (families.insertionSort (· ≤ ·))++
    ". use a dedicated checkpoint directory per source family")

def loadLatestRecord : Except Error (Option FileCheckpointRecord) :=
  match store.files.mapM (store.readRecord sha256) with
  | .error e => .error e
  | .ok records =>
    let families := (records.map fun record => sourceFamily record.sourceType).dedup
    if 1 < families.length then .error (store.mixedFamilies families)
    else .ok ((store.files.insertionSort notAfter).getLast?.map (·.record))

/-- `get_committed_count`. -/
def committedCount : Except Error UInt64 :=
  (store.loadLatestRecord sha256).map fun record => (record.map (·.committedEventCount)).getD 0

/-- The source types whose payload `load` reads into its own offset type. -/
def typedSources : List String := ["postgres","mysql","mariadb","sqlserver"]

/-- `load`, the offset by its source type and payload; `fromBytes` are the readers of the typed
offsets. -/
def load (fromBytes : String → Json → Except Error Unit) (store : FileCheckpoint) :
    Except Error (Option (String × Json)) :=
  match store.loadLatestRecord sha256 with
  | .error e => .error e
  | .ok none => .ok none
  | .ok (some record) =>
    if typedSources.contains record.sourceType then
      (fromBytes record.sourceType record.offset).map fun _ =>
        some (record.sourceType,record.offset)
    else .ok (some (record.sourceType,record.offset))
end FileCheckpoint
end Rustcdc
