import Rustcdc.Core.Bytes
import Rustcdc.Core.Event
import Rustcdc.Lib.Run

/-! The file sink.  Lines are collected in a batch, handed to a buffered writer, and the active file is
renamed to an archive when the next line would make it too long.  Each call to the operating system is
answered by its environment. -/
namespace Rustcdc
open Framing

def batchMaxLines : ℕ := 128
def batchMaxBytes : ℕ := 256*1024
def newline : UInt8 := 10

/-- An archive's name: the time of the rotation and its number. -/
structure ArchiveName where
  timestampMs : ℕ
  rotationCount : ℕ
  deriving DecidableEq

/-- The file at the configured path, and the archives in the order they were made. -/
structure SinkDisk where
  active : Option Bytes
  archives : List (ArchiveName × Bytes)

/-- The file a handle writes to. -/
inductive Handle
  | active
  | archive (name : ArchiveName)

namespace SinkDisk
variable (disk : SinkDisk)

def append (bytes : Bytes) : Handle → SinkDisk
  | .active => {disk with active := disk.active.map (·++bytes)}
  | .archive name => {disk with archives := disk.archives.map fun file =>
      if file.1 = name then (name,file.2++bytes) else file}

/-- The active file renamed, over an archive of the same name. -/
def rename (name : ArchiveName) (content : Bytes) : SinkDisk :=
  ⟨none,disk.archives.filter (·.1 ≠ name)++[(name,content)]⟩

/-- The files in the order they were written. -/
def files : List Bytes := disk.archives.map (·.2)++disk.active.toList
end SinkDisk
section
/-- How a write to the buffered writer ends: how much of what it holds is in the file, and how much of
the rest is dropped when it fails. -/
structure WriteAnswer where
  written : ℕ
  lost : ℕ
  result : Except String Unit

structure RotateAnswer where
  flush : WriteAnswer
  sync : Except String Unit
  timestampMs : ℕ
  rename : Except String Unit
  openFile : Except String Unit

structure LineAnswer where
  rotate : RotateAnswer
  write : WriteAnswer

/-- The answers to one call of `flush_pending`, and to the final sync of `close`. -/
structure FlushAnswers where
  lines : ℕ → LineAnswer
  flush : WriteAnswer
  sync : Except String Unit
  closeSync : Except String Unit

/-- The buffered writer: its file and the bytes that are not in it yet. -/
structure BufWriter where
  file : Handle
  buffer : Bytes

def ioResult (result : Except String Unit) : Except Error Unit := result.mapError .ioError

variable (w : BufWriter) (disk : SinkDisk)

/-- The writer and the disk once a part of the bytes has been written. -/
def BufWriter.put (bytes : Bytes) (a : WriteAnswer) : BufWriter × SinkDisk :=
  match a.result with
  | .ok () => (⟨w.file,bytes.drop a.written⟩,disk.append (bytes.take a.written) w.file)
  | .error _ => (⟨w.file,bytes.drop (a.written+a.lost)⟩,disk.append (bytes.take a.written) w.file)
def BufWriter.writeAll (line : Bytes) (a : WriteAnswer) : BufWriter × SinkDisk := w.put disk (w.buffer++line) a

/-- A flush that succeeds has written everything. -/
def BufWriter.flush (a : WriteAnswer) : BufWriter × SinkDisk :=
  match a.result with
  | .ok () => (⟨w.file,[]⟩,disk.append w.buffer w.file)
  | .error _ => w.put disk w.buffer a
end
structure FileJsonlSinkConfig where
  rotateSizeBytes : UInt64
  fsyncEvery : UInt32

structure FileJsonlSink where
  writer : BufWriter
  disk : SinkDisk
  path : String
  rotateSizeBytes : UInt64
  fsyncEvery : UInt32
  flushCount : UInt32
  -- a saturating `u64` in the source: after 2^64 rotations two archives can get one name
  rotationCount : ℕ
  bytesWritten : UInt64
  pendingLines : List Bytes
  pendingBytes : ℕ
  closed : Bool

structure OpenAnswers where
  createDir : Except String Unit
  openFile : Except String Unit
  metadata : Except String Unit

namespace FileJsonlSink
def createParent (parent : String) (a : OpenAnswers) : Except Error Unit :=
  if parent.isEmpty then .ok ()
  else a.createDir.mapError fun e => .stateError
    ("FileJsonlSink: could not create parent directory '"++parent++"': "++e)

def openWith (parent path : String) (config : FileJsonlSinkConfig) (existing : Option Bytes)
    (a : OpenAnswers) : Except Error FileJsonlSink :=
  match createParent parent a, a.openFile with
  | .error e, _ => .error e
  | .ok (), .error e =>
    .error (.stateError ("FileJsonlSink: could not open '"++path++"': "++e))
  | .ok (), .ok () =>
    let content := existing.getD []
    .ok {
      writer := ⟨.active,[]⟩
      disk := ⟨some content,[]⟩
      path := path
      rotateSizeBytes := config.rotateSizeBytes
      fsyncEvery := max config.fsyncEvery 1
      flushCount := 0
      rotationCount := 0
      bytesWritten := match a.metadata with
        | .ok () => .ofNat content.length
        | .error _ => 0
      pendingLines := []
      pendingBytes := 0
      closed := false }

variable (s : FileJsonlSink)

def closedErr : Error := .stateError ("FileJsonlSink('"++s.path++"') is closed")
def flushed (a : WriteAnswer) : FileJsonlSink :=
  let (writer,disk) := s.writer.flush s.disk a
  {s with writer := writer, disk := disk}

def renamed (name : ArchiveName) (content : Bytes) : FileJsonlSink := {s with
    disk := s.disk.rename name content
    writer := ⟨.archive name,s.writer.buffer⟩
    rotationCount := name.rotationCount}

/-- A fresh file at the configured path. -/
def reopened : FileJsonlSink := {s with
    disk := {s.disk with active := some []}
    writer := ⟨.active,[]⟩
    bytesWritten := 0}

def rotate (a : RotateAnswer) : FileJsonlSink × Except Error Unit :=
  let s := s.flushed a.flush
  match a.flush.result, a.sync with
  | .error e, _ => (s,.error (.ioError e))
  | .ok (), .error e => (s,.error (.ioError e))
  | .ok (), .ok () =>
    let name : ArchiveName := ⟨a.timestampMs,s.rotationCount+1⟩
    match s.disk.active, a.rename with
    | none, _ => ({s with rotationCount := s.rotationCount+1},
        .error (.ioError "No such file or directory (os error 2)"))
    | some _, .error e => ({s with rotationCount := s.rotationCount+1},.error (.ioError e))
    | some content, .ok () =>
      match a.openFile with
      | .error e => (s.renamed name content,.error (.ioError e))
      | .ok () => ((s.renamed name content).reopened,.ok ())

/-- The line would make the active file too long. -/
def rotates (line : Bytes) : Bool :=
  0 < s.rotateSizeBytes && 0 < s.bytesWritten && s.rotateSizeBytes < s.bytesWritten+.ofNat line.length

/-- The line handed to the writer. -/
def written (line : Bytes) (a : WriteAnswer) : FileJsonlSink × Except Error Unit :=
  let (writer,disk) := s.writer.writeAll s.disk line a
  match a.result with
  | .error e => ({s with writer := writer, disk := disk},.error (.ioError e))
  | .ok () => ({s with writer := writer, disk := disk, bytesWritten := s.bytesWritten+.ofNat line.length},
      .ok ())

def writeLine (line : Bytes) (a : LineAnswer) : FileJsonlSink × Except Error Unit :=
  if s.rotates line then
    match s.rotate a.rotate with
    | (s,.error e) => (s,.error e)
    | (s,.ok ()) => s.written line a.write
  else s.written line a.write

def flushWriter (a : FlushAnswers) : FileJsonlSink × Except Error Unit :=
  match a.flush.result with
  | .error e => (s.flushed a.flush,.error (.ioError e))
  | .ok () =>
    let s := {s.flushed a.flush with flushCount := s.flushCount+1}
    if s.flushCount % s.fsyncEvery = 0 then (s,ioResult a.sync) else (s,.ok ())

/-- The lines of the batch, up to the first that fails. -/
def writeBatch (s : FileJsonlSink) (a : ℕ → LineAnswer) : ℕ → List Bytes → FileJsonlSink × Except Error Unit
  | _, [] => (s,.ok ())
  | index, line::batch =>
    match s.writeLine line (a index) with
    | (s,.error e) => (s,.error e)
    | (s,.ok ()) => writeBatch s a (index+1) batch

def flushPending (a : FlushAnswers) : FileJsonlSink × Except Error Unit :=
  if s.pendingLines.isEmpty then s.flushWriter a
  else
    match writeBatch {s with pendingLines := [], pendingBytes := 0} a.lines 0 s.pendingLines with
    | (s,.error e) => (s,.error e)
    | (s,.ok ()) => s.flushWriter a

variable (toVec : Event → Except Error Bytes) (s : FileJsonlSink)

def queued (line : Bytes) : FileJsonlSink :=
  {s with pendingLines := s.pendingLines++[line], pendingBytes := s.pendingBytes+line.length}
def full : Bool := batchMaxLines ≤ s.pendingLines.length || batchMaxBytes ≤ s.pendingBytes

/-- `send`, with the serializer of events. -/
def send (event : Event) (a : FlushAnswers) : FileJsonlSink × Except Error Unit :=
  if s.closed then (s,.error s.closedErr)
  else
    match toVec event with
    | .error e => (s,.error e)
    | .ok line =>
      let s := s.queued (line++[newline])
      if s.full then s.flushPending a else (s,.ok ())

def flush (a : FlushAnswers) : FileJsonlSink × Except Error Unit :=
  if s.closed then (s,.error s.closedErr) else s.flushPending a

def close (a : FlushAnswers) : FileJsonlSink × Except Error Unit :=
  if s.closed then (s,.ok ())
  else
    match s.flushPending a with
    | (s,.error e) => (s,.error e)
    | (s,.ok ()) =>
      match a.closeSync with
      | .error e => (s,.error (.ioError e))
      | .ok () => ({s with closed := true},.ok ())
end FileJsonlSink
end Rustcdc
