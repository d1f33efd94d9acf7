import Rustcdc.Checkpoint.File
import Rustcdc.Core.Text

/-! The owner lease of a single-writer store, one file operation at a time.  Instances of the store in
any number of processes share one lock file; the instances of one process share its registry. -/
namespace Rustcdc.OwnerLease
open Function

def formatLease (hostname : String) (pid : UInt32) : String := hostname++":"++natText pid.toNat

def parseLease (contents : String) : Option (String × UInt32) :=
  (rsplitOnce ':' (trim contents.toList)).bind fun parts =>
    if parts.1.isEmpty then none
    else (fromStrRadix 10 (2^32) parts.2).toOption.map fun pid =>
      (String.ofList parts.1,UInt32.ofNat pid)

/-- What a process is known by in the lock file; a host name is trimmed and never blank. -/
structure Identity where
  host : String
  pid : UInt32
  named : host ≠ ""
  trimmed : Trimmed host.toList
  deriving DecidableEq

def Identity.token (id : Identity) : String := formatLease id.host id.pid

lemma digits_chars (n : ℕ) : ∀ c ∈ formatNat 10 n, c ≠ ':' ∧ isWhitespace c = false := by
  intro c hc
  rcases mem_digitsInto (by decide : 1 < 10 ∧ 10 ≤ 16) hc with hn | ⟨d,hd,rfl⟩
  · cases hn
  · have ha : ∀ d < 16, upperDigit d ≠ ':' ∧ isWhitespace (upperDigit d) = false := by decide
    exact ha d (by omega)

/-- A token is read back as the process that wrote it. -/
theorem parseLease_token (id : Identity) : parseLease id.token = some (id.host,id.pid) := by
  have hch := digits_chars id.pid.toNat
  have ht : id.token.toList = id.host.toList++ ':'::formatNat 10 id.pid.toNat := by
    simp [Identity.token,formatLease,natText]
  have hh : id.host.toList ≠ [] := by simpa using id.named
  have htr : trim id.token.toList = id.host.toList++ ':'::formatNat 10 id.pid.toNat := by
    rw [ht]
    refine (id.trimmed.append (trimmed_of_forall fun c hc => ?_) hh (by simp)).trim
    rcases List.mem_cons.mp hc with rfl | hd
    · decide
    · exact (hch c hd).2
  have hl := id.pid.toNat_lt
  have hp : fromStrRadix 10 (2^32) (formatNat 10 id.pid.toNat) = .ok id.pid.toNat :=
    fromStrRadix_format (by norm_num) (by omega) hl
  rw [parseLease,htr,rsplitOnce_append (fun hco => (hch _ hco).1 rfl)]
  rw [Option.bind_some,if_neg (by simpa using hh),hp]
  simp [Except.toOption]

/-- The store that is guarded, as the messages name it. -/
structure Store where
  label : String
  lockPath : String
  parentDir : String

namespace Store
variable (store : Store)

def reservedError : Error := .stateError (store.label++" owner lease for '"++
  store.lockPath++"' is already held by another instance in this process. Two instances against "++
  "one store hold independent in-memory state and rewrite the whole file, silently destroying each "++
  "other's records. Share one instance (it is cheap to clone), or use a dedicated "++store.label++
  " directory per instance.")

def lostRaceError : Error := .stateError (store.label++" owner lease conflict for '"++
  store.parentDir++"': lost stale-lease takeover race to a concurrent process. Retry, or use a "++
  "dedicated "++store.label++" directory per runtime instance.")

def crossHostError (host : String) (pid : UInt32) : Error :=
  .stateError (store.label++" owner lease conflict for '"++store.parentDir++"': held by host '"++host++
    "' pid "++natText pid.toNat++" — cross-host NFS sharing is not supported. Use a dedicated "++
    store.label++" directory per runtime instance.")

def heldError : Error := .stateError (store.label++" owner lease conflict for '"++
  store.parentDir++"': lock is held by another process. Use a dedicated "++store.label++
  " directory per runtime instance.")

def disappearedError : Error := .stateError (store.label++" owner lease file '"++
  store.lockPath++"' has disappeared; this process no longer holds exclusive write access. Another "++
  "instance may have taken over, or the file was removed manually. Refusing to write, because two "++
  "writers against one store destroy each other's records. Restart this runtime after confirming no "++
  "other instance is running.")

def takenError (token found : String) : Error := .stateError (store.label++
  " owner lease at '"++store.lockPath++"' is no longer held by this process (expected '"++token++
  "', found '"++found++"'). Another instance has taken ownership. Refusing to write, because two "++
  "writers against one store destroy each other's records. Use a dedicated "++store.label++
  " directory per runtime instance.")
end Store
/-- What a read of the lock file gives. -/
inductive ReadAnswer
  | contents (raw : String)
  | notFound
  | failed (e : Error)

/-- `read_to_string(..).unwrap_or_default()`. -/
def ReadAnswer.orEmpty : ReadAnswer → String
  | .contents raw => raw
  | _ => ""

def verifyStillHeld (store : Store) (token : String) : ReadAnswer → Except Error Unit
  | .notFound => .error store.disappearedError
  | .failed e => .error e
  | .contents raw =>
    if String.ofList (trim raw.toList) = token then .ok ()
    else .error (store.takenError token (String.ofList (trim raw.toList)))

/-- What is done about a lock file that is already there. -/
inductive Decision
  | reentrant
  | probe (pid : UInt32)
  | refuse (e : Error)

def decision (store : Store) (self : Identity) (raw : String) : Decision :=
  match parseLease raw with
  | none => .refuse store.heldError
  | some (host,pid) =>
    if host = self.host ∧ pid = self.pid then .reentrant
    else if host = self.host then .probe pid
    else .refuse (store.crossHostError host pid)

/-- Where an instance of the store stands with its lease. -/
inductive Stage
  /-- It has no guard; its last `acquire` may have failed. -/
  | idle (failure : Option Error)
  /-- Registered in its process, to open the lock file with `create_new`. -/
  | reserved
  /-- The file is its own and has still to be written, or to be synced. -/
  | creating (inode : ℕ) (rest : List Char)
  /-- The file was there and has to be read. -/
  | existing
  /-- Another process of its host was named there. -/
  | found (pid : UInt32)
  /-- That process was not there; the file is to be replaced. -/
  | stale
  /-- Replaced, to be read again. -/
  | renamed
  /-- It has the guard, and so many of its writes have been verified and not made. -/
  | held (writers : ℕ)
  /-- The guard is dropped and out of the registry, the file is still to be removed. -/
  | removing
  deriving DecidableEq

inductive Life
  | unborn | alive | dead
  deriving DecidableEq
section
variable {ι π : Type*} [DecidableEq ι] [DecidableEq π]

/-- The lock file with the contents of the files, the registry of each process, and where each
instance stands. -/
structure LeaseState (ι π : Type*) where
  lockFile : Option ℕ
  contents : ℕ → String
  nextInode : ℕ
  life : π → Life
  refs : π → ℕ
  stage : ι → Stage

/-- One operation of an instance, with what the file system or `ps` answers. -/
inductive LeaseOp (ι π : Type*)
  | spawn (p : π)
  | crash (p : π)
  | reserve (i : ι)
  | createNew (i : ι)
  | write (i : ι) (count : ℕ)
  | sync (i : ι)
  | fail (i : ι) (e : Error)
  | read (i : ι) (readable : Bool)
  | isPidAlive (i : ι) (alive : Bool)
  | rename (i : ι)
  | reread (i : ι) (readable : Bool)
  | verify (i : ι) (failure : Option Error)
  | writeStore (i : ι)
  | drop (i : ι)
  | remove (i : ι) (removed : Bool)

namespace LeaseState
section
variable (s : LeaseState ι π)

def lease : Option String := s.lockFile.map s.contents
def setStage (i : ι) (stage : Stage) : LeaseState ι π := {s with stage := update s.stage i stage}

def readLock : Option Error → ReadAnswer
  | some e => .failed e
  | none =>
    match s.lease with
    | some raw => .contents raw
    | none => .notFound
end
variable (store : Store) (who : π → Identity) (home : ι → π) (s : LeaseState ι π)

def decrementLeaseRef (p : π) : LeaseState ι π := {s with refs := update s.refs p (s.refs p-1)}

/-- `acquire` returns an error: the registration is given up. -/
def refuse (i : ι) (e : Error) : LeaseState ι π := (s.decrementLeaseRef (home i)).setStage i (.idle (some e))

def reserveInProcess (i : ι) : LeaseState ι π :=
  if 0 < s.refs (home i) then s.setStage i (.idle (some store.reservedError))
  else {s with refs := update s.refs (home i) 1}.setStage i .reserved

def placeFile (text : String) : LeaseState ι π := {s with
    lockFile := some s.nextInode
    contents := update s.contents s.nextInode text
    nextInode := s.nextInode+1}

/-- More of a file through the handle that created it, whatever the path names by now. -/
def append (inode : ℕ) (text : List Char) : LeaseState ι π :=
  {s with contents := update s.contents inode (s.contents inode++String.ofList text)}

def follow (i : ι) : Decision → LeaseState ι π
  | .reentrant => s.setStage i (.held 0)
  | .probe pid => s.setStage i (.found pid)
  | .refuse e => s.refuse home i e

/-- One operation.  One that is not the instance's next does nothing. -/
def step : LeaseOp ι π → LeaseState ι π
  | .spawn p => if s.life p = .unborn then {s with life := update s.life p .alive} else s
  | .crash p =>
    {s with
      life := update s.life p .dead
      refs := update s.refs p 0
      stage := fun i => if home i = p then .idle none else s.stage i}
  | .reserve i =>
    match s.life (home i),s.stage i with
    | .alive,.idle _ => s.reserveInProcess store home i
    | _,_ => s
  | .createNew i =>
    match s.stage i,s.lockFile with
    | .reserved,none =>
      (s.placeFile "").setStage i (.creating s.nextInode (who (home i)).token.toList)
    | .reserved,some _ => s.setStage i .existing
    | _,_ => s
  | .write i count =>
    match s.stage i with
    | .creating inode rest =>
      (s.append inode (rest.take count)).setStage i (.creating inode (rest.drop count))
    | _ => s
  | .sync i =>
    match s.stage i with
    | .creating _ [] => s.setStage i (.held 0)
    | _ => s
  | .fail i e =>
    match s.stage i with
    | .reserved | .creating _ _ | .stale => s.refuse home i e
    | _ => s
  | .read i readable =>
    match s.stage i with
    | .existing => s.follow home i (decision store (who (home i))
        (if readable then (s.readLock none).orEmpty else ""))
    | _ => s
  | .isPidAlive i alive =>
    match s.stage i with
    | .found _ => if alive then s.refuse home i store.heldError else s.setStage i .stale
    | _ => s
  | .rename i =>
    match s.stage i with
    | .stale => (s.placeFile (who (home i)).token).setStage i .renamed
    | _ => s
  | .reread i readable =>
    match s.stage i with
    | .renamed =>
      if parseLease (if readable then (s.readLock none).orEmpty else "") =
          some ((who (home i)).host,(who (home i)).pid) then s.setStage i (.held 0)
      else s.refuse home i store.lostRaceError
    | _ => s
  | .verify i failure =>
    match s.stage i with
    | .held writers =>
      match verifyStillHeld store (who (home i)).token (s.readLock failure) with
      | .ok _ => s.setStage i (.held (writers+1))
      | .error _ => s
    | _ => s
  | .writeStore i =>
    match s.stage i with
    | .held (writers+1) => s.setStage i (.held writers)
    | _ => s
  | .drop i =>
    match s.stage i with
    | .held 0 => (s.decrementLeaseRef (home i)).setStage i (if s.refs (home i)-1 = 0 then .removing else .idle none)
    | _ => s
  | .remove i removed =>
    match s.stage i with
    | .removing => (if removed then {s with lockFile := none} else s).setStage i (.idle none)
    | _ => s
end LeaseState
end
end Rustcdc.OwnerLease
