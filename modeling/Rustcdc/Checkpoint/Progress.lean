import Rustcdc.Checkpoint.FileSpec
import Rustcdc.Source.Sqlserver.Lsn

/-! The order of the positions that a store accepts.  Binlog coordinates and commit LSNs are compared
in the order of their logs; a PostgreSQL LSN is only refused when it falls to zero, and a position with
a GTID is not compared. -/
namespace Rustcdc
open List Machine Offset

lemma toDigits_wellFormed (n : ℕ) : Nat.toDigits 10 n ≠ [] ∧ (Nat.toDigits 10 n).all isNumberChar = true := by
  refine ⟨Nat.toDigits_ne_nil,?_⟩
  rw [all_eq_true]
  intro c hc
  simp [isNumberChar,Nat.isDigit_of_mem_toDigits (by decide) (by decide) hc]

/-- An unsigned integer as a JSON number. -/
def Json.ofNat (n : ℕ) : Json := .num ⟨Nat.toDigits 10 n,toDigits_wellFormed n⟩

lemma digitsValue_toDigits (n : ℕ) : digitsValue (Nat.toDigits 10 n) = n :=
  Nat.ofDigitChars_toDigits (by decide) (by decide)

lemma Json.asU64_ofNat {n : ℕ} (hn : n < 2^64) : (Json.ofNat n).asU64 = some n := by
  have hd : allDigits (Nat.toDigits 10 n) = true := by
    have ha : (Nat.toDigits 10 n).all Char.isDigit = true := by
      rw [all_eq_true]
      exact fun c hc => Nat.isDigit_of_mem_toDigits (by decide) (by decide) hc
    simp [allDigits,ha,Nat.toDigits_ne_nil]
  rw [Json.ofNat,Json.asU64,hd,digitsValue_toDigits,Bool.true_and,if_pos (by simpa using hn)]

/-- The payloads of what an offset takes as it is: the state of an incremental snapshot, and the
progress of a bulk snapshot, which has a source type of its own. -/
structure Encoders where
  incremental : IncrementalSnapshotState → Json
  snapshot : Offset → Json

namespace Offset
variable (enc : Encoders)

def withIncremental (incremental : Option IncrementalSnapshotState) (fields : List (String × Json)) :
    List (String × Json) :=
  CapturedDdl.withField "incremental_snapshot" (incremental.map enc.incremental) fields

/-- `Offset::encode`, as the value it is stored as. -/
def payload : Offset → Json
  | .postgres lsn slotName incremental => .obj (withIncremental enc incremental
      [("lsn",.ofNat lsn.toNat),("slot_name",.str slotName)])
  | .mysql _ flavor binlogFile binlogPos gtid incremental => .obj (withIncremental enc incremental
      [("binlog_file",.str binlogFile),("binlog_pos",.ofNat binlogPos.toNat),("gtid",.str gtid),
        ("source_flavor",.str flavor)])
  | .sqlserver position incremental => .obj (withIncremental enc incremental [("cursor",.str position)])
  | .generic _ value => .str value
  | offset => enc.snapshot offset

variable {enc}

lemma get_withIncremental {key : String} (hk : key ≠ "incremental_snapshot")
    (inc : Option IncrementalSnapshotState) (fs : List (String × Json)) :
    (Json.obj (withIncremental enc inc fs)).get key = fs.lookup key := by
  cases inc with
  | none => rfl
  | some => exact Json.lookup_insertField_ne hk _ _
end Offset
section
open Sqlserver (lsnBytesToHex lsnBound lsnBytesToHex_le_iff colon_not_mem_hex)

/-- A binlog file name: a sequence number of any width behind the last dot. -/
def binlogName (base : String) (width sequence : ℕ) : String :=
  String.ofList (base.toList++ '.'::padZeros width (formatNat 10 sequence))

/-- A SQL Server cursor: the commit LSN, and the place in it if there is one. -/
def cursorText (lsn : ℕ) : Option String → String
  | none => lsnBytesToHex lsn
  | some within => String.ofList ((lsnBytesToHex lsn).toList++ ':'::within.toList)

/-- The place of an offset in the log of its source, in the forms that are compared. -/
inductive Placed : String → Offset → ℕ ×ₗ ℕ → Prop
  | binlog {sourceType : String} (mysql : sourceType = "mysql" ∨ sourceType = "mariadb")
      (base : String) (width : ℕ) {sequence : ℕ} (fits : sequence < 2^64) (position : UInt32)
      (incremental : Option IncrementalSnapshotState) :
      Placed sourceType (.mysql sourceType sourceType (binlogName base width sequence) position ""
        incremental) (toLex (sequence,position.toNat))
  | cdc {lsn : ℕ} (fits : lsn < lsnBound) (within : Option String)
      (incremental : Option IncrementalSnapshotState) :
      Placed "sqlserver" (.sqlserver (cursorText lsn within) incremental) (toLex (lsn,0))

variable {enc : Encoders}

lemma binlogCoordinate_payload (sourceType flavor base : String) (w : ℕ) {sequence : ℕ}
    (hf : sequence < 2^64) (p : UInt32) (g : String)
    (inc : Option IncrementalSnapshotState) :
    binlogCoordinate (payload enc (.mysql sourceType flavor (binlogName base w sequence)
      p g inc)) = some (sequence,p.toNat) := by
  have hp : p.toNat < 2^32 := p.toNat_lt
  have hn : fromStrRadix 10 (2^64) (padZeros w (formatNat 10 sequence)) = .ok sequence :=
    fromStrRadix_pad (by decide) w (by omega) hf
  have hpa := rsplitOnce_append (not_mem_padZeros (c := '.') (by decide) w sequence) base.toList
  have hfi : ((payload enc (.mysql sourceType flavor (binlogName base w sequence)
      p g inc)).get "binlog_file").bind (·.asStr) = some (binlogName base w sequence) := by
    rw [payload,get_withIncremental (by decide)]
    rfl
  have hpo : ((payload enc (.mysql sourceType flavor (binlogName base w sequence)
      p g inc)).get "binlog_pos").bind (·.asU64) = some p.toNat := by
    rw [payload,get_withIncremental (by decide)]
    exact Json.asU64_ofNat (by omega)
  rw [binlogCoordinate,hfi,hpo]
  simp only [Option.bind_some,binlogName,String.toList_ofList,hpa,hn,Except.toOption,if_pos hp]

lemma cdcCursorLsn_payload (lsn : ℕ) (within : Option String) (inc : Option IncrementalSnapshotState) :
    cdcCursorLsn (payload enc (.sqlserver (cursorText lsn within) inc)) = some (lsnBytesToHex lsn) := by
  rw [cdcCursorLsn,payload,get_withIncremental (by decide)]
  cases within with
  | none => simp [List.lookup,Json.asStr,cursorText,splitOnce_none (colon_not_mem_hex lsn)]
  | some =>
    simp [List.lookup,Json.asStr,cursorText,splitOnce_append (colon_not_mem_hex lsn)]

variable {sourceType : String}

lemma regression_mysql (hm : sourceType = "mysql" ∨ sourceType = "mariadb") (ex next : Json) :
    streamPositionRegression sourceType ex next = binlogRegression ex next := by
  rcases hm with rfl | rfl <;> rfl
lemma ite_some_eq_none {p : Prop} [Decidable p] (te : String) : (if p then some te else none) = none ↔ ¬p := by
  by_cases h : p <;> simp [h]

/-- The places of two offsets of one source decide whether the second is behind. -/
theorem Placed.regression_none {a b : Offset} {p q : ℕ ×ₗ ℕ} (ha : Placed sourceType a p)
    (hb : Placed sourceType b q) :
    streamPositionRegression sourceType (a.payload enc) (b.payload enc) = none ↔ p ≤ q := by
  cases ha with
  | @binlog _ hm base w sequence hfi po incremental =>
    cases hb with
    | @binlog _ _ base' w' sequence' hfi' po' incremental' =>
      rw [regression_mysql hm,binlogRegression,binlogCoordinate_payload _ _ base w hfi,
        binlogCoordinate_payload _ _ base' w' hfi']
      have hg : ((payload enc (.mysql sourceType sourceType
          (binlogName base' w' sequence') po' "" incremental')).get "gtid").bind (·.asStr) = some "" := by
        rw [payload,get_withIncremental (by decide)]
        rfl
      have hf : ∀ name w n pos inc, (payload enc (.mysql sourceType sourceType
          (binlogName name w n) pos "" inc)).get "source_flavor" = some (.str sourceType) := by
        intro name w n pos inc
        rw [payload,get_withIncremental (by decide)]
        rfl
      have he : ("" : String).isEmpty = true := rfl
      rw [hg,hf,hf]
      simp only [Option.any_some,he,Bool.not_true,Bool.false_eq_true,if_false,ne_eq,
        not_true_eq_false,Option.bind_some,ite_some_eq_none,Prod.Lex.toLex_le_toLex]
      omega
    | cdc => simp at hm
  | @cdc lsn hfi within incremental =>
    cases hb with
    | binlog hm => simp at hm
    | @cdc lsn' hfi' within' incremental' =>
      have hs : ∀ existing next : Json, streamPositionRegression "sqlserver" existing next =
          sqlserverRegression existing next := fun _ _ => rfl
      rw [hs,sqlserverRegression,cdcCursorLsn_payload,cdcCursorLsn_payload]
      simp only [Option.bind_some,ite_some_eq_none,Prod.Lex.toLex_le_toLex]
      rw [String.not_lt,lsnBytesToHex_le_iff hfi hfi']
      omega

/-- The place of a SQL Server cursor, saved as an object or as a text alone. -/
inductive PlacedCursor : Offset → ℕ ×ₗ ℕ → Prop
  | object {offset : Offset} {p : ℕ ×ₗ ℕ} (placed : Placed "sqlserver" offset p) : PlacedCursor offset p
  | text (sourceType : String) (lsn : ℕ) (within : Option String) :
      PlacedCursor (.generic sourceType (cursorText lsn within)) (toLex (lsn,0))

/-- The place of the second offset is not before that of the first in the log order, or it is a MySQL
position with a GTID, which goes uncompared. -/
inductive NotBehind : String → Offset → Offset → Prop
  | placed {sourceType : String} {a b : Offset} {p q : ℕ ×ₗ ℕ} (before : Placed sourceType a p)
      (after : Placed sourceType b q) (ordered : p ≤ q) : NotBehind sourceType a b
  | gtid {sourceType : String} (mysql : sourceType = "mysql" ∨ sourceType = "mariadb") (a : Offset)
      (flavor binlogFile : String) (binlogPos : UInt32) {gtid : String} (some : gtid ≠ "")
      (incremental : Option IncrementalSnapshotState) :
      NotBehind sourceType a (.mysql sourceType flavor binlogFile binlogPos gtid incremental)
  | postgres {before after : UInt64} (ordered : before ≤ after) (slot slot' : String)
      (incremental incremental' : Option IncrementalSnapshotState) :
      NotBehind "postgres" (.postgres before slot incremental) (.postgres after slot' incremental')
  | cursor {a b : Offset} {p q : ℕ ×ₗ ℕ} (before : PlacedCursor a p) (after : PlacedCursor b q) (ordered : p ≤ q) :
      NotBehind "sqlserver" a b

lemma postgresRegression_payload (before after : UInt64) (slot slot' : String)
    (incremental incremental' : Option IncrementalSnapshotState) :
    postgresRegression (payload enc (.postgres before slot incremental))
      (payload enc (.postgres after slot' incremental')) =
        if slot = slot' ∧ after = 0 ∧ 0 < before then
          some ("postgres LSN "++natText before.toNat++" → 0") else none := by
  have hs : ∀ lsn slot inc, (payload enc (.postgres lsn slot inc)).get "slot_name" = some (.str slot) := by
    intro lsn slot inc
    rw [payload,get_withIncremental (by decide)]
    rfl
  have hl : ∀ (lsn : UInt64) slot inc, ((payload enc (.postgres lsn slot inc)).get
      "lsn").bind (·.asU64) = some lsn.toNat := by
    intro lsn slot inc
    rw [payload,get_withIncremental (by decide)]
    exact Json.asU64_ofNat lsn.toNat_lt
  rw [postgresRegression,hs,hs,hl,hl]
  by_cases hsa : slot = slot'
  · have hz : after.toNat = 0 ↔ after = 0 := UInt64.toNat_inj (b := 0)
    have hp : 0 < before.toNat ↔ 0 < before := by
      rfl
    simp [hsa,hz,hp]
  · simp [hsa]

lemma NotBehind.regression_none {a b : Offset} (h : NotBehind sourceType a b) :
    streamPositionRegression sourceType (a.payload enc) (b.payload enc) = none := by
  cases h with
  | placed hb ha ho => exact (hb.regression_none ha).mpr ho
  | @gtid _ hm _ flavor bf bp gtid hs inc =>
    have hg : ((payload enc (.mysql sourceType flavor bf bp gtid inc)).get "gtid").bind (·.asStr) = some gtid := by
      rw [payload,get_withIncremental (by decide)]
      rfl
    rw [regression_mysql hm,binlogRegression,hg,if_pos]
    simpa using hs
  | @postgres bef af ho slot slot' inc inc' =>
    have hp : ∀ ex next : Json, streamPositionRegression "postgres" ex next =
        postgresRegression ex next := fun _ _ => rfl
    rw [hp,postgresRegression_payload,if_neg]
    rintro ⟨_,rfl,hpo⟩
    exact absurd ho (UInt64.not_le.mpr hpo)
  | cursor hb ha ho =>
    cases hb with
    | text => rfl
    | object hb =>
      cases ha with
      | object ha => exact (hb.regression_none ha).mpr ho
      | text =>
        show (cdcCursorLsn (a.payload enc)).bind _ = none
        cases cdcCursorLsn (a.payload enc) <;> rfl
end
namespace FileCheckpoint
section
variable {st : String} {count c : UInt64} {e n : Json}

lemma validated_regression (h : validateCheckpointProgress (some ⟨st,count,e⟩) ⟨st,c,n⟩ = .ok ()) :
    streamPositionRegression st e n = none := by
  rw [validateCheckpointProgress] at h
  split at h
  · cases h
  · split at h
    · cases h
    · split at h
      · assumption
      · cases h

lemma validated_of_regression (hc : count < c) (hp : streamPositionRegression st e n = none) :
    validateCheckpointProgress (some ⟨st,count,e⟩) ⟨st,c,n⟩ = .ok () := by
  have hn : ¬c < count := fun h => UInt64.lt_asymm hc h
  have hne : ¬(count = c ∧ e ≠ n) := fun h =>
    UInt64.lt_irrefl c (h.1 ▸ hc)
  simp [validateCheckpointProgress,hn,hne,hp]
end
section
variable (sha256 : Digest) (enc : Encoders) (sourceType : String)

structure OffsetSave where
  offset : Offset
  count : UInt64
  answer : SaveAnswer

def OffsetSave.toSave (s : OffsetSave) : Save := ⟨sourceType,s.offset.payload enc,s.count,s.answer⟩

/-- The file of a source type. -/
def stored (store : FileCheckpoint) : Option CheckpointFile := store.files.find? (·.name = checkpointName sourceType)

/-- The store, with the offsets whose saves it accepted. -/
structure SaveTrace where
  store : FileCheckpoint
  accepted : List Offset

def SaveTrace.save (t : SaveTrace) (s : OffsetSave) : SaveTrace :=
  match t.store.save sha256 sourceType (s.offset.payload enc) s.count s.answer with
  | (store,.ok ()) => ⟨store,t.accepted++[s.offset]⟩
  | (store,.error _) => ⟨store,t.accepted⟩

inductive Saved (t : SaveTrace) (s : OffsetSave) : SaveTrace → Prop
  | refused : Saved t s t
  | written (modified : ℕ) (more : List Offset) (accepted : more = [] ∨ more = [s.offset])
      (valid : t.store.validateMonotonicProgress sha256 sourceType
        ((s.toSave enc sourceType).record sha256) = .ok ()) :
      Saved t s ⟨t.store.replaceFile ((s.toSave enc sourceType).file sha256 t.store.fileMode modified),
        t.accepted++more⟩

lemma save_saved (t : SaveTrace) (s : OffsetSave) :
    Saved sha256 enc sourceType t s (t.save sha256 enc sourceType s) := by
  have he := save_effect sha256 t.store (s.toSave enc sourceType)
  rw [SaveTrace.save]
  simp only [OffsetSave.toSave] at he
  generalize t.store.save sha256 sourceType (s.offset.payload enc) s.count s.answer = result at he ⊢
  cases he with
  | refused => exact .refused
  | written m hwr hv =>
    cases s.answer.sync with
    | ok => exact .written m _ (Or.inr rfl) hv
    | error =>
      have hw := Saved.written (t := t) m [] (Or.inl rfl) hv
      rwa [append_nil] at hw

variable {sha256 enc sourceType} {file : CheckpointFile} {store₀ : FileCheckpoint} {saves : List OffsetSave}

lemma stored_replaceFile (store : FileCheckpoint) (hn : file.name = checkpointName sourceType) :
    stored sourceType (store.replaceFile file) = some file := by
  rw [stored,replaceFile,List.find?_append]
  have ho : (store.files.filter (·.name ≠ file.name)).find? (·.name = checkpointName sourceType) =
      none := by
    rw [List.find?_eq_none]
    intro o hot
    have hne := (mem_filter.mp hot).2
    simpa [← hn] using hne
  rw [ho]
  simp [hn]

variable {store : FileCheckpoint} {s : OffsetSave} {t : SaveTrace}

lemma validated_stored {ne : FileCheckpointRecord} (hs : stored sourceType store = some file)
    (hv : store.validateMonotonicProgress sha256 sourceType ne = .ok ()) :
    validateCheckpointProgress (some ⟨file.record.sourceType,file.record.committedEventCount,file.record.offset⟩)
      ⟨ne.sourceType,ne.committedEventCount,ne.offset⟩ = .ok () := by
  rw [stored] at hs
  rw [validateMonotonicProgress,hs] at hv
  simp only at hv
  split at hv
  · cases hv
  · rename_i existing hr
    have hsa : existing = file.record := by
      rw [readRecord] at hr
      split at hr
      · cases hr
      · split at hr
        · cases hr
        · cases hc : file.record.verifyChecksum sha256 (store.pathOf file.name) with
          | error =>
            rw [hc] at hr
            cases hr
          | ok =>
            rw [hc] at hr
            exact (Except.ok.inj hr).symm
    rw [hsa] at hv
    exact hv

/-- The accepted offsets are in the order of the log, up to the one that is stored. -/
structure Ordered (sha256 : Digest) (enc : Encoders) (sourceType : String) (t : SaveTrace)
    (places : List (ℕ ×ₗ ℕ)) : Prop where
  accepted : List.Forall₂ (Placed sourceType) t.accepted places
  sorted : places.Pairwise (· ≤ ·)
  fresh : stored sourceType t.store = none → places = []
  latest : ∀ file, stored sourceType t.store = some file → ∃ offset place count,
    file.record = .new sha256 sourceType count (offset.payload enc) ∧
      Placed sourceType offset place ∧ ∀ earlier ∈ places, earlier ≤ place

lemma Ordered.save {places : List (ℕ ×ₗ ℕ)} (ho : Ordered sha256 enc sourceType t places)
    {place : ℕ ×ₗ ℕ} (hp : Placed sourceType s.offset place) :
    ∃ places', Ordered sha256 enc sourceType (t.save sha256 enc sourceType s) places' := by
  have hsa := save_saved sha256 enc sourceType t s
  generalize t.save sha256 enc sourceType s = t' at hsa
  cases hsa with
  | refused => exact ⟨places,ho⟩
  | written m mo hm hva =>
    have hb : ∀ ea ∈ places, ea ≤ place := by
      intro ea he
      cases hs : stored sourceType t.store with
      | none =>
        rw [ho.fresh hs] at he
        cases he
      | some file =>
        obtain ⟨o,l,count,hr,hla,hb⟩ := ho.latest file hs
        have hv := validated_stored hs hva
        rw [hr] at hv
        exact (hb ea he).trans ((hla.regression_none hp).mp (validated_regression hv))
    have hs : stored sourceType (t.store.replaceFile
        ((s.toSave enc sourceType).file sha256 t.store.fileMode m)) = some _ :=
      stored_replaceFile t.store rfl
    have hl : ∀ places' : List (ℕ ×ₗ ℕ), (∀ ea ∈ places', ea ≤ place) → ∀ file, stored sourceType (t.store.replaceFile
          ((s.toSave enc sourceType).file sha256 t.store.fileMode m)) = some file →
        ∃ o place count, file.record = .new sha256 sourceType count (o.payload enc) ∧
          Placed sourceType o place ∧ ∀ ea ∈ places', ea ≤ place := by
      intro places' hb' file hf
      obtain rfl := Option.some.inj (hs.symm.trans hf)
      exact ⟨s.offset,place,s.count,rfl,hp,hb'⟩
    rcases hm with rfl | rfl
    · refine ⟨places,?_,ho.sorted,?_,hl places hb⟩
      · simpa using ho.accepted
      · intro hn
        cases hs.symm.trans hn
    · refine ⟨places++[place],?_,?_,?_,hl _ ?_⟩
      · exact rel_append ho.accepted (.cons hp .nil)
      · rw [pairwise_append]
        refine ⟨ho.sorted,pairwise_singleton _ _,fun ea he l hla => ?_⟩
        rw [mem_singleton.mp hla]
        exact hb ea he
      · intro hn
        cases hs.symm.trans hn
      · intro ea he
        rcases mem_append.mp he with hbe | hla
        · exact hb ea hbe
        · rw [mem_singleton.mp hla]

/-- The save whose record the store holds. -/
def HeldBy (sha256 : Digest) (enc : Encoders) (sourceType : String) (store : FileCheckpoint)
    (s : OffsetSave) : Prop :=
  (stored sourceType store).map (·.record) = some ((s.toSave enc sourceType).record sha256)

/-- The store is as it was set up, with a file that one of the saves wrote. -/
structure Wrote (sha256 : Digest) (enc : Encoders) (sourceType : String) (saves : List OffsetSave)
    (store₀ : FileCheckpoint) (t : SaveTrace) : Prop where
  readOnly : t.store.readOnly = store₀.readOnly
  fileMode : t.store.fileMode = store₀.fileMode
  file : ∀ file, stored sourceType t.store = some file → ∃ s ∈ saves, ∃ modified,
    file = (s.toSave enc sourceType).file sha256 store₀.fileMode modified

lemma Wrote.save (hw : Wrote sha256 enc sourceType saves store₀ t) (hs : s ∈ saves) :
    Wrote sha256 enc sourceType saves store₀ (t.save sha256 enc sourceType s) := by
  have hsa := save_saved sha256 enc sourceType t s
  generalize t.save sha256 enc sourceType s = t' at hsa
  cases hsa with
  | refused => exact hw
  | written m =>
    refine ⟨hw.readOnly,hw.fileMode,fun file hf => ⟨s,hs,m,?_⟩⟩
    have hst : stored sourceType (t.store.replaceFile
        ((s.toSave enc sourceType).file sha256 t.store.fileMode m)) = some _ :=
      stored_replaceFile t.store rfl
    rw [← hw.fileMode]
    exact Option.some.inj (hf.symm.trans hst)

/-- The operating system does what a save asks for. -/
structure OffsetSave.Answered (s : OffsetSave) : Prop where
  lease : s.answer.lease = .ok ()
  write : ∃ modified, s.answer.write = .ok modified
  sync : s.answer.sync = .ok ()

lemma accepted_of_valid (ha : s.Answered) (hw : store.readOnly = false)
    (hv : store.validateMonotonicProgress sha256 sourceType ((s.toSave enc sourceType).record sha256) = .ok ()) :
    Accepted sha256 store (s.toSave enc sourceType) := by
  obtain ⟨m,hwr⟩ := ha.write
  have hr : store.validateMonotonicProgress sha256 sourceType
      (.new sha256 sourceType s.count (s.offset.payload enc)) = .ok () := hv
  simp only [Accepted,OffsetSave.toSave,save,saveBlocking,hw,Bool.false_eq_true,if_false,ha.lease,hr,hwr]
  exact ha.sync

lemma readRecord_file (store : FileCheckpoint) {s : Save} {mode : UInt32} (m : ℕ) (hs : secureMode mode = true) :
    store.readRecord sha256 (s.file sha256 mode m) = .ok (s.record sha256) :=
  readRecord_intact ⟨rfl,rfl,hs,rfl,rfl⟩ store

lemma Wrote.valid (hw : Wrote sha256 enc sourceType saves store₀ t) (hse : secureMode store₀.fileMode = true)
    (ha : ∀ b ∈ saves, HeldBy sha256 enc sourceType t.store b →
      b.count < s.count ∧ NotBehind sourceType b.offset s.offset) :
    t.store.validateMonotonicProgress sha256 sourceType ((s.toSave enc sourceType).record sha256) = .ok () := by
  cases hs : stored sourceType t.store with
  | none =>
    rw [stored] at hs
    rw [validateMonotonicProgress,hs]
  | some file =>
    obtain ⟨b,hb,m,rfl⟩ := hw.file file hs
    obtain ⟨hc,hp⟩ := ha b hb (by rw [HeldBy,hs]; rfl)
    rw [stored] at hs
    rw [validateMonotonicProgress,hs]
    simp only [readRecord_file t.store m hse]
    exact validated_of_regression hc hp.regression_none

/-- The stored LSN is zero when an LSN of zero is accepted for its slot. -/
theorem zero_of_accepted {b : OffsetSave} {lsn : UInt64} {slot : String} {inc inc' : Option IncrementalSnapshotState}
    (hh : HeldBy sha256 enc "postgres" store b)
    (hb : b.offset = .postgres lsn slot inc)
    (hs : s.offset = .postgres 0 slot inc')
    (ha : Accepted sha256 store (s.toSave enc "postgres")) : lsn = 0 := by
  obtain ⟨file,hst,hre⟩ := Option.map_eq_some_iff.mp hh
  have he := save_effect sha256 store (s.toSave enc "postgres")
  rw [Accepted] at ha
  generalize store.save sha256 _ _ _ _ = result at he ha
  cases he with
  | refused => cases ha
  | written m hw hva =>
    have hv := validated_stored hst hva
    rw [hre] at hv
    have hn := validated_regression hv
    have hr : postgresRegression (b.offset.payload enc) (s.offset.payload enc) = none := hn
    rw [hb,hs,postgresRegression_payload,ite_some_eq_none] at hr
    by_contra hl
    exact hr ⟨rfl,rfl,UInt64.pos_iff_ne_zero.mpr hl⟩

/-- In every sequence of saves for one source type, the positions that the store accepts are in the
order of the log if they are in a form that is compared.  A save with a higher count that is not behind
the record it replaces is accepted, an LSN of zero only over zero. -/
theorem accepted_in_log_order (sha256 : Digest) (enc : Encoders) (sourceType : String)
    (store : FileCheckpoint) (saves : List OffsetSave) (hfresh : stored sourceType store = none) :
    let t := run (SaveTrace.save sha256 enc sourceType) ⟨store,[]⟩ saves
    ((∀ s ∈ saves, ∃ place, Placed sourceType s.offset place) →
      ∃ places, List.Forall₂ (Placed sourceType) t.accepted places ∧ places.Pairwise (· ≤ ·)) ∧
    (store.readOnly = false → secureMode store.fileMode = true → ∀ s : OffsetSave, s.Answered →
      (∀ before ∈ saves, HeldBy sha256 enc sourceType t.store before →
        before.count < s.count ∧ NotBehind sourceType before.offset s.offset) →
      Accepted sha256 t.store (s.toSave enc sourceType)) ∧
    (sourceType = "postgres" → ∀ (before s : OffsetSave) (lsn : UInt64) (slot : String)
      (incremental incremental' : Option IncrementalSnapshotState),
      HeldBy sha256 enc sourceType t.store before → before.offset = .postgres lsn slot incremental →
        s.offset = .postgres 0 slot incremental' → Accepted sha256 t.store (s.toSave enc sourceType) → lsn = 0) := by
  intro t
  have hal : Meets (SaveTrace.save sha256 enc sourceType) (fun _ s => s ∈ saves) ⟨store,[]⟩
      saves := meets_of_forall _ (fun s hs => hs) _
  refine ⟨fun hp => ?_,fun hwr hse s ha haf => ?_,?_⟩
  · have ho : ∃ places, Ordered sha256 enc sourceType t places := by
      refine run_invariant_of_meets _
        (P := fun t : SaveTrace => ∃ places, Ordered sha256 enc sourceType t places) ?_ ?_ hal
      · rintro t s ⟨places,ho⟩ hs
        obtain ⟨place,hpl⟩ := hp s hs
        exact ho.save hpl
      · refine ⟨[],.nil,.nil,fun _ => rfl,fun file hf => ?_⟩
        cases hfresh.symm.trans hf
    obtain ⟨places,ho⟩ := ho
    exact ⟨places,ho.accepted,ho.sorted⟩
  · have hw : Wrote sha256 enc sourceType saves store t := by
      refine run_invariant_of_meets _ (P := fun t : SaveTrace => Wrote sha256 enc sourceType saves store t)
        (fun t s hw hs => hw.save hs) ⟨rfl,rfl,fun file hf => ?_⟩ hal
      cases hfresh.symm.trans hf
    exact accepted_of_valid ha (hw.readOnly.trans hwr) (hw.valid hse haf)
  · rintro rfl before s lsn slot incremental incremental' hh hb hs hac
    exact zero_of_accepted hh hb hs hac

/-- A MySQL position in a binlog file with a six-digit number. -/
def binlogSave (sequence : ℕ) (position : UInt32) (count : UInt64) : OffsetSave :=
  ⟨.mysql "mysql" "mysql" (binlogName "binlog" 6 sequence) position "" none,count,⟨.ok (),.ok 0,.ok ()⟩⟩

def plainEncoders : Encoders := ⟨fun _ => .null,fun _ => .null⟩
lemma binlogSave_placed {sq : ℕ} (hf : sq < 2^64) (p : UInt32) (count : UInt64) :
    Placed "mysql" (binlogSave sq p count).offset (toLex (sq,p.toNat)) :=
  .binlog (Or.inl rfl) "binlog" 6 hf p none

theorem accepted_in_log_order_sample : stored "mysql" emptyStore = none ∧
      (∃ places, List.Forall₂ (Placed "mysql") (run
        (SaveTrace.save (fun _ => "") plainEncoders "mysql") ⟨emptyStore,[]⟩
        [binlogSave 9 700 1,binlogSave 10 4 2]).accepted places ∧ places.Pairwise (· ≤ ·)) ∧
      Accepted (fun _ => "") (run (SaveTrace.save (fun _ => "") plainEncoders "mysql") ⟨emptyStore,[]⟩
        [binlogSave 9 700 1,binlogSave 10 4 2]).store ((binlogSave 10 90 3).toSave plainEncoders "mysql") := by
  have ho := accepted_in_log_order (fun _ => "") plainEncoders "mysql" emptyStore
    [binlogSave 9 700 1,binlogSave 10 4 2] rfl
  refine ⟨rfl,ho.1 ?_,ho.2.1 rfl (by decide) _ ⟨rfl,⟨0,rfl⟩,rfl⟩ ?_⟩
  · intro s hs
    simp only [List.mem_cons,List.not_mem_nil,or_false] at hs
    rcases hs with rfl | rfl
    · exact ⟨_,binlogSave_placed (by decide) 700 1⟩
    · exact ⟨_,binlogSave_placed (by decide) 4 2⟩
  · intro before hb _
    simp only [List.mem_cons,List.not_mem_nil,or_false] at hb
    rcases hb with rfl | rfl
    · exact ⟨by decide,.placed (binlogSave_placed (by decide) 700 1) (binlogSave_placed (by decide) 90 3) (by decide)⟩
    · exact ⟨by decide,.placed (binlogSave_placed (by decide) 4 2) (binlogSave_placed (by decide) 90 3) (by decide)⟩

/-- A PostgreSQL position with a lower LSN and a higher count is accepted. -/
theorem postgres_moves_back : (run (SaveTrace.save (fun _ => "") plainEncoders "postgres") ⟨emptyStore,[]⟩
      [⟨.postgres 110 "slot" none,1,⟨.ok (),.ok 0,.ok ()⟩⟩,
        ⟨.postgres 100 "slot" none,2,⟨.ok (),.ok 1,.ok ()⟩⟩]).accepted =
      [.postgres 110 "slot" none,.postgres 100 "slot" none] := by
  rfl
end
end FileCheckpoint
end Rustcdc
