import Rustcdc.Checkpoint.File
import Rustcdc.Lib.Run

/-! What the file-backed store finds after a save.  A write is checked against the file of its own
source type; the latest record is picked among all files of the family. -/
namespace Rustcdc
open List Machine
namespace FileCheckpoint
/-- A save call with the answers it gets. -/
structure Save where
  sourceType : String
  offset : Json
  count : UInt64
  answer : SaveAnswer
section
variable {sha256 : Digest} {family : String}

/-- A file that `save` wrote for a source type of the family. -/
structure Intact (sha256 : Digest) (family : String) (file : CheckpointFile) : Prop where
  named : file.name = checkpointName file.record.sourceType
  family : sourceFamily file.record.sourceType = family
  secure : secureMode file.mode = true
  version : file.record.checkpointFormatVersion = fileCheckpointFormatVersion
  checksum : file.record.contentChecksum = file.record.computeChecksum sha256

/-- The directory of one source family, with permissions its reader accepts. -/
structure Clean (sha256 : Digest) (family : String) (store : FileCheckpoint) : Prop where
  secure : secureMode store.fileMode = true
  files : ∀ file ∈ store.files, Intact sha256 family file
  distinct : (store.files.map (·.name)).Nodup

variable {file : CheckpointFile} {f : List CheckpointFile}

lemma readRecord_intact (h : Intact sha256 family file) (store : FileCheckpoint) :
    store.readRecord sha256 file = .ok file.record := by
  simp [readRecord,h.secure,h.version,FileCheckpointRecord.verifyChecksum,h.checksum,Except.map]

lemma mapM_intact (store : FileCheckpoint) (h : ∀ file ∈ f, Intact sha256 family file) :
    f.mapM (store.readRecord sha256) = .ok (f.map (·.record)) := by
  induction f with
  | nil => rfl
  | cons file f ih =>
    obtain ⟨hfi,hf⟩ := forall_mem_cons.mp h
    rw [mapM_cons,readRecord_intact hfi,ih hf]
    rfl

lemma dedup_length_le_one {α : Type} [DecidableEq α] {a : α} {xs : List α} (h : ∀ x ∈ xs, x = a) :
    xs.dedup.length ≤ 1 := by
  have hs : xs.dedup ⊆ [a] := fun x hx => by
    rw [h x (mem_dedup.mp hx)]
    exact mem_singleton_self a
  exact (subperm_of_subset xs.nodup_dedup hs).length_le

lemma loadLatestRecord_clean {store : FileCheckpoint} (h : Clean sha256 family store) :
    store.loadLatestRecord sha256 = .ok ((store.files.insertionSort notAfter).getLast?.map (·.record)) := by
  have hf : ((store.files.map (·.record)).map fun r => sourceFamily r.sourceType).dedup.length ≤ 1 := by
    refine dedup_length_le_one (a := family) fun n hn => ?_
    rw [map_map] at hn
    obtain ⟨file,hfi,rfl⟩ := mem_map.mp hn
    exact (h.files file hfi).family
  rw [loadLatestRecord,mapM_intact store h.files]
  dsimp only
  rw [if_neg (by omega)]

lemma notAfter_total (a b : CheckpointFile) : notAfter a b ∨ notAfter b a := by
  unfold notAfter
  grind
lemma notAfter_trans (a b c : CheckpointFile) (ha : notAfter a b) (hb : notAfter b c) : notAfter a c := by
  unfold notAfter at *
  grind

instance : Std.Total notAfter := ⟨notAfter_total⟩

instance : IsTrans CheckpointFile notAfter := ⟨notAfter_trans⟩

lemma getLast_insertionSort (hm : file ∈ f) (ho : ∀ other ∈ f, other ≠ file → ¬notAfter file other) :
    (f.insertionSort notAfter).getLast? = some file := by
  have hp := perm_insertionSort notAfter f
  have hs := pairwise_insertionSort notAfter f
  cases hl : (f.insertionSort notAfter).getLast? with
  | none =>
    rw [List.getLast?_eq_none_iff] at hl
    rw [hl] at hp
    cases hp.mem_iff.mpr hm
  | some l =>
    obtain ⟨front,hf⟩ := List.getLast?_eq_some_iff.mp hl
    rw [hf] at hp hs
    by_cases he : l = file
    · rw [he]
    · -- then the file is sorted in front of the last one
      have hb : file ∈ front := by
        rcases mem_append.mp (hp.mem_iff.mpr hm) with h | h
        · exact h
        · exact absurd (mem_singleton.mp h).symm he
      have ha := (pairwise_append.mp hs).2.2 file hb l (by simp)
      exact absurd ha (ho l (hp.mem_iff.mp (by simp)) he)
end
section
variable (sha256 : Digest) (store : FileCheckpoint)

def step (s : Save) : FileCheckpoint := (store.save sha256 s.sourceType s.offset s.count s.answer).1
def Save.record (s : Save) : FileCheckpointRecord := .new sha256 s.sourceType s.count s.offset

/-- The file a save leaves when it is written at the given time. -/
def Save.file (s : Save) (mode : UInt32) (modified : ℕ) : CheckpointFile :=
  ⟨checkpointName s.sourceType,modified,mode,s.record sha256⟩

inductive Effect (store : FileCheckpoint) (s : Save) : FileCheckpoint × Except Error Unit → Prop
  | refused (e : Error) : Effect store s (store,.error e)
  | written (modified : ℕ) (hwrite : s.answer.write = .ok modified)
      (hvalid : store.validateMonotonicProgress sha256 s.sourceType (s.record sha256) = .ok ()) :
      Effect store s (store.replaceFile (s.file sha256 store.fileMode modified),s.answer.sync)

lemma save_effect (s : Save) : Effect sha256 store s (store.save sha256 s.sourceType s.offset s.count s.answer) := by
  rw [save,saveBlocking]
  split
  · exact .refused _
  · split
    · exact .refused _
    · split
      · exact .refused _
      · rename_i hv
        split
        · exact .refused _
        · rename_i modified hw
          exact .written modified hw hv

/-- The one file has less progress than the other, or as much and comes first by time or path. -/
def Behind (other file : CheckpointFile) : Prop :=
  other.record.committedEventCount < file.record.committedEventCount ∨
    (other.record.committedEventCount = file.record.committedEventCount ∧
      (other.modified < file.modified ∨ (other.modified = file.modified ∧ other.name < file.name)))

/-- The files of the family's other source types are behind the one the save writes. -/
def Save.Ahead (s : Save) : Prop := ∀ modified, s.answer.write = .ok modified → ∀ other ∈ store.files,
    other.name ≠ checkpointName s.sourceType → Behind other (s.file sha256 store.fileMode modified)

/-- A save for the family that is ahead of what the other source type has stored. -/
def Orderly (family : String) (store : FileCheckpoint) (s : Save) : Prop :=
  sourceFamily s.sourceType = family ∧ s.Ahead sha256 store

def Accepted (s : Save) : Prop := (store.save sha256 s.sourceType s.offset s.count s.answer).2 = .ok ()

variable {sha256} {f : String} {file : CheckpointFile} {store : FileCheckpoint} {s : Save} {count : UInt64}
  {other : CheckpointFile} {sa : List Save}

lemma Behind.not_notAfter (h : Behind other file) : ¬notAfter file other := by
  unfold Behind at h
  unfold notAfter
  grind

lemma Behind.le (h : Behind other file) : other.record.committedEventCount ≤ file.record.committedEventCount := by
  rcases h with hl | ⟨he,_⟩
  · exact UInt64.le_of_lt hl
  · exact UInt64.le_of_eq he
section
variable (h : Clean sha256 f store)
include h

lemma record_intact (hf : sourceFamily s.sourceType = f) (m : ℕ) : Intact sha256 f (s.file sha256 store.fileMode m) :=
  ⟨rfl,hf,h.secure,rfl,rfl⟩

lemma replaceFile_clean (hf : Intact sha256 f file) : Clean sha256 f (store.replaceFile file) := by
  refine ⟨h.secure,fun other ho => ?_,?_⟩
  · rcases mem_append.mp ho with hol | hn
    · exact h.files other (mem_filter.mp hol).1
    · rw [mem_singleton.mp hn]
      exact hf
  · rw [replaceFile,map_append,map_singleton,nodup_append]
    refine ⟨h.distinct.sublist (filter_sublist.map _),by simp,fun n hol n' hn => ?_⟩
    obtain ⟨other,ho,rfl⟩ := mem_map.mp hol
    rw [mem_singleton.mp hn]
    exact of_decide_eq_true (mem_filter.mp ho).2

lemma step_clean (hf : sourceFamily s.sourceType = f) : Clean sha256 f (step sha256 store s) := by
  have he := save_effect sha256 store s
  rw [step]
  generalize store.save sha256 s.sourceType s.offset s.count s.answer = result at he
  cases he with
  | refused => exact h
  | written m => exact replaceFile_clean h (record_intact h hf m)

lemma written_latest (hf : sourceFamily s.sourceType = f) (ha : s.Ahead sha256 store) {m : ℕ}
    (hw : s.answer.write = .ok m) :
    (store.replaceFile (s.file sha256 store.fileMode m)).loadLatestRecord sha256 = .ok (some (s.record sha256)) := by
  have hm : s.file sha256 store.fileMode m ∈ (store.replaceFile (s.file sha256 store.fileMode m)).files :=
    mem_append_right _ (mem_singleton_self _)
  have hl := getLast_insertionSort hm fun other ho hne => by
    rcases mem_append.mp ho with hol | hnew
    · obtain ⟨hfi,hn⟩ := mem_filter.mp hol
      exact (ha m hw other hfi (of_decide_eq_true hn)).not_notAfter
    · exact absurd (mem_singleton.mp hnew) hne
  rw [loadLatestRecord_clean (replaceFile_clean h (record_intact h hf m)),hl]
  rfl
end
lemma find_named {files : List CheckpointFile} (hd : (files.map (·.name)).Nodup)
    (hf : file ∈ files) {name : String} (hn : file.name = name) :
    files.find? (·.name = name) = some file := by
  induction files with
  | nil => cases hf
  | cons fi files ih =>
    rw [map_cons,nodup_cons] at hd
    rcases mem_cons.mp hf with rfl | hr
    · rw [List.find?_cons_of_pos (by simpa using hn)]
    · have hne : fi.name ≠ name := fun he => hd.1 (mem_map.mpr ⟨file,hr,hn.trans he.symm⟩)
      rw [List.find?_cons_of_neg (by simpa using hne)]
      exact ih hd.2 hr

lemma validated_le {ex n : StoredCheckpointRecord} (h : validateCheckpointProgress (some ex) n = .ok ()) :
    ex.committedEventCount ≤ n.committedEventCount := by
  rw [validateCheckpointProgress] at h
  split at h
  · cases h
  · rename_i hl
    exact UInt64.not_lt.mp hl

lemma written_le (h : Clean sha256 f store)
    (hv : store.validateMonotonicProgress sha256 s.sourceType (s.record sha256) = .ok ())
    (hf : file ∈ store.files) (hn : file.name = checkpointName s.sourceType) :
    file.record.committedEventCount ≤ s.count := by
  rw [validateMonotonicProgress,find_named h.distinct hf hn] at hv
  simp only [readRecord_intact (h.files file hf)] at hv
  exact validated_le hv

/-- Some file of the directory has at least the given progress. -/
def Reached (count : UInt64) (store : FileCheckpoint) : Prop :=
  ∃ file ∈ store.files, count ≤ file.record.committedEventCount
section
variable (h : Clean sha256 f store) (hr : Reached count store) (ha : s.Ahead sha256 store)
include h hr ha

lemma Reached.written {m : ℕ} (hw : s.answer.write = .ok m)
    (hv : store.validateMonotonicProgress sha256 s.sourceType (s.record sha256) = .ok ()) :
    count ≤ s.count := by
  obtain ⟨file,hf,hc⟩ := hr
  by_cases hn : file.name = checkpointName s.sourceType
  · exact UInt64.le_trans hc (written_le h hv hf hn)
  · exact UInt64.le_trans hc (ha m hw file hf hn).le

lemma step_reached : Reached count (step sha256 store s) := by
  have he := save_effect sha256 store s
  rw [step]
  generalize store.save sha256 s.sourceType s.offset s.count s.answer = result at he
  cases he with
  | refused => exact hr
  | written m hw hv =>
    exact ⟨s.file sha256 store.fileMode m,mem_append_right _ (mem_singleton_self _),hr.written h ha hw hv⟩
end
lemma Accepted.written (h : Accepted sha256 store s) : ∃ m, s.answer.write = .ok m ∧
      store.validateMonotonicProgress sha256 s.sourceType (s.record sha256) = .ok () ∧
      step sha256 store s = store.replaceFile (s.file sha256 store.fileMode m) := by
  have he := save_effect sha256 store s
  rw [Accepted] at h
  rw [step]
  generalize store.save sha256 s.sourceType s.offset s.count s.answer = result at he h
  cases he with
  | refused => cases h
  | written m hw hv => exact ⟨m,hw,hv,rfl⟩

/-- The run keeps the directory clean and what was reached. -/
theorem run_clean (h : Clean sha256 f store) (hm : Meets (step sha256) (Orderly sha256 f) store sa) :
    Clean sha256 f (run (step sha256) store sa) :=
  run_invariant_of_meets (step sha256) (P := fun store => Clean sha256 f store)
    (fun _ _ hc ho => step_clean hc ho.1) h hm

lemma run_reached (h : Clean sha256 f store) (hr : Reached count store)
    (hm : Meets (step sha256) (Orderly sha256 f) store sa) :
    Reached count (run (step sha256) store sa) :=
  (run_invariant_of_meets (step sha256) (P := fun store => Clean sha256 f store ∧ Reached count store)
    (fun _ _ hb ho => ⟨step_clean hb.1 ho.1, step_reached hb.1 hb.2 ho.2⟩) ⟨h,hr⟩ hm).2
end
/-- After every accepted save of a run whose saves are all ahead of what the family's other source
type has stored, the store reports that save's count and offset, and no later save of a lower
count is accepted. -/
theorem saved_is_loaded (sha256 : Digest) (fromBytes : String → Json → Except Error Unit)
    (family : String) (store : FileCheckpoint) (hclean : Clean sha256 family store)
    (before : List Save) (s : Save)
    (hmeets : Meets (step sha256) (Orderly sha256 family) store (before++[s]))
    (hread : fromBytes s.sourceType s.offset = .ok ())
    (haccepted : Accepted sha256 (run (step sha256) store before) s) :
    (run (step sha256) store (before++[s])).committedCount sha256 = .ok s.count ∧
      (run (step sha256) store (before++[s])).load sha256 fromBytes = .ok (some (s.sourceType,s.offset)) ∧
      ∀ between later, Meets (step sha256) (Orderly sha256 family) store (before++[s]++between++[later]) →
        later.count < s.count →
        ¬Accepted sha256 (run (step sha256) store (before++[s]++between)) later := by
  rw [meets_append] at hmeets
  obtain ⟨hbe,⟨hf,hah⟩,_⟩ := hmeets
  have hh := run_clean hclean hbe
  obtain ⟨modified,hw,hv,hs⟩ := haccepted.written
  have ha : run (step sha256) store (before++[s]) = (run (step sha256) store before).replaceFile
        (s.file sha256 (run (step sha256) store before).fileMode modified) := by
    rw [run_append,← hs]
    rfl
  have hla := written_latest hh hf hah hw
  refine ⟨?_,?_,?_⟩
  · rw [ha,committedCount,hla]
    rfl
  · rw [ha,load,hla]
    dsimp only [Save.record,FileCheckpointRecord.new]
    rw [hread]
    split <;> rfl
  · intro between later hal hlo hlat
    rw [meets_append,meets_append] at hal
    obtain ⟨⟨hu,hb⟩,⟨_,hl⟩,_⟩ := hal
    have hr : Reached s.count (run (step sha256) store (before++[s])) := by
      rw [ha]
      exact ⟨_,List.mem_append_right _ (List.mem_singleton_self _),UInt64.le_refl _⟩
    have ht := run_reached (run_clean hclean hu) hr hb
    rw [← run_append] at ht
    obtain ⟨modified',hw',hv',_⟩ := hlat.written
    have hle := ht.written (run_clean hclean (by
      rw [meets_append]
      exact ⟨hu,hb⟩)) hl hw' hv'
    exact absurd hlo (UInt64.not_lt.mpr hle)

def emptyStore : FileCheckpoint := ⟨"/var/rustcdc",0o600,false,[]⟩

/-- A save that the operating system carries out at the given time. -/
def saveAt (modified : ℕ) (sourceType position : String) (count : UInt64) : Save :=
  ⟨sourceType,.obj [("position",.str position)],count,⟨.ok (),.ok modified,.ok ()⟩⟩

/-- A digest for the samples: the text itself. -/
def plainDigest : Digest := String.ofList
def anyOffset (_ : String) (_ : Json) : Except Error Unit := .ok ()

/-- A bulk snapshot's checkpoint and then the stream's. -/
def snapshotSaved : Save := saveAt 1 "postgres_snapshot" "chunk 3" 5
def streamSaved : Save := saveAt 2 "postgres" "0/200" 10

theorem saved_is_loaded_sample : (run (step plainDigest) emptyStore [snapshotSaved,streamSaved]).committedCount
        plainDigest = .ok 10 ∧
      (run (step plainDigest) emptyStore [snapshotSaved,streamSaved]).load plainDigest
        anyOffset = .ok (some ("postgres",streamSaved.offset)) := by
  have h := saved_is_loaded plainDigest anyOffset "postgres" emptyStore
    ⟨by decide,by simp [emptyStore],by simp [emptyStore]⟩ [snapshotSaved] streamSaved
    ⟨⟨by decide,fun _ _ other ho => absurd ho List.not_mem_nil⟩, ⟨by decide,fun _ _ other ho _ => .inl (by
        rw [List.mem_singleton.mp ho]
        exact (by decide : (5 : UInt64) < 10))⟩,trivial⟩ rfl rfl
  exact ⟨h.1,h.2.1⟩

/-- The snapshot form is accepted behind the stream's count, and the store then reports the
stream's. -/
theorem snapshot_save_shadowed : Accepted plainDigest emptyStore streamSaved ∧
      Accepted plainDigest (run (step plainDigest) emptyStore [streamSaved]) snapshotSaved ∧
      (run (step plainDigest) emptyStore [streamSaved,snapshotSaved]).committedCount plainDigest = .ok 10 ∧
      (run (step plainDigest) emptyStore [streamSaved,snapshotSaved]).load plainDigest
        anyOffset = .ok (some ("postgres",streamSaved.offset)) :=
  ⟨rfl,rfl,rfl,rfl⟩
end FileCheckpoint
end Rustcdc
