import Rustcdc.Source.Incremental.Transparent

/-! A chunk from its read to its delivery.  The rows a phase holds are those that were read, each
either as it was read or overridden by a log event of the same key. -/
namespace Rustcdc.Incremental
open List IncrementalSnapshotDriver

def SnapshotTable.fingerprint (spec : SnapshotTable) (row : ChunkRow) : String :=
  fingerprintFromPayload spec.name spec.pkColumns row.row

structure IsRowOf (spec : SnapshotTable) (row : ChunkRow) (e : Event) : Prop where
  op : e.op = .read
  schema : e.schema = some spec.schema
  table : e.table = spec.name
  primaryKey : e.primaryKey = some spec.pkColumns
  before : e.before = none
  after : e.after = some row.row

/-- A log event about the row's table, as far as it can be told. -/
def SnapshotTable.owns (spec : SnapshotTable) (e : Event) : Bool :=
  e.table = spec.name && e.schema.getD spec.schema = spec.schema

/-- The rows held are the rows read, and one that is not overridden is as it was read. -/
def Holds {P : Type} (spec : SnapshotTable) (rows : List ChunkRow) (collect : Collect P) : Prop :=
  List.Forall₂ (fun row held => held.1 = spec.fingerprint row ∧
    (held.1 ∉ collect.overridePks → IsRowOf spec row held.2)) rows collect.chunkRows

lemma forall₂_chain {α : Type} {R S T : α → α → Prop} (h : ∀ a b c, R a b → S b c → T a c)
    {xs ys zs : List α} (hx : List.Forall₂ R xs ys) (hy : List.Forall₂ S ys zs) :
    List.Forall₂ T xs zs := by
  induction hx generalizing zs with
  | nil =>
    rw [forall₂_nil_left_iff.mp hy]
    exact .nil
  | cons ha _ ih =>
    cases hy with
    | cons hb hr => exact .cons (h _ _ _ ha hb) (ih hr)

lemma chunkIndexByKey_fingerprint {fp : String} {rs : List (String × Event)}
    {i : ℕ} (hi : chunkIndexByKey fp rs = some i) :
    ∃ e, rs[i]? = some (fp,e) := by
  induction rs generalizing i with
  | nil => simp [chunkIndexByKey] at hi
  | cons row rs ih =>
    rw [chunkIndexByKey] at hi
    split at hi
    · rename_i found hf
      cases hi
      exact ih hf
    · split at hi
      · rename_i hk
        cases hi
        exact ⟨row.2,by rw [← hk]; rfl⟩
      · cases hi

/-- A repair touches no row but those with the event's fingerprint. -/
theorem repairPartialPayload_rows (chunkRows : List (String × Event)) (fp : String)
    (e : Event) : List.Forall₂ (fun row row' => row'.1 = row.1 ∧ (row.1 ≠ fp → row' = row)) chunkRows
      (repairPartialPayload chunkRows fp e).1 := by
  have hsa : List.Forall₂ (fun row row' : String × Event => row'.1 = row.1 ∧
      (row.1 ≠ fp → row' = row)) chunkRows chunkRows :=
    forall₂_same.mpr fun _ _ => ⟨rfl,fun _ => rfl⟩
  unfold repairPartialPayload
  split
  · exact hsa
  · rename_i index hin
    split
    · exact hsa
    · obtain ⟨shown,hs⟩ := chunkIndexByKey_fingerprint hin
      rw [forall₂_iff_get]
      refine ⟨by simp,fun i hi hi' => ?_⟩
      simp only [get_eq_getElem,getElem_modify]
      split_ifs with he
      · subst he
        have hr : chunkRows[index] = (fp,shown) := by
          rw [List.getElem?_eq_getElem hi] at hs
          exact Option.some.inj hs
        simp [hr]
      · exact ⟨rfl,fun _ => rfl⟩
section
variable {P : Type} [Ord P] (backend : Backend P) (target : SnapshotTable)

/-- An event of a batch that overrides the rows with the fingerprint, with what it is repaired to. -/
def Overrides (fingerprint : String) (e e' : Event) : Prop :=
  SameChange e e' ∧ target.owns e = true ∧ eventFingerprint e = some fingerprint

/-- What a batch does to a chunk: the bracket stays, rows it does not override stay as they were,
and each new override is by an event of the batch. -/
structure Overridden (collect : Collect P) (events : List Event)
    (result : Collect P × List Event) : Prop where
  tableIdx : result.1.tableIdx = collect.tableIdx
  lowWatermark : result.1.lowWatermark = collect.lowWatermark
  highWatermark : result.1.highWatermark = collect.highWatermark
  nextCursor : result.1.nextCursor = collect.nextCursor
  kept : ∀ fingerprint ∈ collect.overridePks, fingerprint ∈ result.1.overridePks
  rows : List.Forall₂ (fun row row' => row'.1 = row.1 ∧
    (row.1 ∉ result.1.overridePks → row' = row)) collect.chunkRows result.1.chunkRows
  overrides : ∀ fingerprint ∈ result.1.overridePks, fingerprint ∈ collect.overridePks ∨
    ∃ e ∈ events, ∃ e' ∈ result.2, Overrides target fingerprint e e'
  /-- Every superseding event with a key does override. -/
  superseded : ∀ e ∈ events, supersedes backend collect target e = true →
    ∀ fingerprint ∈ eventFingerprint e, fingerprint ∈ result.1.overridePks

omit [Ord P] in
lemma overrideRows_overridden (collect : Collect P) (es : List Event) :
    Overridden backend target collect es (overrideRows backend target collect es) := by
  induction es generalizing collect with
  | nil =>
    exact ⟨rfl,rfl,rfl,rfl,fun _ h => h,forall₂_same.mpr fun _ _ => ⟨rfl,fun _ => rfl⟩, fun _ h => .inl h,by simp⟩
  | cons ev es ih =>
    rw [overrideRows]
    cases hk : if supersedes backend collect target ev then eventFingerprint ev else none with
    | none =>
      have hre := ih collect
      refine ⟨hre.tableIdx,hre.lowWatermark,hre.highWatermark,hre.nextCursor,hre.kept,
        hre.rows,fun fp hm => ?_,fun e he hs fp hf => ?_⟩
      · refine (hre.overrides fp hm).imp_right ?_
        rintro ⟨e,he,e',he',h⟩
        exact ⟨e,mem_cons_of_mem _ he,e',mem_cons_of_mem _ he',h⟩
      · rcases mem_cons.mp he with rfl | he
        · rw [if_pos hs] at hk
          cases hk.symm.trans hf
        · exact hre.superseded e he hs fp hf
    | some key =>
      have hs : supersedes backend collect target ev = true := by
        by_contra hn
        rw [if_neg hn] at hk
        cases hk
      rw [if_pos hs] at hk
      have ho : target.owns ev = true := by
        simp only [supersedes,Bool.and_eq_true] at hs
        simpa [SnapshotTable.owns] using hs.1
      have hr := repairPartialPayload_rows collect.chunkRows key ev
      have hre := ih {collect with
        chunkRows := (repairPartialPayload collect.chunkRows key ev).1
        overridePks := collect.overridePks.insert key}
      have ha : key ∈ collect.overridePks.insert key := mem_insert_self
      refine ⟨hre.tableIdx,hre.lowWatermark,hre.highWatermark,hre.nextCursor,
        fun fp hm => hre.kept fp (mem_insert_of_mem hm),?_,
        fun fp hm => ?_,fun e he hsu fp hf => ?_⟩
      · refine forall₂_chain (fun row _ _ hfi hse => ?_) hr hre.rows
        refine ⟨hse.1.trans hfi.1,fun hn => ?_⟩
        have hne : row.1 ≠ key := fun heq => hn (heq ▸ hre.kept key ha)
        rw [hse.2 (hfi.1 ▸ hn),hfi.2 hne]
      · rcases hre.overrides fp hm with hol | ⟨e,he,e',he',h⟩
        · rcases mem_insert_iff.mp hol with rfl | hol
          · exact .inr ⟨ev,mem_cons_self,_,mem_cons_self,repairPartialPayload_same _ _ ev,ho,hk⟩
          · exact .inl hol
        · exact .inr ⟨e,mem_cons_of_mem _ he,e',mem_cons_of_mem _ he',h⟩
      · rcases mem_cons.mp he with rfl | he
        · obtain rfl := Option.some.inj (hk.symm.trans hf)
          exact hre.kept _ ha
        · exact hre.superseded e he hsu fp hf
end
section
variable {P H : Type}

/-- The rows that go out when the chunk closes. -/
def Collect.merged (collect : Collect P) : List Event :=
  (collect.chunkRows.filter fun row => !collect.overridePks.contains row.1).map (·.2)

variable {collect : Collect P} {d : IncrementalSnapshotDriver P H} {t : TableProgress}

lemma mem_merged {e : Event} : e ∈ collect.merged ↔ ∃ fp ∉ collect.overridePks, (fp,e) ∈ collect.chunkRows := by
  simp only [Collect.merged,mem_map,mem_filter,Bool.not_eq_true',contains_eq_mem,
    decide_eq_false_iff_not,Prod.exists,exists_eq_right]
  exact exists_congr fun fp => and_comm
section
variable {ti : ℕ} (ht : d.tables[ti]? = some t) (now : UInt64)
include ht

lemma chunkRow_isRowOf (row : ChunkRow) :
    (d.chunkRow now ti row).1 = t.spec.fingerprint row ∧ IsRowOf t.spec row (d.chunkRow now ti row).2 := by
  have hs : d.tableAt ti = t.spec := by
    simp [tableAt,ht]
  simp only [chunkRow,buildSnapshotEvent,hs]
  exact ⟨rfl,rfl,rfl,rfl,rfl,rfl,rfl⟩

lemma holds_read (rs : List ChunkRow) (hr : collect.chunkRows = rs.map (d.chunkRow now ti)) :
    Holds t.spec rs collect := by
  unfold Holds
  rw [hr,forall₂_map_right_iff,forall₂_same]
  intro row _
  exact ⟨(chunkRow_isRowOf ht now row).1,fun _ => (chunkRow_isRowOf ht now row).2⟩
end
variable {s : SnapshotTable} {ro : List ChunkRow} {co : Collect P}

lemma Holds.overridden [Ord P] (h : Holds s ro co) {backend : Backend P}
    {target : SnapshotTable} {es : List Event} {r : Collect P × List Event}
    (hr : Overridden backend target co es r) : Holds s ro r.1 := by
  have hro := hr.rows
  unfold Holds at h ⊢
  generalize co.chunkRows = held at h hro
  generalize r.1.chunkRows = held' at hro ⊢
  induction h generalizing held' with
  | nil =>
    rw [forall₂_nil_left_iff.mp hro]
    exact .nil
  | cons hrow _ ih =>
    cases hro with
    | cons hn hre =>
      refine .cons ⟨hn.1.trans hrow.1,fun hno => ?_⟩ (ih _ hre)
      rw [hn.1] at hno
      rw [hn.2 hno]
      exact hrow.2 fun ho => hno (hr.kept _ ho)

lemma Holds.merged_of_row (h : Holds s ro co) {row : ChunkRow} (hr : row ∈ ro) :
    s.fingerprint row ∈ co.overridePks ∨ ∃ e ∈ co.merged, IsRowOf s row e := by
  obtain ⟨i,hi,rfl⟩ := getElem_of_mem hr
  obtain ⟨hl,hg⟩ := forall₂_iff_get.mp h
  have hh := hg i hi (hl ▸ hi)
  simp only [get_eq_getElem] at hh
  by_cases ho : s.fingerprint ro[i] ∈ co.overridePks
  · exact .inl ho
  · rw [← hh.1] at ho
    exact .inr ⟨_,mem_merged.mpr ⟨_,ho,getElem_mem _⟩,hh.2 ho⟩
end
section
variable {P H : Type} [Ord P] [StreamHandle H] {d : IncrementalSnapshotDriver P H}

omit [Ord P] [StreamHandle H] in
lemma chunkTable_incomplete {ti i : ℕ} (h : d.chunkTable ti = some i) :
    ∃ table, d.tables[i]? = some table ∧ table.isComplete = false := by
  have hn : nextIncompleteTable d.tables = some i →
      ∃ table, d.tables[i]? = some table ∧ table.isComplete = false := by
    intro hf
    obtain ⟨hl,hi,_⟩ := List.findIdx?_eq_some_iff_getElem.mp hf
    exact ⟨d.tables[i],List.getElem?_eq_getElem hl,by simpa using hi⟩
  unfold chunkTable at h
  split at h
  · rename_i table ht
    split_ifs at h with hi
    · exact hn h
    · cases h
      exact ⟨table,ht,Bool.eq_false_of_not_eq_true hi⟩
  · exact hn h

/-- What preparing a chunk can come to. -/
inductive Prepared (d : IncrementalSnapshotDriver P H) (tableIdx : ℕ) (answer : PassAnswer P H) :
    IncrementalSnapshotDriver P H × Option Returned → Prop
  | finished (htable : d.chunkTable tableIdx = none) : Prepared d tableIdx answer ({d with phase := .done},none)
  | failed (e : Error) : Prepared d tableIdx answer (d,some (.failed e))
  | completed {index : ℕ} (htable : d.chunkTable tableIdx = some index)
      (hchunk : answer.chunk = .ok []) : Prepared d tableIdx answer (d.completeTable index,none)
  | started {index : ℕ} {low high : P} {rows : List ChunkRow}
      (htable : d.chunkTable tableIdx = some index) (hlow : answer.lowWatermark = .ok low)
      (hchunk : answer.chunk = .ok rows) (hhigh : answer.highWatermark = .ok high)
      (hrows : rows ≠ []) :
      Prepared d tableIdx answer (d.startCollect answer.now index low high rows,none)

variable (d : IncrementalSnapshotDriver P H)

omit [Ord P] in
lemma driveChunkPrepare_cases (ti : ℕ) (a : PassAnswer P H) : Prepared d ti a (d.driveChunkPrepare ti a) := by
  unfold driveChunkPrepare
  split
  · exact .finished ‹_›
  · split
    · exact .failed _
    · split
      · exact .failed _
      · split
        · exact .failed _
        · rename_i index ht _ low hl _ rows hc _ high hh
          cases rows with
          | nil => exact .completed ht hc
          | cons => exact .started ht hl hc hh (by simp)
section
variable (collect : Collect P) (events : List Event)

def repairedBatch : List Event := (overrideRows d.backend (d.tableAt collect.tableIdx) collect events).2

/-- How many events of the batch lie before the first past the high watermark. -/
def headLength : ℕ := (splitAt d.backend collect events).getD events.length
end
def afterBatch (inner : H) (collect : Collect P) (events : List Event) (passed : Bool) :
    IncrementalSnapshotDriver P H :=
  let collect' := (overrideRows d.backend (d.tableAt collect.tableIdx) collect events).1
  {d with
    inner := inner
    deferred := d.deferred++(repairedBatch d collect events).drop (headLength d collect events)
    phase := if passed then IncrementalSnapshotDriver.finalizeCollect collect'
      else .chunkCollect collect'}

/-- What collecting against a chunk can come to. -/
inductive Collected (d : IncrementalSnapshotDriver P H) (collect : Collect P)
    (answer : PassAnswer P H) : IncrementalSnapshotDriver P H × Option Returned → Prop
  | failed (inner : H) (e : Error) (hevents : d.innerEvents answer = []) :
      Collected d collect answer ({d with inner := inner},some (.failed e))
  | batch {inner : H} {passed : Bool} {returned : Option Returned}
      (hpassed : watermarkPassed d.backend collect (d.innerEvents answer) answer.currentPosition = .ok passed)
      (hlog : (returned.map (·.emissions)).getD [] = ((repairedBatch d collect (d.innerEvents answer)).take
          (headLength d collect (d.innerEvents answer))).map (⟨false,·⟩)) :
      Collected d collect answer (afterBatch d inner collect (d.innerEvents answer) passed,returned)

lemma watermarkPassed_error {backend : Backend P} {collect : Collect P} {es : List Event}
    {currentPosition : Except Error P} {e : Error}
    (h : watermarkPassed backend collect es currentPosition = .error e) : es = [] := by
  unfold watermarkPassed at h
  split at h
  · cases h
  · split at h
    · exact isEmpty_iff.mp ‹_›
    · cases h

lemma driveChunkCollect_cases (collect : Collect P) (a : PassAnswer P H) :
    Collected d collect a (d.driveChunkCollect collect a) := by
  unfold driveChunkCollect
  cases hn : StreamHandle.nextEvents d.inner a.events with
  | mk i r => ?_
  cases r with
  | error e => exact .failed i e (by rw [innerEvents,hn])
  | ok events =>
    obtain rfl : d.innerEvents a = events := by rw [innerEvents,hn]
    unfold collectBatch
    dsimp only
    cases hp : watermarkPassed d.backend collect (d.innerEvents a) a.currentPosition with
    | error e => exact .failed i e (watermarkPassed_error hp)
    | ok passed =>
      refine .batch hp ?_
      split
      · rfl
      · rename_i hh
        rw [Bool.not_eq_true',Bool.not_eq_false,List.isEmpty_iff] at hh
        change (repairedBatch d collect _).take (headLength d collect _) = [] at hh
        rw [hh]
        split <;> rfl

/-- What emitting a chunk can come to: the next rows of it, or the progress it stands for. -/
inductive Emitted (d : IncrementalSnapshotDriver P H) (tableIdx : ℕ) (events : List Event)
    (nextCursor : List Json) (rowCount : UInt64) :
    IncrementalSnapshotDriver P H × Option Returned → Prop
  | rows (n : ℕ) (hn : 0 < n) : Emitted d tableIdx events nextCursor rowCount
      ({d with phase := .chunkEmit tableIdx (events.drop n) nextCursor rowCount},
        some (.rows (events.take n)))
  | committed (hevents : events = []) (deferred : List Event) (returned : Option Returned)
      (hlog : returned = none ∧ deferred = d.deferred ∨
        ∃ head, returned = some (.log head) ∧ d.deferred = head++deferred) :
      Emitted d tableIdx events nextCursor rowCount
      ({d.commitChunkProgress tableIdx nextCursor rowCount with
        phase := .chunkPrepare tableIdx, deferred := deferred},returned)

omit [Ord P] [StreamHandle H] in
lemma driveChunkEmit_cases (ti : ℕ) (es : List Event) (nc : List Json) (n : UInt64) :
    Emitted d ti es nc n (d.driveChunkEmit ti es nc n) := by
  unfold driveChunkEmit
  dsimp only
  split
  · exact .rows _ ‹_›
  · have he : es = [] := by
      have hb : 0 < d.emitBatchSize := by
        unfold emitBatchSize emitBatchSizeDefault
        split <;> omega
      rw [← length_eq_zero_iff]
      omega
    split
    · exact .committed he _ _ (.inr ⟨_,rfl,(take_append_drop _ _).symm⟩)
    · exact .committed he _ _ (.inl ⟨rfl,rfl⟩)

/-- What a pass can come to, by the phase it is made in. -/
inductive Passed (d : IncrementalSnapshotDriver P H) (answer : PassAnswer P H)
    (result : IncrementalSnapshotDriver P H × Option Returned) : Prop
  | through (hphase : d.phase = .done ∨ ∃ tableIdx, d.phase = .chunkPrepare tableIdx)
      (h : result = d.passThrough answer)
  | prepared {tableIdx : ℕ} (hphase : d.phase = .chunkPrepare tableIdx) (hpaused : d.paused = false)
      (h : Prepared d tableIdx answer result)
  | collected {collect : Collect P} (hphase : d.phase = .chunkCollect collect) (h : Collected d collect answer result)
  | emitted {tableIdx : ℕ} {events : List Event} {nextCursor : List Json} {rowCount : UInt64}
      (hphase : d.phase = .chunkEmit tableIdx events nextCursor rowCount)
      (h : Emitted d tableIdx events nextCursor rowCount result)

lemma pass_cases (a : PassAnswer P H) : Passed d a (d.pass a) := by
  unfold IncrementalSnapshotDriver.pass
  cases hp : d.phase with
  | done => exact .through (.inl hp) rfl
  | chunkPrepare ti =>
    cases hpa : d.paused with
    | true => exact .through (.inr ⟨ti,hp⟩) rfl
    | false => exact .prepared hp hpa (driveChunkPrepare_cases d ti a)
  | chunkCollect collect => exact .collected hp (driveChunkCollect_cases d collect a)
  | chunkEmit ti es nc n =>
    exact .emitted hp (driveChunkEmit_cases d ti es nc n)

inductive PassTables (d : IncrementalSnapshotDriver P H) (answer : PassAnswer P H) :
    List TableProgress → Prop
  | same : PassTables d answer d.tables
  | completed {tableIdx index : ℕ} (hphase : d.phase = .chunkPrepare tableIdx)
      (htable : d.chunkTable tableIdx = some index) (hchunk : answer.chunk = .ok []) :
      PassTables d answer (d.tables.modify index ({· with isComplete := true}))
  | committed {tableIdx : ℕ} {nextCursor : List Json} {rowCount : UInt64}
      (hphase : d.phase = .chunkEmit tableIdx [] nextCursor rowCount) :
      PassTables d answer (d.commitChunkProgress tableIdx nextCursor rowCount).tables

omit [Ord P] in
lemma passThrough_frame (a : PassAnswer P H) :
    ∃ inner deferred, (d.passThrough a).1 = {d with inner := inner, deferred := deferred} := by
  unfold passThrough
  split
  · exact ⟨d.inner,_,rfl⟩
  · split <;> exact ⟨_,d.deferred,rfl⟩

/-- A pass works on the tables, the phase and what is held back, and leaves the rest alone. -/
theorem pass_frame (a : PassAnswer P H) :
    ∃ inner tables phase deferred, PassTables d a tables ∧ (d.pass a).1 = {d with
      inner := inner, tables := tables, phase := phase, deferred := deferred} := by
  have hc := pass_cases d a
  generalize d.pass a = passed at hc
  cases hc with
  | through _ h =>
    obtain ⟨inner,deferred,hf⟩ := passThrough_frame d a
    exact ⟨inner,d.tables,d.phase,deferred,.same,by rw [h,hf]⟩
  | prepared hp _ h =>
    cases h with
    | finished => exact ⟨d.inner,d.tables,.done,d.deferred,.same,rfl⟩
    | failed => exact ⟨d.inner,d.tables,d.phase,d.deferred,.same,rfl⟩
    | completed ht hch =>
      exact ⟨d.inner,_,_,d.deferred,.completed hp ht hch,rfl⟩
    | started => exact ⟨d.inner,d.tables,_,d.deferred,.same,rfl⟩
  | collected _ h =>
    cases h with
    | failed inner => exact ⟨inner,d.tables,d.phase,d.deferred,.same,rfl⟩
    | batch => exact ⟨_,d.tables,_,_,.same,rfl⟩
  | emitted hp h =>
    cases h with
    | rows => exact ⟨d.inner,d.tables,_,d.deferred,.same,rfl⟩
    | committed he deferred =>
      rw [he] at hp
      exact ⟨d.inner,_,_,deferred,.committed hp,rfl⟩

omit [Ord P] in
lemma PassTables.specs {a : PassAnswer P H} {tables : List TableProgress} (h : PassTables d a tables) :
    tables.map (·.spec) = d.tables.map (·.spec) := by
  have hm : ∀ (i : ℕ) (f : TableProgress → TableProgress), (∀ table, (f table).spec = table.spec) →
      (d.tables.modify i f).map (·.spec) = d.tables.map (·.spec) := by
    intro i f hf
    apply ext_getElem
    · simp
    · intro j hj hj'
      simp only [getElem_map,getElem_modify]
      split
      · exact hf _
      · rfl
  cases h with
  | same => rfl
  | completed | committed => exact hm _ _ fun _ => rfl
end
section
/-- The table a request leaves at an index: the one that was there, a finished one rewound, or a
new one. -/
inductive Enqueued (tables : List TableProgress) (i : ℕ) : TableProgress → Prop
  | kept {table : TableProgress} (htable : tables[i]? = some table) : Enqueued tables i table
  | rewound {table : TableProgress} (htable : tables[i]? = some table)
      (hcomplete : table.isComplete = true) (spec : SnapshotTable) (hkey : spec.key = table.key) :
      Enqueued tables i ⟨spec,none,false,0,0⟩
  | added (htable : tables[i]? = none) (spec : SnapshotTable) : Enqueued tables i ⟨spec,none,false,0,0⟩

variable {tables : List TableProgress} {table : TableProgress}

lemma enqueueTable_enqueued {sp : SnapshotTable} {i : ℕ} (h : (enqueueTable tables sp).1[i]? = some table) :
    Enqueued tables i table := by
  unfold enqueueTable at h
  split at h
  · by_cases hl : i < tables.length
    · rw [List.getElem?_append_left hl] at h
      exact .kept h
    · rw [List.getElem?_append_right (by omega)] at h
      obtain rfl := mem_singleton.mp (mem_of_getElem? h)
      exact .added (List.getElem?_eq_none (by omega)) sp
  · rename_i index hf
    split_ifs at h with hc
    · by_cases hi : index = i
      · subst hi
        obtain ⟨hl,hk,_⟩ := List.findIdx?_eq_some_iff_getElem.mp hf
        rw [List.getElem?_set_self hl] at h
        cases h
        have ha := List.getElem?_eq_getElem hl
        rw [ha,Option.map_some,Option.getD_some] at hc
        exact .rewound ha hc sp (of_decide_eq_true hk).symm
      · rw [List.getElem?_set_ne hi] at h
        exact .kept h
    · exact .kept h

lemma enqueueTable_length_le (tables : List TableProgress) (sp : SnapshotTable) :
    tables.length ≤ (enqueueTable tables sp).1.length := by
  unfold enqueueTable
  split
  · simp
  · split <;> simp

variable {s : List SnapshotTable}

lemma enqueueAll_enqueued {i : ℕ} (h : (enqueueAll tables s).1[i]? = some table) : Enqueued tables i table := by
  induction s generalizing tables with
  | nil => exact .kept h
  | cons sp s ih =>
    cases ih h with
    | kept hf => exact enqueueTable_enqueued hf
    | rewound hf hc sp' hk =>
      cases enqueueTable_enqueued hf with
      | kept ht => exact .rewound ht hc sp' hk
      | rewound | added => cases hc
    | added hf sp' =>
      refine .added (List.getElem?_eq_none ?_) sp'
      exact (enqueueTable_length_le tables sp).trans (List.getElem?_eq_none_iff.mp hf)

lemma enqueueAll_length_le (tables : List TableProgress) (s : List SnapshotTable) :
    tables.length ≤ (enqueueAll tables s).1.length := by
  induction s generalizing tables with
  | nil => exact le_rfl
  | cons sp s ih => exact (enqueueTable_length_le tables sp).trans (ih _)

lemma enqueueAll_incomplete (s : List SnapshotTable) {i : ℕ} (h : tables[i]? = some table)
    (hi : table.isComplete = false) :
    (enqueueAll tables s).1[i]? = some table := by
  have hl : i < (enqueueAll tables s).1.length :=
    lt_of_lt_of_le (List.getElem?_eq_some_iff.mp h).1 (enqueueAll_length_le tables s)
  have ha := List.getElem?_eq_getElem hl
  generalize (enqueueAll tables s).1[i] = table' at ha
  cases enqueueAll_enqueued ha with
  | kept ht => rwa [Option.some.inj (h.symm.trans ht)]
  | rewound ht hc =>
    rw [← Option.some.inj (h.symm.trans ht),hi] at hc
    cases hc
  | added ht => cases h.symm.trans ht

lemma enqueueAll_zero (h : (enqueueAll tables s).2 = 0) : (enqueueAll tables s).1 = tables := by
  induction s generalizing tables with
  | nil => rfl
  | cons sp s ih =>
    simp only [enqueueAll,Nat.add_eq_zero_iff] at h ⊢
    have hfl : (enqueueTable tables sp).2 = false := by
      cases hfl : (enqueueTable tables sp).2 with
      | false => rfl
      | true => simp [hfl] at h
    have hs : (enqueueTable tables sp).1 = tables := by
      unfold enqueueTable at hfl ⊢
      split
      · rename_i hn
        simp [hn] at hfl
      · rename_i index hf
        simp only [hf] at hfl
        split_ifs with hc
        · simp [hc] at hfl
        · rfl
    rw [ih h.1,hs]

variable {P H : Type}

/-- A request that enqueues anything changes the tables, wakes a parked driver and starts a new
generation; otherwise it changes nothing. -/
theorem enqueueTables_cases (d : IncrementalSnapshotDriver P H) (ca : Catalog) (q : SnapshotRequest) :
    (d.enqueueTables ca q).1 = d ∨ ∃ s phase,
      resolveTables ca (extendConditions d.tableConditions q.conditions) q.tables = .ok s ∧ s ≠ [] ∧
      (phase = d.phase ∨ d.phase = .done ∧ phase = nextPhase (enqueueAll d.tables s).1) ∧
      (d.enqueueTables ca q).1 = {d with
        tables := (enqueueAll d.tables s).1
        phase := phase
        generation := saturatingSucc d.generation
        stopped := false} := by
  unfold enqueueTables
  dsimp only
  split
  · exact .inl rfl
  · rename_i s hs
    split_ifs with hz
    · left
      dsimp only
      rw [enqueueAll_zero hz]
    · refine .inr ⟨s,_,hs,fun hn => hz (by rw [hn]; rfl),?_,rfl⟩
      cases d.phase with
      | done => exact .inr ⟨rfl,rfl⟩
      | chunkPrepare | chunkCollect | chunkEmit => exact .inl rfl
end
end Rustcdc.Incremental
