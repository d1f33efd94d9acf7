import Rustcdc.Source.Incremental.Restart

/-! The driver's list of tables, which construction, adoption from a checkpoint and requests add to,
each with checks of its own. -/
namespace Rustcdc.Incremental
open List Machine Deployment
variable {P H : Type} {tables : List TableProgress}

/-- A chunk of the entry is under way, up to the cursor. -/
def Working (tables : List TableProgress) (tableIdx : ℕ) (cursor : List Json) : Prop :=
  ∃ t, tables[tableIdx]? = some t ∧ t.isComplete = false ∧ cursor.length = t.spec.pkColumns.length

/-- The phase refers to an entry of the list. -/
def PhaseNames (tables : List TableProgress) : Phase P → Prop
  | .chunkPrepare tableIdx => tableIdx < tables.length
  | .chunkCollect collect => Working tables collect.tableIdx collect.nextCursor
  | .chunkEmit tableIdx _ nextCursor _ => Working tables tableIdx nextCursor
  | .done => True

structure Listed (tables : List TableProgress) (phase : Phase P) : Prop where
  keys : (tables.map (·.key)).Nodup
  fit : CursorsFit tables
  names : PhaseNames tables phase

variable {d : IncrementalSnapshotDriver P H}

lemma nextPhase_names (tables : List TableProgress) : PhaseNames tables (nextPhase tables : Phase P) := by
  unfold nextPhase
  split
  · rename_i h
    exact (findIdx?_eq_some_iff_getElem.mp h).1
  · trivial

lemma PhaseNames.sized {phase : Phase P} (h : PhaseNames tables phase) : PhaseSized (tables.map (·.spec)) phase := by
  have hw : ∀ {i c}, Working tables i c → ∃ s, (tables.map (·.spec))[i]? = some s ∧
      c.length = s.pkColumns.length := by
    rintro i c ⟨t,ht,-,hl⟩
    exact ⟨t.spec,by rw [List.getElem?_map,ht]; rfl,hl⟩
  cases phase with
  | chunkCollect | chunkEmit => exact hw h
  | chunkPrepare | done => trivial
section
variable {resume : Option IncrementalSnapshotState} {catalog : Catalog} {config : IncrementalSnapshotConfig}

/-- The configuration names no table twice, and what the checkpoint has of unfinished tables fits
them: each is described under the name it has there, and its cursor is one of its key. -/
structure Startable (catalog : Catalog) (config : IncrementalSnapshotConfig)
    (resume : Option IncrementalSnapshotState) : Prop where
  apart : config.tables.Pairwise fun a b => ∀ s s', describeWithCondition catalog a config.tableConditions = .ok s →
    describeWithCondition catalog b config.tableConditions = .ok s' → s.key ≠ s'.key
  fits : ∀ entry ∈ (resume.map (·.tables)).getD [], entry.isComplete = false → ∀ spec,
    describeWithCondition catalog entry.table config.tableConditions = .ok spec →
      spec.key = entry.table ∧ ∀ c ∈ entry.pkCursor, c.length = spec.pkColumns.length

lemma resumeTable_fits {s : SnapshotTable} {t : TableProgress} (h : resumeTable resume s = .ok t) :
    ∀ c ∈ t.pkCursor, c.length = t.spec.pkColumns.length := by
  unfold resumeTable at h
  dsimp only at h
  split at h
  · split_ifs at h with hl
    cases h
    intro c hc
    cases hc
    exact not_not.mp hl
  · cases h
    exact fun c hc => nomatch hc

lemma Startable.listed (hs : Startable catalog config resume) {backend : Backend P} {i : H}
    {sn : String} {now : UInt64}
    (h : IncrementalSnapshotDriver.new backend i catalog config sn resume now = .ok d) :
    Listed d.tables d.phase := by
  obtain ⟨tables,ht,hd⟩ := IncrementalSnapshotDriver.new_eq_ok.mp h
  rw [resumeTables_eq_ok] at ht
  have hp : (if (resume.map (·.stopped)).getD false then [] else config.tables) <+: config.tables := by
    split
    · exact nil_prefix
    · exact prefix_refl _
  have hk : (tables.map (·.key)).Nodup := pairwise_map.mpr (pairwise_of_forall₂ ht
    (hs.apart.sublist hp.sublist) fun a _ b _ t t' ha hb hab => hab _ _ ha.1 hb.1)
  have hf : CursorsFit tables := fun ta hm => by
    obtain ⟨b,-,-,-,hb⟩ := forall₂_mem_right ht hm
    exact resumeTable_fits hb
  dsimp only at hd
  generalize hg : (if (resume.map (·.stopped)).getD false then tables
    else adoptTables catalog config.tableConditions tables ((resume.map (·.tables)).getD [])) = adopted at hd
  rw [hd]
  split at hg
  · exact ⟨hg ▸ hk,hg ▸ hf,nextPhase_names _⟩
  · refine ⟨hg ▸ adoptTables_nodup _ _ (fun e he hi => .inr fun s hsp =>
      (hs.fits e he hi s hsp).1) hk,fun ta hm => ?_,nextPhase_names _⟩
    rcases adoptTables_origin _ _ (hg ▸ hm) with hm | ⟨e,he,hi,-,hsp,ho⟩
    · exact hf ta hm
    · exact fun c hc => (hs.fits e he hi _ hsp).2 c (ho.1 ▸ hc)
end
lemma enqueueTable_nodup (h : (tables.map (·.key)).Nodup) (s : SnapshotTable) :
    ((enqueueTable tables s).1.map (·.key)).Nodup := by
  have hs : (⟨s,none,false,0,0⟩ : TableProgress).key = s.key := rfl
  unfold enqueueTable
  split
  · rename_i hn
    rw [map_append,map_singleton,hs]
    refine nodup_append.mpr ⟨h,nodup_singleton _,fun a ha b hb => ?_⟩
    obtain ⟨t,ht,rfl⟩ := mem_map.mp ha
    rw [mem_singleton.mp hb]
    simpa using findIdx?_eq_none_iff.mp hn t ht
  · rename_i i hi
    obtain ⟨hl,hk,-⟩ := findIdx?_eq_some_iff_getElem.mp hi
    split_ifs
    · -- a rewound entry keeps its name
      have he := set_getElem_self (by simpa using hl : i < (tables.map (·.key)).length)
      rw [getElem_map,of_decide_eq_true hk] at he
      rw [map_set,hs,he]
      exact h
    · exact h

lemma enqueueAll_nodup (h : (tables.map (·.key)).Nodup) (ss : List SnapshotTable) :
    ((enqueueAll tables ss).1.map (·.key)).Nodup := by
  induction ss generalizing tables with
  | nil => exact h
  | cons s ss ih => exact ih (enqueueTable_nodup h s)

lemma PhaseNames.enqueued {phase : Phase P} (h : PhaseNames tables phase) (ss : List SnapshotTable) :
    PhaseNames (enqueueAll tables ss).1 phase := by
  cases phase with
  | done => trivial
  | chunkPrepare => exact lt_of_lt_of_le h (enqueueAll_length_le _ _)
  | chunkCollect | chunkEmit =>
    obtain ⟨t,ht,hi,hl⟩ := h
    exact ⟨t,enqueueAll_incomplete ss ht hi,hi,hl⟩

lemma Listed.request (h : Listed d.tables d.phase) (catalog : Catalog) (q : SnapshotRequest) :
    Listed (d.enqueueTables catalog q).1.tables (d.enqueueTables catalog q).1.phase := by
  rcases enqueueTables_cases d catalog q with hs | ⟨ss,ph,-,-,hp,hq⟩
  · rwa [hs]
  · rw [hq]
    refine ⟨enqueueAll_nodup h.keys ss,enqueueAll_fit h.fit,?_⟩
    rcases hp with rfl | ⟨-,rfl⟩
    · exact h.names.enqueued ss
    · exact nextPhase_names _

variable [Ord P] [StreamHandle H] {a : PassAnswer P H}

lemma pass_names (h : PhaseNames d.tables d.phase) (hs : CursorsSized d a) :
    PhaseNames (d.pass a).1.tables (d.pass a).1.phase := by
  have hc := pass_cases d a
  generalize d.pass a = passed at hc
  cases hc with
  | through _ ht =>
    obtain ⟨i,df,hf⟩ := passThrough_frame d a
    rw [ht,hf]
    exact h
  | prepared hp _ hr =>
    cases hr with
    | finished => trivial
    | failed => exact h
    | completed => exact nextPhase_names _
    | started ht _ hch _ hro =>
      obtain ⟨t,ha,hi⟩ := chunkTable_incomplete ht
      rw [CursorsSized,hp,hch] at hs
      refine ⟨t,ha,hi,?_⟩
      rw [List.getLast?_eq_getLast_of_ne_nil hro]
      exact hs _ ht t ha _ (getLast_mem hro)
  | @collected co hp hr =>
    cases hr with
    | failed => exact h
    | @batch i passed =>
      have ho := overrideRows_overridden d.backend (d.tableAt co.tableIdx) co (d.innerEvents a)
      rw [hp,PhaseNames,← ho.tableIdx,← ho.nextCursor] at h
      cases passed <;> exact h
  | emitted hp hr =>
    rw [hp] at h
    cases hr with
    | rows => exact h
    | committed =>
      obtain ⟨t,ht,-⟩ := h
      simpa [PhaseNames,IncrementalSnapshotDriver.commitChunkProgress] using (List.getElem?_eq_some_iff.mp ht).1

lemma Listed.pass (h : Listed d.tables d.phase) (hs : CursorsSized d a) :
    Listed (d.pass a).1.tables (d.pass a).1.phase := by
  have hn := pass_names h.names hs
  obtain ⟨i,tables,ph,df,ht,hf⟩ := pass_frame d a
  have hk := congrArg (List.map SnapshotTable.key) ht.specs
  rw [map_map,map_map] at hk
  rw [hf] at hn ⊢
  exact ⟨hk.symm ▸ h.keys,PassTables.sized ht h.names.sized h.fit,hn⟩

namespace DriverTrace
/-- Chunk reads come with cursors of their table's key. -/
def ReadsSized (s : DriverTrace P H) : DriverCall P H → Prop
  | .nextEvents answers => LoopMeets DriverTrace.pass (fun s a => CursorsSized s.driver a) s answers
  | _ => True

lemma step_listed (s : DriverTrace P H) (c : DriverCall P H) (h : Listed s.driver.tables s.driver.phase)
    (hc : s.ReadsSized c) : Listed (s.step c).driver.tables (s.step c).driver.phase := by
  cases c with
  | nextEvents as =>
    exact step_nextEvents_rule (Q := fun s => Listed s.driver.tables s.driver.phase)
      (fun s a h hs => h.pass hs) (fun s n h => h) h hc
  | request catalog q => exact h.request catalog q
  | setPaused paused =>
    refine ⟨h.keys,h.fit,?_⟩
    simp only [DriverTrace.step,IncrementalSnapshotDriver.setPaused]
    split
    · exact nextPhase_names _
    · exact h.names
  | stopSnapshot => exact ⟨nodup_nil,(fun _ ht => absurd ht not_mem_nil),trivial⟩

/-- In every run of a driver whose configuration names no table twice and whose checkpoint fits its
tables, no table is listed twice, the phase refers to an entry, every cursor has a value for each key
column, and a request that fails changes nothing. -/
theorem table_list_kept (backend : Backend P) (inner : H) (catalog : Catalog) (config : IncrementalSnapshotConfig)
    (sourceName : String) (resume : Option IncrementalSnapshotState) (now : UInt64)
    (driver : IncrementalSnapshotDriver P H)
    (hnew : IncrementalSnapshotDriver.new backend inner catalog config sourceName resume now = .ok driver)
    (hstart : Startable catalog config resume) (calls : List (DriverCall P H))
    (hreads : Meets DriverTrace.step ReadsSized (DriverTrace.start driver) calls) :
    let d := (run DriverTrace.step (DriverTrace.start driver) calls).driver
    (d.tables.map fun t => (t.spec.schema,t.spec.name)).Nodup ∧ PhaseNames d.tables d.phase ∧ CursorsFit d.tables ∧
    ∀ catalog request e, (d.enqueueTables catalog request).2 = .error e →
      (d.enqueueTables catalog request).1 = d := by
  intro d
  have h : Listed d.tables d.phase := run_invariant_of_meets DriverTrace.step
    (P := fun s => Listed s.driver.tables s.driver.phase) step_listed (hstart.listed hnew) hreads
  refine ⟨?_,h.names,h.fit,fun catalog request e he => ?_⟩
  · refine Nodup.of_map (fun name => name.1++"."++name.2) ?_
    rw [map_map]
    exact h.keys
  · unfold IncrementalSnapshotDriver.enqueueTables at he ⊢
    dsimp only at he ⊢
    split at he
    · rfl
    · split_ifs at he

/-- A chunk is read, a table is requested and the snapshot paused. -/
def sampleCalls : List (DriverCall ℕ ScriptedStream) :=
  [.nextEvents [passOf 0 1 [userRow "1"] [],passOf 0 1 [] []],.request shopCatalog ⟨["orders","users"],[]⟩,
    .setPaused true]

theorem table_list_kept_sample :
    let d := (run DriverTrace.step (DriverTrace.start (usersDriver 2)) sampleCalls).driver
    d.tables.map (·.key) = ["public.users","public.orders"] ∧ CursorsFit d.tables ∧ PhaseNames d.tables d.phase := by
  obtain ⟨-,hp,hf,-⟩ := table_list_kept clockBackend (⟨⟩ : ScriptedStream) shopCatalog ⟨["users"],2,[]⟩ "sample"
    none 1 (usersDriver 2) rfl ⟨pairwise_singleton _ _,fun _ h => nomatch h⟩
    sampleCalls ⟨by simp only [ReadsSized]; decide,trivial,trivial,trivial⟩
  exact ⟨by decide,hf,hp⟩

/-- A table configured under two spellings is listed twice; and the cursor of an adopted table is
taken over with more values than the table has key columns. -/
theorem table_listed_twice : (∃ driver, IncrementalSnapshotDriver.new clockBackend (⟨⟩ : ScriptedStream) shopCatalog
      ⟨["users","public.users"],2,[]⟩ "sample" none 1 = .ok driver ∧
      driver.tables.map (fun t => (t.spec.schema,t.spec.name)) = [("public","users"),("public","users")]) ∧
    ∃ driver, IncrementalSnapshotDriver.new clockBackend (⟨⟩ : ScriptedStream) shopCatalog ⟨[],2,[]⟩ "sample"
      (some ⟨"incremental-1",[⟨"public.users",some [.str "1",.str "2"],false,1,1,none⟩],false,false,0⟩) 1 = .ok driver ∧
      driver.tables.map (fun t => (t.pkCursor,t.spec.pkColumns)) = [(some [.str "1",.str "2"],["id"])] :=
  ⟨⟨_,rfl,by decide⟩,⟨_,rfl,by decide⟩⟩
end DriverTrace
end Rustcdc.Incremental
