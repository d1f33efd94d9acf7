import Rustcdc.Source.Incremental.Driver

/-! A driver built from the state another one reported: which tables it takes over, and with which
progress. -/
namespace Rustcdc.Incremental
open List

lemma eqIgnoreAsciiCase_refl (a : String) : eqIgnoreAsciiCase a a = true := by
  simp [eqIgnoreAsciiCase]
def TableProgress.reported (table : TableProgress) : IncrementalSnapshotTableState :=
  ⟨table.key,table.pkCursor,table.isComplete,table.chunksEmitted,table.rowsEmitted,table.spec.condition⟩
lemma snapshotState_tables {P H : Type} (d : IncrementalSnapshotDriver P H) :
    d.snapshotState.tables = d.tables.map (·.reported) :=
  rfl

/-- The name is no other entry's, not even in another case. -/
def Alone (state : IncrementalSnapshotState) (entry : IncrementalSnapshotTableState) : Prop :=
  ∀ other ∈ state.tables, eqIgnoreAsciiCase other.table entry.table = true → other = entry

variable {s : IncrementalSnapshotState} {entry : IncrementalSnapshotTableState} {spec : SnapshotTable}

lemma Alone.table (h : Alone s entry) (he : entry ∈ s.tables) : s.table entry.table = some entry := by
  unfold IncrementalSnapshotState.table
  cases hf : s.tables.find? fun o => eqIgnoreAsciiCase o.table entry.table with
  | none =>
    have hn := List.find?_eq_none.mp hf entry he
    exact absurd (eqIgnoreAsciiCase_refl entry.table) hn
  | some o =>
    have hna := List.find?_some hf
    rw [h o (mem_of_find?_eq_some hf) hna]

lemma describeWithCondition_ok {cat : Catalog} {tr : String} {conditions : List (String × String)}
    (h : describeWithCondition cat tr conditions = .ok spec) :
    ∃ de, cat.describeTable tr = .ok de ∧ de.key = spec.key ∧ de.pkColumns = spec.pkColumns := by
  unfold describeWithCondition at h
  split at h
  · cases h
  · rename_i de hd
    rw [← Except.ok.inj h]
    exact ⟨de,hd,rfl,rfl⟩

def TakenOver (entry : IncrementalSnapshotTableState) (table : TableProgress) : Prop :=
  table.pkCursor = entry.pkCursor ∧ table.isComplete = entry.isComplete ∧
    table.chunksEmitted = entry.chunksEmitted ∧ table.rowsEmitted = entry.rowsEmitted

variable {table : TableProgress}

lemma resumeTable_spec {resume : Option IncrementalSnapshotState}
    (h : resumeTable resume spec = .ok table) : table.spec = spec := by
  unfold resumeTable at h
  dsimp only at h
  split at h
  · split at h
    · cases h
    · rw [← Except.ok.inj h]
  · rw [← Except.ok.inj h]

/-- A configured table takes over the entry found under its name. -/
theorem resumeTable_takenOver (he : s.table spec.key = some entry) (h : resumeTable (some s) spec = .ok table) :
    TakenOver entry table := by
  unfold resumeTable at h
  simp only [Option.bind_some,he,Option.map_some,Option.getD_some] at h
  split at h
  · rename_i cursor hc
    split at h
    · cases h
    · rw [← Except.ok.inj h]
      exact ⟨hc.symm,rfl,rfl,rfl⟩
  · rename_i hc
    rw [← Except.ok.inj h]
    exact ⟨hc.symm,rfl,rfl,rfl⟩

lemma resumeTable_ok (he : s.table spec.key = some entry)
    (ha : ∀ c ∈ entry.pkCursor, c.length = spec.pkColumns.length) :
    resumeTable (some s) spec = .ok ⟨spec,entry.pkCursor,entry.isComplete,entry.chunksEmitted,entry.rowsEmitted⟩ := by
  unfold resumeTable
  simp only [Option.bind_some,he,Option.map_some,Option.getD_some]
  split
  · rename_i cursor hc
    rw [if_neg (not_not.mpr (ha cursor hc)),← hc]
  · rename_i hc
    rw [← hc]
section
variable (c : Catalog) (cds : List (String × String))
  {entries : List IncrementalSnapshotTableState} {tables : List TableProgress}

lemma resumeTables_eq_ok {resume : Option IncrementalSnapshotState} {refs : List String} :
    resumeTables c cds resume refs = .ok tables ↔ List.Forall₂ (fun tr table =>
        describeWithCondition c tr cds = .ok table.spec ∧
          table.spec.pkColumns ≠ [] ∧ resumeTable resume table.spec = .ok table) refs tables := by
  induction refs generalizing tables with
  | nil => simp [resumeTables,eq_comm]
  | cons tr refs ih =>
    rw [resumeTables,forall₂_cons_left_iff]
    cases hd : describeWithCondition c tr cds with
    | error => simp
    | ok spec =>
      dsimp only
      by_cases hk : spec.pkColumns = []
      · rw [if_pos (by simp [hk])]
        constructor
        · intro h
          cases h
        · rintro ⟨table,_,⟨hs,hc,_⟩,_⟩
          rw [← Except.ok.inj hs] at hc
          exact absurd hk hc
      · rw [if_neg (by simp [hk])]
        cases hr : resumeTable resume spec with
        | error =>
          constructor
          · intro h
            cases h
          · rintro ⟨table,_,⟨hs,_,ho⟩,_⟩
            rw [← Except.ok.inj hs,hr] at ho
            cases ho
        | ok table =>
          have hs := resumeTable_spec hr
          dsimp only
          constructor
          · intro h
            split at h
            · cases h
            · rename_i re hre
              refine ⟨table,re,⟨by rw [hs],hs ▸ hk,hs ▸ hr⟩,ih.mp hre,?_⟩
              exact (Except.ok.inj h).symm
          · rintro ⟨table',re,⟨hs',_,ho⟩,hre,rfl⟩
            rw [← Except.ok.inj hs',hr] at ho
            rw [ih.mpr hre,← Except.ok.inj ho]

variable {table : TableProgress}

lemma adoptTables_subset (entries : List IncrementalSnapshotTableState) (h : table ∈ tables) :
    table ∈ adoptTables c cds tables entries := by
  induction entries generalizing tables with
  | nil => exact h
  | cons entry entries ih =>
    rw [adoptTables]
    split
    · exact ih h
    · split
      · exact ih h
      · split
        · exact ih h
        · exact ih (mem_append_left _ h)

/-- An adopted table comes from an unfinished entry that no table has the name of, and takes it
over. -/
theorem adoptTables_origin (h : table ∈ adoptTables c cds tables entries) :
    table ∈ tables ∨ ∃ entry ∈ entries, entry.isComplete = false ∧ (∀ o ∈ tables, o.key ≠ entry.table) ∧
      describeWithCondition c entry.table cds = .ok table.spec ∧
      TakenOver entry table := by
  induction entries generalizing tables with
  | nil => exact .inl h
  | cons entry entries ih =>
    have hr : (∃ o ∈ entries, o.isComplete = false ∧ (∀ table' ∈ tables, table'.key ≠ o.table) ∧
        describeWithCondition c o.table cds = .ok table.spec ∧
        TakenOver o table) → ∃ o ∈ entry::entries, o.isComplete = false ∧
        (∀ table' ∈ tables, table'.key ≠ o.table) ∧
        describeWithCondition c o.table cds = .ok table.spec ∧
        TakenOver o table :=
      fun ⟨o,hm,ho⟩ => ⟨o,mem_cons_of_mem _ hm,ho⟩
    rw [adoptTables] at h
    split_ifs at h with hs
    · exact (ih h).imp_right hr
    · simp only [Bool.or_eq_true,not_or,any_eq_true,decide_eq_true_eq,not_exists,not_and] at hs
      split at h
      · exact (ih h).imp_right hr
      · rename_i spec hd
        split at h
        · exact (ih h).imp_right hr
        · rcases ih h with hm | ⟨o,hm,hi,hn,ho⟩
          · rcases mem_append.mp hm with hm | hm
            · exact .inl hm
            · obtain rfl := mem_singleton.mp hm
              have hi : entry.isComplete = false := Bool.eq_false_of_not_eq_true hs.1
              exact .inr ⟨entry,mem_cons_self,hi,hs.2,hd,rfl,hi.symm,rfl,rfl⟩
          · refine .inr (hr ⟨o,hm,hi,fun table' ht' => ?_,ho⟩)
            exact hn table' (mem_append_left _ ht')

/-- Every unfinished entry whose table is still there has a table of its name. -/
theorem adoptTables_covers (tables : List TableProgress) {entry : IncrementalSnapshotTableState}
    (he : entry ∈ entries) (hi : entry.isComplete = false) {spec : SnapshotTable}
    (hd : describeWithCondition c entry.table cds = .ok spec)
    (hk : spec.key = entry.table) (hc : spec.pkColumns ≠ []) :
    ∃ table ∈ adoptTables c cds tables entries, table.key = entry.table := by
  induction entries generalizing tables with
  | nil => cases he
  | cons f entries ih =>
    rw [adoptTables]
    rcases mem_cons.mp he with rfl | he
    · by_cases hp : tables.any (·.key = entry.table) = true
      · obtain ⟨table,ht,hn⟩ := any_eq_true.mp hp
        rw [hi,hp,Bool.false_or,if_pos rfl]
        exact ⟨table,adoptTables_subset c cds entries ht,of_decide_eq_true hn⟩
      · rw [hi,Bool.eq_false_of_not_eq_true hp,Bool.false_or,if_neg Bool.false_ne_true,hd]
        dsimp only
        rw [if_neg (by simpa using hc)]
        exact ⟨_,adoptTables_subset c cds entries (mem_append_right _ (mem_singleton_self _)),hk⟩
    · split
      · exact ih tables he
      · split
        · exact ih tables he
        · split
          · exact ih tables he
          · exact ih _ he

lemma adoptTables_nodup (hk : ∀ entry ∈ entries, entry.isComplete = false →
      (∃ table ∈ tables, table.key = entry.table) ∨ ∀ spec,
        describeWithCondition c entry.table cds = .ok spec → spec.key = entry.table)
    (h : (tables.map (·.key)).Nodup) :
    ((adoptTables c cds tables entries).map (·.key)).Nodup := by
  induction entries generalizing tables with
  | nil => exact h
  | cons entry entries ih =>
    have hr := fun o hm => hk o (mem_cons_of_mem entry hm)
    rw [adoptTables]
    split_ifs with hs
    · exact ih hr h
    · simp only [Bool.or_eq_true,not_or,any_eq_true,decide_eq_true_eq,not_exists,not_and] at hs
      split
      · exact ih hr h
      · rename_i spec hd
        split
        · exact ih hr h
        · have hn : spec.key = entry.table := by
            rcases hk entry mem_cons_self (Bool.eq_false_of_not_eq_true hs.1) with
              ⟨table,ht,hke⟩ | hn
            · exact absurd hke (hs.2 table ht)
            · exact hn spec hd
          refine ih (fun o hm hi => ?_) ?_
          · refine (hr o hm hi).imp_left fun ⟨table,ht,hke⟩ => ?_
            exact ⟨table,mem_append_left _ ht,hke⟩
          · rw [map_append,map_singleton,nodup_append]
            refine ⟨h,by simp,fun k hke o ho => ?_⟩
            obtain ⟨table,ht,rfl⟩ := mem_map.mp hke
            rw [mem_singleton.mp ho]
            exact fun he => hs.2 table ht (he.trans hn)
end
namespace IncrementalSnapshotDriver
variable {P H : Type} {backend : Backend P} {inner : H} {ca : Catalog}
  {c : IncrementalSnapshotConfig} {sourceName : String}
  {r : Option IncrementalSnapshotState} {now : UInt64} {d : IncrementalSnapshotDriver P H}

lemma new_eq_ok : new backend inner ca c sourceName r now = .ok d ↔ ∃ tables, resumeTables ca c.tableConditions r
        (if (r.map (·.stopped)).getD false then [] else c.tables) = .ok tables ∧
      let adopted := if (r.map (·.stopped)).getD false then tables
        else adoptTables ca c.tableConditions tables ((r.map (·.tables)).getD [])
      let persistedId := (r.map (·.snapshotId)).getD ""
      d = {
        backend := backend
        inner := inner
        tables := adopted
        phase := nextPhase adopted
        chunkSize := max c.chunkSize 1
        tableConditions := c.tableConditions
        sourceName := sourceName
        snapshotId := if persistedId.isEmpty then "incremental-"++toString now.toNat else persistedId
        eventsEmitted := 0
        paused := (r.map (·.paused)).getD false
        generation := (r.map (·.generation)).getD 0
        stopped := (r.map (·.stopped)).getD false
        deferred := []} := by
  unfold new
  dsimp only
  split
  · rename_i e he
    rw [he]
    simp
  · rename_i tables ht
    constructor
    · intro h
      exact ⟨tables,ht,(Except.ok.inj h).symm⟩
    · rintro ⟨tables',ht',rfl⟩
      rw [Except.ok.inj (ht'.symm.trans ht)]

variable {s : IncrementalSnapshotState}

/-- A table of a driver that was not stopped is configured or adopted. -/
theorem new_origin (hn : new backend inner ca c sourceName (some s) now = .ok d)
    {table : TableProgress} (hta : table ∈ d.tables) :
    (∃ tr ∈ c.tables, describeWithCondition ca tr c.tableConditions = .ok table.spec ∧
        resumeTable (some s) table.spec = .ok table) ∨
      ∃ entry ∈ s.tables, entry.isComplete = false ∧
        describeWithCondition ca entry.table c.tableConditions = .ok table.spec ∧
        TakenOver entry table := by
  obtain ⟨tables,ht,hdr⟩ := new_eq_ok.mp hn
  rw [hdr] at hta
  rw [resumeTables_eq_ok] at ht
  have hc : ∀ refs, List.Forall₂ (fun tr table =>
      describeWithCondition ca tr c.tableConditions = .ok table.spec ∧
        table.spec.pkColumns ≠ [] ∧ resumeTable (some s) table.spec = .ok table) refs tables →
      table ∈ tables → ∃ tr ∈ refs, describeWithCondition ca tr c.tableConditions = .ok table.spec ∧
        resumeTable (some s) table.spec = .ok table := by
    intro refs hre hm
    obtain ⟨i,hi,rfl⟩ := getElem_of_mem hm
    obtain ⟨hl,hg⟩ := forall₂_iff_get.mp hre
    obtain ⟨hd,_,hr⟩ := hg i (hl ▸ hi) hi
    exact ⟨_,getElem_mem _,hd,hr⟩
  cases hs : s.stopped with
  | true =>
    simp only [Option.map_some,Option.getD_some,hs,if_true] at ht hta
    rw [forall₂_nil_left_iff.mp ht] at hta
    cases hta
  | false =>
    simp only [Option.map_some,Option.getD_some,hs,Bool.false_eq_true,if_false] at ht hta
    refine (adoptTables_origin _ _ hta).imp (hc _ ht) ?_
    exact fun ⟨entry,hm,hin,_,he⟩ => ⟨entry,hm,hin,he⟩

lemma new_covers (hs : s.stopped = false) (hn : new backend inner ca c sourceName (some s) now = .ok d)
    {entry : IncrementalSnapshotTableState} (he : entry ∈ s.tables)
    (hi : entry.isComplete = false) {spec : SnapshotTable}
    (hd : describeWithCondition ca entry.table c.tableConditions = .ok spec)
    (hk : spec.key = entry.table) (hc : spec.pkColumns ≠ []) :
    ∃ table ∈ d.tables, table.key = entry.table := by
  obtain ⟨tables,_,hdr⟩ := new_eq_ok.mp hn
  rw [hdr]
  simp only [Option.map_some,Option.getD_some,hs,Bool.false_eq_true,if_false]
  exact adoptTables_covers _ _ tables he hi hd hk hc
end IncrementalSnapshotDriver
end Rustcdc.Incremental
