import Rustcdc.Source.Incremental.Condition
import Rustcdc.Source.Incremental.Resume

/-! A snapshot across restarts: the driver that is built from what the last one reported works on
the same unfinished tables. -/
namespace Rustcdc.Incremental
open List Machine

/-- An order in which a map of conditions lists its entries. -/
abbrev MapOrder := {order : List (String × String) → List (String × String) //
  ∀ conditions, (order conditions).Perm conditions}

/-- What happens to a driver between two restarts, and a restart, which builds its map anew. -/
inductive LifeCall (P H : Type) [StreamHandle H]
  | nextEvents (answers : List (PassAnswer P H))
  | request (catalog : Catalog) (request : SnapshotRequest)
  | setPaused (paused : Bool)
  | stopSnapshot
  | restart (order : MapOrder) (inner : H) (now : UInt64)

/-- What does not change over the life of a snapshot. -/
structure Deployment (P : Type) where
  backend : Backend P
  describeTable : String → Except Error SnapshotTable
  config : IncrementalSnapshotConfig
  sourceName : String

namespace Deployment
variable {P H : Type} (deployment : Deployment P)

/-- The catalog with the conditions in the order they are written in. -/
def catalog : Catalog := ⟨deployment.describeTable,id⟩

/-- A reference as the static configuration resolves it. -/
def describe (tableRef : String) : Except Error SnapshotTable :=
  describeWithCondition deployment.catalog tableRef deployment.config.tableConditions

def build (order : MapOrder) (inner : H) (resume : Option IncrementalSnapshotState) (now : UInt64) :
    Except Error (IncrementalSnapshotDriver P H) :=
  IncrementalSnapshotDriver.new deployment.backend inner ⟨deployment.describeTable,order.1⟩ deployment.config
    deployment.sourceName resume now

/-- The configured conditions that are looked for under a reference are the same text, so that the order
of the map does not matter. -/
def Unequivocal : Prop := ∀ tableRef spec, deployment.describeTable tableRef = .ok spec →
  ∀ entry ∈ deployment.config.tableConditions, ∀ other ∈ deployment.config.tableConditions,
    spells tableRef spec entry.1 = true → spells tableRef spec other.1 = true → entry.2 = other.2

/-- A restart that fails is tried again from the same checkpoint. -/
def step [Ord P] [StreamHandle H] (d : IncrementalSnapshotDriver P H) :
    LifeCall P H → IncrementalSnapshotDriver P H
  | .nextEvents answers => ((d.nextEvents answers).map (·.1)).getD d
  | .request catalog request => (d.enqueueTables catalog request).1
  | .setPaused paused => (d.setPaused paused).1
  | .stopSnapshot => d.stopSnapshot.1
  | .restart order inner now =>
    match deployment.build order inner (some d.snapshotState) now with
    | .ok d => d
    | .error _ => d

/-- The configured tables, as far as the catalog knows them. -/
def configured : List SnapshotTable :=
  deployment.config.tables.filterMap fun tableRef => (deployment.describe tableRef).toOption

/-- The table is what a restart resolves its name to: a configured one, or else the one the name
itself stands for. -/
def Resolves (spec : SnapshotTable) : Prop := spec.pkColumns ≠ [] ∧ (spec ∈ deployment.configured ∨
    (∀ other ∈ deployment.configured, other.key ≠ spec.key) ∧ (deployment.describe spec.key).toOption = some spec)
  deriving Decidable

lemma toOption_eq_some {α : Type} {x : Except Error α} {a : α} : x.toOption = some a ↔ x = .ok a := by
  cases x <;> simp [Except.toOption]
lemma mem_configured {spec : SnapshotTable} : spec ∈ deployment.configured ↔
    ∃ tr ∈ deployment.config.tables, deployment.describe tr = .ok spec := by
  simp [configured,toOption_eq_some]
end Deployment
lemma eqIgnoreAsciiCase_symm (a b : String) : eqIgnoreAsciiCase a b = eqIgnoreAsciiCase b a := by
  simp [eqIgnoreAsciiCase,eq_comm]

/-- Tables whose names do not even agree up to case. -/
def Distinct (a b : SnapshotTable) : Prop := eqIgnoreAsciiCase a.key b.key = false
  deriving Decidable

instance : Std.Symm Distinct where
  symm a b h := by
    unfold Distinct
    rw [eqIgnoreAsciiCase_symm]
    exact h

variable {a b : SnapshotTable}

lemma Distinct.key_ne (h : Distinct a b) : a.key ≠ b.key := by
  intro he
  unfold Distinct at h
  rw [he,eqIgnoreAsciiCase_refl] at h
  cases h

variable {specs : List SnapshotTable} {tables : List TableProgress}
section
variable (h : specs.Pairwise Distinct) (ha : a ∈ specs) (hb : b ∈ specs)
include h ha hb

/-- Two of a list of distinct tables with names alike are one. -/
theorem eq_of_alike (hal : eqIgnoreAsciiCase a.key b.key = true) : a = b := by
  by_contra hn
  have hd : eqIgnoreAsciiCase a.key b.key = false := h.forall ha hb hn
  cases hd.symm.trans hal

lemma eq_of_key (hk : a.key = b.key) : a = b := eq_of_alike h ha hb (by rw [hk,eqIgnoreAsciiCase_refl])
end
section
variable (h : (tables.map (·.spec)).Pairwise Distinct) {a b : TableProgress} (ha : a ∈ tables) (hb : b ∈ tables)
include h ha hb

lemma distinct_of_ne (hn : a ≠ b) : Distinct a.spec b.spec := by
  have hs : Std.Symm fun a b : TableProgress => Distinct a.spec b.spec := ⟨fun _ _ h => Std.Symm.symm _ _ h⟩
  exact (pairwise_map.mp h).forall ha hb hn

lemma table_eq_of_key (hk : eqIgnoreAsciiCase a.key b.key = true) : a = b := by
  by_contra hn
  have hd : eqIgnoreAsciiCase a.key b.key = false := distinct_of_ne h ha hb hn
  cases hd.symm.trans hk
end
namespace Deployment
variable {P H : Type} {deployment : Deployment P}

lemma Resolves.unique (hs : deployment.configured.Pairwise Distinct) {a b : SnapshotTable}
    (ha : deployment.Resolves a) (hb : deployment.Resolves b) (hk : a.key = b.key) : a = b := by
  obtain ⟨_,ha | ⟨hn,ha⟩⟩ := ha
  · obtain ⟨_,hb | ⟨hn',_⟩⟩ := hb
    · exact eq_of_key hs ha hb hk
    · exact absurd hk (hn' a ha)
  · obtain ⟨_,hb | ⟨_,hb⟩⟩ := hb
    · exact absurd hk.symm (hn b hb)
    · rw [hk,hb] at ha
      exact (Option.some.inj ha).symm

/-- A cursor of the chunk under way has a value for each key column of its table. -/
def PhaseSized (specs : List SnapshotTable) : Phase P → Prop
  | .chunkCollect collect => ∃ spec, specs[collect.tableIdx]? = some spec ∧
      collect.nextCursor.length = spec.pkColumns.length
  | .chunkEmit tableIdx _ nextCursor _ => ∃ spec, specs[tableIdx]? = some spec ∧
      nextCursor.length = spec.pkColumns.length
  | _ => True

/-- What a restart needs to find the tables again. -/
structure Restorable (deployment : Deployment P) (d : IncrementalSnapshotDriver P H) : Prop where
  separate : (d.tables.map (·.spec)).Pairwise Distinct
  resolves : ∀ spec ∈ d.tables.map (·.spec), deployment.Resolves spec
  present : d.stopped = false → ∀ spec ∈ deployment.configured, spec ∈ d.tables.map (·.spec)
  stopped : d.stopped = true → d.tables = []
  arity : ∀ table ∈ d.tables, ∀ c ∈ table.pkCursor, c.length = table.spec.pkColumns.length
  phase : PhaseSized (d.tables.map (·.spec)) d.phase

lemma phaseSized_nextPhase (specs : List SnapshotTable) (tables : List TableProgress) :
    PhaseSized specs (nextPhase tables : Phase P) := by
  unfold nextPhase
  split <;> trivial

/-- The configuration can be started with. -/
def Sound (deployment : Deployment P) : Prop := ∀ tableRef ∈ deployment.config.tables,
    ∃ spec, deployment.describe tableRef = .ok spec ∧ spec.pkColumns ≠ []
section
variable {d : IncrementalSnapshotDriver P H} {table : TableProgress}
section
variable (h : deployment.Restorable d) (ht : table ∈ d.tables)
include h ht

lemma Restorable.alone : Alone d.snapshotState table.reported := by
  intro o ho ha
  rw [snapshotState_tables] at ho
  obtain ⟨table',ht',rfl⟩ := mem_map.mp ho
  rw [table_eq_of_key h.separate ht' ht ha]

lemma Restorable.lookup : d.snapshotState.table table.key = some table.reported := by
  refine (h.alone ht).table ?_
  rw [snapshotState_tables]
  exact mem_map_of_mem ht

lemma Restorable.resumeTable : resumeTable (some d.snapshotState) table.spec = .ok table := by
  rw [resumeTable_ok (h.lookup ht) (h.arity table ht)]
  rfl
end
lemma Restorable.resumeTables (h : deployment.Restorable d) (hso : deployment.Sound)
    (hs : d.stopped = false) : ∃ tables, Incremental.resumeTables deployment.catalog
        deployment.config.tableConditions (some d.snapshotState) deployment.config.tables = .ok tables ∧
      (∀ table ∈ tables, table ∈ d.tables) ∧ tables.map (·.spec) = deployment.configured := by
  simp only [resumeTables_eq_ok]
  have hr : ∀ refs, (∀ tr ∈ refs, tr ∈ deployment.config.tables) →
      ∃ tables, List.Forall₂ (fun tr table => describeWithCondition deployment.catalog tr
          deployment.config.tableConditions = .ok table.spec ∧ table.spec.pkColumns ≠ [] ∧
          Incremental.resumeTable (some d.snapshotState) table.spec = .ok table) refs tables ∧
        (∀ table ∈ tables, table ∈ d.tables) ∧ tables.map (·.spec) =
          refs.filterMap fun tr => (deployment.describe tr).toOption := by
    intro refs
    induction refs with
    | nil => exact fun _ => ⟨[],.nil,by simp,rfl⟩
    | cons tr refs ih =>
      intro hm
      obtain ⟨tables,hf,hin,hspecs⟩ := ih fun o ho =>
        hm o (mem_cons_of_mem _ ho)
      obtain ⟨spec,hd,hco⟩ := hso tr (hm tr mem_cons_self)
      have hc : spec ∈ deployment.configured := deployment.mem_configured.mpr ⟨tr,hm tr mem_cons_self,hd⟩
      obtain ⟨table,ht,rfl⟩ := mem_map.mp (h.present hs spec hc)
      refine ⟨table::tables,.cons ⟨hd,hco,h.resumeTable ht⟩ hf,?_,?_⟩
      · exact forall_mem_cons.mpr ⟨ht,hin⟩
      · rw [map_cons,hspecs,filterMap_cons,hd]
        rfl
  exact hr _ fun _ h => h

structure Rebuilt (d rebuilt : IncrementalSnapshotDriver P H) : Prop where
  unfinished : (rebuilt.tables.filter (!·.isComplete)).Perm (d.tables.filter (!·.isComplete))
  /-- No table is new, or has another's progress. -/
  tables : ∀ table ∈ rebuilt.tables, table ∈ d.tables
  paused : rebuilt.paused = d.paused
  stopped : rebuilt.stopped = d.stopped
  generation : rebuilt.generation = d.generation
section
variable {ts : List TableProgress} (h : deployment.Restorable d) (hin : ∀ table ∈ ts, table ∈ d.tables)
  (hspecs : ts.map (·.spec) = deployment.configured)
include h hspecs
variable {table : TableProgress}

lemma Restorable.found (ht : table ∈ d.tables) : (∃ table' ∈ ts, table'.spec = table.spec) ∨
      describeWithCondition deployment.catalog table.key deployment.config.tableConditions = .ok table.spec := by
  obtain ⟨_,hr⟩ := h.resolves table.spec (mem_map_of_mem ht)
  rcases hr with hc | ⟨_,hn⟩
  · rw [← hspecs] at hc
    obtain ⟨table',ht',he⟩ := mem_map.mp hc
    exact .inl ⟨table',ht',he⟩
  · exact .inr (toOption_eq_some.mp hn)

include hin

lemma Restorable.adopted_mem (ht : table ∈ adoptTables deployment.catalog deployment.config.tableConditions ts
      d.snapshotState.tables) : table ∈ d.tables := by
  rcases adoptTables_origin _ _ ht with hm | ⟨e,he,_,hne,hd,hta⟩
  · exact hin table hm
  · rw [snapshotState_tables] at he
    obtain ⟨old,ho,rfl⟩ := mem_map.mp he
    rcases h.found hspecs ho with ⟨table',ht',hs⟩ | hn
    · exact absurd (congrArg SnapshotTable.key hs) (hne table' ht')
    · have hs : table.spec = old.spec := Except.ok.inj (hd.symm.trans hn)
      obtain ⟨hcu,hc,hch,hr⟩ := hta
      have hsa : table = old := by
        cases table
        cases old
        simp only [TableProgress.reported] at hs hcu hc hch hr
        rw [hs,hcu,hc,hch,hr]
      rwa [hsa]

lemma Restorable.adopted_of_mem (ht : table ∈ d.tables) (hi : table.isComplete = false) :
    table ∈ adoptTables deployment.catalog deployment.config.tableConditions ts d.snapshotState.tables := by
  rcases h.found hspecs ht with ⟨table',ht',hsp⟩ | hn
  · have hs : table' = table := table_eq_of_key h.separate (hin table' ht') ht
      (by rw [TableProgress.key,TableProgress.key,hsp,eqIgnoreAsciiCase_refl])
    exact adoptTables_subset _ _ _ (hs ▸ ht')
  · have hr : table.reported ∈ d.snapshotState.tables := by
      rw [snapshotState_tables]
      exact mem_map_of_mem ht
    obtain ⟨hc,_⟩ := h.resolves table.spec (mem_map_of_mem ht)
    obtain ⟨table',ht',hk⟩ := adoptTables_covers deployment.catalog
      deployment.config.tableConditions ts hr hi hn rfl hc
    have hs : table' = table := table_eq_of_key h.separate (h.adopted_mem hin hspecs ht') ht
      (by rw [hk]; exact eqIgnoreAsciiCase_refl _)
    exact hs ▸ ht'

omit hin in
lemma Restorable.adopted_nodup (hse : deployment.configured.Pairwise Distinct) :
    ((adoptTables deployment.catalog deployment.config.tableConditions ts
      d.snapshotState.tables).map (·.key)).Nodup := by
  refine adoptTables_nodup _ _ (fun e he _ => ?_) ?_
  · rw [snapshotState_tables] at he
    obtain ⟨table,ht,rfl⟩ := mem_map.mp he
    rcases h.found hspecs ht with ⟨table',ht',hs⟩ | hn
    · exact .inl ⟨table',ht',congrArg SnapshotTable.key hs⟩
    · refine .inr fun spec hs => ?_
      rw [← Except.ok.inj (hn.symm.trans hs)]
      rfl
  · have hk : ts.map (·.key) = deployment.configured.map (·.key) := by
      rw [← hspecs,map_map]
      rfl
    rw [hk]
    exact pairwise_map.mpr (hse.imp Distinct.key_ne)
end
lemma describeWithCondition_order (hu : deployment.Unequivocal) (order : MapOrder) (tableRef : String) :
    describeWithCondition ⟨deployment.describeTable,order.1⟩ tableRef deployment.config.tableConditions =
      deployment.describe tableRef := by
  unfold Deployment.describe describeWithCondition catalog
  dsimp only
  cases hd : deployment.describeTable tableRef with
  | error => rfl
  | ok spec =>
    -- the lookup ends at one text in either order
    have hl : lookupCondition ⟨deployment.describeTable,order.1⟩ deployment.config.tableConditions tableRef spec =
        lookupCondition ⟨deployment.describeTable,id⟩ deployment.config.tableConditions tableRef spec := by
      have hi : Catalog.Iterates ⟨deployment.describeTable,id⟩ := fun _ => .refl _
      have hi' : Catalog.Iterates ⟨deployment.describeTable,order.1⟩ := order.2
      by_cases hx : ∃ entry ∈ deployment.config.tableConditions, spells tableRef spec entry.1 = true
      · obtain ⟨entry,he,hs⟩ := hx
        have hon := fun o ho hso => hu tableRef spec hd o ho entry he hso hs
        rw [lookupCondition_eq hi' he hs hon,lookupCondition_eq hi he hs hon]
      · push Not at hx
        rw [lookupCondition_none hi' hx,lookupCondition_none hi hx]
    dsimp only
    rw [hl]
section
variable {c c' : Catalog} {cds : List (String × String)}
  (h : ∀ tr, describeWithCondition c tr cds = describeWithCondition c' tr cds)
include h

omit deployment in
lemma resumeTables_catalog (resume : Option IncrementalSnapshotState) (refs : List String) :
    resumeTables c cds resume refs = resumeTables c' cds resume refs := by
  induction refs with
  | nil => rfl
  | cons tr refs ih => rw [resumeTables,resumeTables,h,ih]

omit deployment in
lemma adoptTables_catalog (tables : List TableProgress) (persisted : List IncrementalSnapshotTableState) :
    adoptTables c cds tables persisted = adoptTables c' cds tables persisted := by
  induction persisted generalizing tables with
  | nil => rfl
  | cons entry persisted ih =>
    rw [adoptTables,adoptTables,h,ih]
    simp only [ih]
end
/-- With unequivocal conditions each build is the one in the order they are written in. -/
lemma build_order (hu : deployment.Unequivocal) (order : MapOrder) (inner : H)
    (resume : Option IncrementalSnapshotState) (now : UInt64) : deployment.build order inner resume now =
      IncrementalSnapshotDriver.new deployment.backend inner deployment.catalog deployment.config
        deployment.sourceName resume now := by
  have h := describeWithCondition_order hu order
  unfold Deployment.build IncrementalSnapshotDriver.new
  dsimp only
  rw [resumeTables_catalog h]
  simp only [adoptTables_catalog h]

/-- A restart works, and gives back a driver that can be restarted again. -/
theorem Restorable.build (h : deployment.Restorable d) (hso : deployment.Sound)
    (hse : deployment.configured.Pairwise Distinct) (hu : deployment.Unequivocal) (order : MapOrder) (i : H)
    (now : UInt64) : ∃ rebuilt, deployment.build order i (some d.snapshotState) now = .ok rebuilt ∧
      Rebuilt d rebuilt ∧ deployment.Restorable rebuilt := by
  simp only [build_order hu,IncrementalSnapshotDriver.new_eq_ok]
  cases hs : d.stopped with
  | true =>
    have hf : d.snapshotState.stopped = true := hs
    have hno := h.stopped hs
    simp only [Option.map_some,Option.getD_some,hf,if_true]
    refine ⟨_,⟨[],rfl,rfl⟩,⟨?_,by simp,rfl,hs.symm,rfl⟩,⟨?_,by simp,by simp,fun _ => rfl,by simp,?_⟩⟩
    · rw [hno]
    · exact List.Pairwise.nil
    · trivial
  | false =>
    have hf : d.snapshotState.stopped = false := hs
    obtain ⟨tables,hta,hin,hspecs⟩ := h.resumeTables hso hs
    have hm : ∀ table ∈ adoptTables deployment.catalog deployment.config.tableConditions tables
        d.snapshotState.tables, table ∈ d.tables := fun table => h.adopted_mem hin hspecs
    have hk := h.adopted_nodup hspecs hse
    have hn := hk.of_map
    simp only [Option.map_some,Option.getD_some,hf,Bool.false_eq_true,if_false]
    refine ⟨_,⟨tables,hta,rfl⟩,⟨?_,hm,rfl,hs.symm,rfl⟩,⟨?_,?_,?_,by simp,?_,?_⟩⟩
    · have ho : d.tables.Nodup := by
        refine (pairwise_map.mp h.separate).imp fun hd he => ?_
        exact hd.key_ne (congrArg TableProgress.key he)
      refine (perm_ext_iff_of_nodup (hn.filter _) (ho.filter _)).mpr fun table => ?_
      simp only [mem_filter,Bool.not_eq_true']
      constructor
      · exact fun ⟨ht,hi⟩ => ⟨hm table ht,hi⟩
      · exact fun ⟨ht,hi⟩ => ⟨h.adopted_of_mem hin hspecs ht hi,hi⟩
    · refine pairwise_map.mpr (hn.pairwise_of_forall_ne fun a ha b hb hne => ?_)
      exact distinct_of_ne h.separate (hm a ha) (hm b hb) hne
    · intro spec hsp
      obtain ⟨table,ht,rfl⟩ := mem_map.mp hsp
      exact h.resolves _ (mem_map_of_mem (hm table ht))
    · intro _ spec hsp
      rw [← hspecs] at hsp
      obtain ⟨table,ht,rfl⟩ := mem_map.mp hsp
      exact mem_map_of_mem (adoptTables_subset _ _ _ ht)
    · exact fun table ht => h.arity table (hm table ht)
    · exact phaseSized_nextPhase _ _
end
section
variable [Ord P] [StreamHandle H] {d : IncrementalSnapshotDriver P H}

/-- The rows of a chunk read have a cursor value for each key column. -/
def CursorsSized (d : IncrementalSnapshotDriver P H) (answer : PassAnswer P H) : Prop :=
  match d.phase, answer.chunk with
  | .chunkPrepare tableIdx, .ok rows => ∀ index ∈ d.chunkTable tableIdx,
      ∀ table ∈ d.tables[index]?, ∀ row ∈ rows, row.cursor.length = table.spec.pkColumns.length
  | _, _ => True

instance (answer : PassAnswer P H) : Decidable (CursorsSized d answer) :=
  decidable_of_iff ((match d.phase,answer.chunk with
    | .chunkPrepare tableIdx,.ok rows => decide (∀ index ∈ d.chunkTable tableIdx,
        ∀ table ∈ d.tables[index]?, ∀ row ∈ rows, row.cursor.length = table.spec.pkColumns.length)
    | _,_ => true) = true) (by unfold CursorsSized; split <;> simp)

variable {a : PassAnswer P H}

lemma pass_phaseSized (h : PhaseSized (d.tables.map (·.spec)) d.phase) (hs : CursorsSized d a) :
    PhaseSized (d.tables.map (·.spec)) (d.pass a).1.phase := by
  have hc := pass_cases d a
  generalize d.pass a = passed at hc
  cases hc with
  | through _ ht =>
    obtain ⟨inner,deferred,hf⟩ := passThrough_frame d a
    rw [ht,hf]
    exact h
  | prepared hp _ hr =>
    cases hr with
    | finished => trivial
    | failed => exact h
    | completed => exact phaseSized_nextPhase _ _
    | @started i low high rows ht _ hch _ hro =>
      obtain ⟨table,ha,_⟩ := chunkTable_incomplete ht
      rw [CursorsSized,hp,hch] at hs
      refine ⟨table.spec,?_,?_⟩
      · rw [List.getElem?_map]
        exact congrArg (Option.map _) ha
      · rw [List.getLast?_eq_getLast_of_ne_nil hro]
        exact hs i ht table ha _ (getLast_mem hro)
  | @collected co hp hr =>
    cases hr with
    | failed => exact h
    | @batch inner passed =>
      rw [hp] at h
      have hr := overrideRows_overridden d.backend (d.tableAt co.tableIdx) co (d.innerEvents a)
      obtain ⟨spec,hsp,hl⟩ := h
      rw [← hr.tableIdx] at hsp
      rw [← hr.nextCursor] at hl
      cases passed with
      | false | true => exact ⟨spec,hsp,hl⟩
  | emitted hp hr =>
    rw [hp] at h
    cases hr with
    | rows => exact h
    | committed => trivial

/-- Every cursor has a value for each key column. -/
def CursorsFit (tables : List TableProgress) : Prop :=
  ∀ table ∈ tables, ∀ c ∈ table.pkCursor, c.length = table.spec.pkColumns.length

omit [Ord P] in
/-- A cursor stays, or becomes that of the chunk just emitted. -/
theorem PassTables.sized {tables : List TableProgress} (hta : PassTables d a tables)
    (h : PhaseSized (d.tables.map (·.spec)) d.phase) (ha : CursorsFit d.tables) : CursorsFit tables := by
  cases hta with
  | same => exact ha
  | completed =>
    intro table ht
    obtain ⟨i,hi,rfl⟩ := getElem_of_mem ht
    have hlt : i < d.tables.length := by simpa using hi
    rw [getElem_modify]
    split
    · exact ha d.tables[i] (getElem_mem hlt)
    · exact ha d.tables[i] (getElem_mem hlt)
  | @committed ti nc n hp =>
    rw [hp] at h
    obtain ⟨spec,hs,hl⟩ := h
    intro table ht
    obtain ⟨i,hi,rfl⟩ := getElem_of_mem ht
    have hlt : i < d.tables.length := by
      simpa [IncrementalSnapshotDriver.commitChunkProgress] using hi
    simp only [IncrementalSnapshotDriver.commitChunkProgress,getElem_modify]
    split
    · rename_i he
      subst he
      rw [List.getElem?_map,List.getElem?_eq_getElem hlt,Option.map_some] at hs
      split
      · exact ha d.tables[ti] (getElem_mem hlt)
      · intro c hc
        rw [← Option.some.inj hc,hl,Option.some.inj hs]
    · exact ha d.tables[i] (getElem_mem hlt)

lemma Restorable.pass (h : deployment.Restorable d) (hsi : CursorsSized d a) :
    deployment.Restorable (d.pass a).1 := by
  have hp := pass_phaseSized h.phase hsi
  obtain ⟨i,tables,ph,df,ht,hf⟩ := pass_frame d a
  have hspecs := ht.specs
  have ha := PassTables.sized ht h.phase h.arity
  rw [hf] at hp ⊢
  rw [← hspecs] at hp
  refine ⟨?_,?_,?_,fun hs => ?_,ha,hp⟩
  · rw [hspecs]
    exact h.separate
  · rw [hspecs]
    exact h.resolves
  · rw [hspecs]
    exact h.present
  · rw [h.stopped hs,map_nil,map_eq_nil_iff] at hspecs
    exact hspecs

lemma Restorable.nextEvents (h : deployment.Restorable d) {as : List (PassAnswer P H)}
    (hs : LoopMeets IncrementalSnapshotDriver.pass CursorsSized d as) :
    deployment.Restorable (((d.nextEvents as).map (·.1)).getD d) := by
  unfold IncrementalSnapshotDriver.nextEvents IncrementalSnapshotDriver.drive
  cases hl : loop IncrementalSnapshotDriver.pass d as with
  | none => exact h
  | some ended =>
    obtain ⟨d',rs⟩ := ended
    have he : deployment.Restorable d' := loop_invariant_of_meets
      (P := fun d => deployment.Restorable d) (fun d a h hs => h.pass hs) h hs hl
    simp only [Option.map_some,Option.getD_some]
    unfold IncrementalSnapshotDriver.counted
    split
    · exact he
    · exact ⟨he.separate,he.resolves,he.present,he.stopped,he.arity,he.phase⟩
end
section
/-- Tables that are told apart, each what a restart resolves its name to. -/
structure Known (deployment : Deployment P) (specs : List SnapshotTable) : Prop where
  separate : specs.Pairwise Distinct
  resolves : ∀ spec ∈ specs, deployment.Resolves spec

variable {specs : List SnapshotTable} {ts : List TableProgress}

lemma Known.enqueueTable (hse : deployment.configured.Pairwise Distinct)
    (h : deployment.Known (ts.map (·.spec))) {spec : SnapshotTable}
    (hsp : deployment.Resolves spec) (ha : ∀ o ∈ ts.map (·.spec),
      eqIgnoreAsciiCase o.key spec.key = true → o.key = spec.key) :
    ∃ added, (enqueueTable ts spec).1.map (·.spec) = ts.map (·.spec)++added ∧
      (∀ o ∈ added, o = spec) ∧ spec ∈ (enqueueTable ts spec).1.map (·.spec) ∧
      deployment.Known ((enqueueTable ts spec).1.map (·.spec)) := by
  unfold Incremental.enqueueTable
  cases hf : ts.findIdx? (·.key = spec.key) with
  | none =>
    simp only [map_append,map_singleton]
    refine ⟨[spec],rfl,by simp,by simp,?_,?_⟩
    · rw [pairwise_append]
      refine ⟨h.separate,pairwise_singleton _ _,fun o ho spec' hsp' => ?_⟩
      rw [mem_singleton.mp hsp']
      refine Bool.eq_false_of_not_eq_true fun hs => ?_
      obtain ⟨table,ht,rfl⟩ := mem_map.mp ho
      have hn := List.findIdx?_eq_none_iff.mp hf table ht
      exact absurd (ha table.spec ho hs) (of_decide_eq_false hn)
    · intro o ho
      rcases mem_append.mp ho with ho | ho
      · exact h.resolves o ho
      · rw [mem_singleton.mp ho]
        exact hsp
  | some ind =>
    obtain ⟨hl,hk,_⟩ := List.findIdx?_eq_some_iff_getElem.mp hf
    have hm : ts[ind].spec ∈ ts.map (·.spec) := mem_map_of_mem (getElem_mem hl)
    have hs : ts[ind].spec = spec := Resolves.unique hse (h.resolves _ hm) hsp (of_decide_eq_true hk)
    -- a rewound table keeps its description
    have hset : (ts.set ind ⟨spec,none,false,0,0⟩).map (·.spec) = ts.map (·.spec) := by
      rw [map_set,← hs]
      apply ext_getElem
      · simp
      · intro i hi hi'
        rw [getElem_set]
        split_ifs with he
        · subst he
          rw [getElem_map]
        · rfl
    dsimp only
    split
    · rw [hset]
      exact ⟨[],by simp,by simp,hs ▸ hm,h⟩
    · exact ⟨[],by simp,by simp,hs ▸ hm,h⟩

lemma Known.enqueueAll (hs : deployment.configured.Pairwise Distinct)
    (h : deployment.Known (ts.map (·.spec))) (hspecs : ∀ spec ∈ specs, deployment.Resolves spec)
    (ha : ∀ spec ∈ specs, ∀ o ∈ ts.map (·.spec)++specs, eqIgnoreAsciiCase o.key spec.key = true → o.key = spec.key) :
    ∃ added, (enqueueAll ts specs).1.map (·.spec) = ts.map (·.spec)++added ∧
      (∀ spec ∈ specs, spec ∈ (enqueueAll ts specs).1.map (·.spec)) ∧
      deployment.Known ((enqueueAll ts specs).1.map (·.spec)) := by
  induction specs generalizing ts with
  | nil => exact ⟨[],by simp [Incremental.enqueueAll],by simp,h⟩
  | cons spec specs ih =>
    obtain ⟨added,hadd,hon,hme,hk⟩ := h.enqueueTable hs (hspecs spec mem_cons_self) fun o ho =>
        ha spec mem_cons_self o (mem_append_left _ ho)
    obtain ⟨m,hm,hal,hk'⟩ := ih hk (fun o ho => hspecs o (mem_cons_of_mem _ ho)) fun o ho old hol => by
        refine ha o (mem_cons_of_mem _ ho) old ?_
        rw [hadd,append_assoc] at hol
        rcases mem_append.mp hol with hol | hol
        · exact mem_append_left _ hol
        · refine mem_append_right _ ?_
          rcases mem_append.mp hol with hol | hol
          · rw [hon old hol]
            exact mem_cons_self
          · exact mem_cons_of_mem _ hol
    refine ⟨added++m,?_,?_,hk'⟩
    · rw [Incremental.enqueueAll]
      dsimp only
      rw [hm,hadd,append_assoc]
    · refine forall_mem_cons.mpr ⟨?_,hal⟩
      rw [Incremental.enqueueAll]
      dsimp only
      rw [hm]
      exact mem_append_left _ hme

/-- A request that a restart can repeat: it resolves each table, row filter included, as the static
configuration would, names no table in another case, and after a stop covers what is configured. -/
def RequestKeeps (deployment : Deployment P) (d : IncrementalSnapshotDriver P H) (catalog : Catalog)
    (request : SnapshotRequest) : Prop :=
  match resolveTables catalog (extendConditions d.tableConditions request.conditions) request.tables with
  | .error _ => True
  | .ok specs => (∀ spec ∈ specs, deployment.Resolves spec) ∧ (∀ spec ∈ specs, ∀ other ∈ d.tables.map (·.spec)++specs,
        eqIgnoreAsciiCase other.key spec.key = true → other.key = spec.key) ∧
      (d.stopped = true → specs ≠ [] → ∀ spec ∈ deployment.configured, spec ∈ specs)

instance (d : IncrementalSnapshotDriver P H) (catalog : Catalog) (request : SnapshotRequest) :
    Decidable (deployment.RequestKeeps d catalog request) := by
  unfold RequestKeeps
  split <;> infer_instance

lemma PhaseSized.append {phase : Phase P} (h : PhaseSized specs phase)
    (added : List SnapshotTable) : PhaseSized (specs++added) phase := by
  have ha : ∀ {i : ℕ} {spec}, specs[i]? = some spec → (specs++added)[i]? = some spec := by
    intro i spec hs
    rw [List.getElem?_append_left (List.getElem?_eq_some_iff.mp hs).1,hs]
  cases phase with
  | chunkCollect | chunkEmit =>
    obtain ⟨spec,hs,hl⟩ := h
    exact ⟨spec,ha hs,hl⟩
  | chunkPrepare | done => trivial

lemma enqueueAll_fit (h : CursorsFit ts) : CursorsFit (enqueueAll ts specs).1 := by
  intro table ht
  obtain ⟨i,hi⟩ := mem_iff_getElem?.mp ht
  cases enqueueAll_enqueued hi with
  | kept ho => exact h table (mem_of_getElem? ho)
  | rewound | added => simp

variable {d : IncrementalSnapshotDriver P H}

lemma Restorable.request (h : deployment.Restorable d)
    (hse : deployment.configured.Pairwise Distinct) {ca : Catalog} {q : SnapshotRequest}
    (hke : deployment.RequestKeeps d ca q) :
    deployment.Restorable (d.enqueueTables ca q).1 := by
  rcases enqueueTables_cases d ca q with hsa | ⟨specs,ph,hspecs,hso,hp,hq⟩
  · rwa [hsa]
  · unfold RequestKeeps at hke
    rw [hspecs] at hke
    obtain ⟨hr,hal,hs⟩ := hke
    have hk : deployment.Known (d.tables.map (·.spec)) := ⟨h.separate,h.resolves⟩
    obtain ⟨added,ha,hall,hk'⟩ := hk.enqueueAll hse hr hal
    rw [hq]
    refine ⟨hk'.separate,hk'.resolves,fun _ spec hsp => ?_,by simp,enqueueAll_fit h.arity,?_⟩
    · cases hw : d.stopped with
      | false =>
        dsimp only
        rw [ha]
        exact mem_append_left _ (h.present hw spec hsp)
      | true => exact hall spec (hs hw hso spec hsp)
    · dsimp only
      rcases hp with rfl | ⟨_,rfl⟩
      · rw [ha]
        exact h.phase.append added
      · exact phaseSized_nextPhase _ _
end
section
variable [Ord P] [StreamHandle H] {d : IncrementalSnapshotDriver P H}

def CallKeeps (deployment : Deployment P) (d : IncrementalSnapshotDriver P H) : LifeCall P H → Prop
  | .nextEvents answers => LoopMeets IncrementalSnapshotDriver.pass CursorsSized d answers
  | .request catalog request => deployment.RequestKeeps d catalog request
  | _ => True

instance (d : IncrementalSnapshotDriver P H) (call : LifeCall P H) : Decidable (deployment.CallKeeps d call) := by
  unfold CallKeeps
  split <;> infer_instance

omit [Ord P] [StreamHandle H] in
lemma Restorable.setPaused (h : deployment.Restorable d) (paused : Bool) :
    deployment.Restorable (d.setPaused paused).1 := by
  refine ⟨h.separate,h.resolves,h.present,h.stopped,h.arity,?_⟩
  unfold IncrementalSnapshotDriver.setPaused
  dsimp only
  split
  · exact phaseSized_nextPhase _ _
  · exact h.phase

omit [Ord P] [StreamHandle H] in
lemma Restorable.stopSnapshot (d : IncrementalSnapshotDriver P H) : deployment.Restorable d.stopSnapshot.1 :=
  ⟨List.Pairwise.nil,by simp [IncrementalSnapshotDriver.stopSnapshot],
    by simp [IncrementalSnapshotDriver.stopSnapshot],fun _ => rfl,
    by simp [IncrementalSnapshotDriver.stopSnapshot],trivial⟩

lemma Restorable.step (h : deployment.Restorable d) (hs : deployment.Sound)
    (hse : deployment.configured.Pairwise Distinct) (hu : deployment.Unequivocal) {c : LifeCall P H}
    (hk : deployment.CallKeeps d c) : deployment.Restorable (deployment.step d c) := by
  cases c with
  | nextEvents => exact h.nextEvents hk
  | request => exact h.request hse hk
  | setPaused paused => exact h.setPaused paused
  | stopSnapshot => exact Restorable.stopSnapshot d
  | restart order i now =>
    obtain ⟨rebuilt,hb,_,hr⟩ := h.build hs hse hu order i now
    rw [Deployment.step,hb]
    exact hr

omit [Ord P] in
lemma configured_first {refs : List String} {tables : List TableProgress}
    (h : List.Forall₂ (fun tr table => describeWithCondition deployment.catalog tr
      deployment.config.tableConditions = .ok table.spec ∧ table.spec.pkColumns ≠ [] ∧
      Incremental.resumeTable none table.spec = .ok table) refs tables) :
    (∀ tr ∈ refs, ∃ spec, deployment.describe tr = .ok spec ∧ spec.pkColumns ≠ []) ∧
      (tables.map (·.spec) = refs.filterMap fun tr => (deployment.describe tr).toOption) ∧
      ∀ table ∈ tables, table.spec.pkColumns ≠ [] ∧ table.pkCursor = none := by
  induction h with
  | nil => simp
  | @cons tr table refs tables ho _ ih =>
    obtain ⟨hd,hc,hr⟩ := ho
    obtain ⟨hs,hspecs,hcu⟩ := ih
    have hde : deployment.describe tr = .ok table.spec := hd
    refine ⟨forall_mem_cons.mpr ⟨⟨table.spec,hd,hc⟩,hs⟩,?_,forall_mem_cons.mpr ⟨⟨hc,?_⟩,hcu⟩⟩
    · rw [map_cons,hspecs,filterMap_cons,hde]
      rfl
    · rw [← Except.ok.inj hr]

omit [StreamHandle H] [Ord P] in
lemma Restorable.start (hse : deployment.configured.Pairwise Distinct) (hu : deployment.Unequivocal)
    {order : MapOrder} {i : H} {now : UInt64} (hb : deployment.build order i none now = .ok d) :
    deployment.Sound ∧ deployment.Restorable d := by
  rw [build_order hu] at hb
  obtain ⟨tables,ht,hd⟩ := IncrementalSnapshotDriver.new_eq_ok.mp hb
  simp only [Option.map_none,Option.getD_none,Bool.false_eq_true,if_false] at ht hd
  rw [resumeTables_eq_ok] at ht
  obtain ⟨hs,hspecs,hcu⟩ := configured_first ht
  have hco : tables.map (·.spec) = deployment.configured := hspecs
  refine ⟨hs,?_⟩
  rw [hd]
  refine ⟨hco ▸ hse,fun spec hsp => ?_,fun _ spec hsp => hco ▸ hsp,by simp,?_,phaseSized_nextPhase _ _⟩
  · obtain ⟨table,hta,rfl⟩ := mem_map.mp hsp
    exact ⟨(hcu table hta).1,.inl (hco ▸ hsp)⟩
  · intro table hta c hc
    rw [(hcu table hta).2] at hc
    cases hc

/-- A driver rebuilt from what the last one reported works on the same unfinished tables, each with
its own cursor, counters and row filter, and is paused, stopped and counted as it was, after any calls
and restarts, each with a map in an order of its own, in which the static configuration would resolve
each request the same way. -/
theorem restart_round_trip (deployment : Deployment P)
    (hsep : deployment.configured.Pairwise Distinct) (huneq : deployment.Unequivocal) (order : MapOrder) (inner : H)
    (now : UInt64) (driver : IncrementalSnapshotDriver P H)
    (hbuild : deployment.build order inner none now = .ok driver) (calls : List (LifeCall P H))
    (hkeeps : Meets deployment.step deployment.CallKeeps driver calls) (order' : MapOrder) (inner' : H)
    (now' : UInt64) :
    let d := run deployment.step driver calls
    ∃ rebuilt, deployment.build order' inner' (some d.snapshotState) now' = .ok rebuilt ∧ Rebuilt d rebuilt := by
  intro d
  obtain ⟨hs,hst⟩ := Restorable.start hsep huneq hbuild
  have hr : deployment.Restorable d := run_invariant_of_meets deployment.step
    (P := fun d => deployment.Restorable d) (fun d call h hc => h.step hs hsep huneq hc) hst
    hkeeps
  obtain ⟨rebuilt,hre,hsa,_⟩ := hr.build hs hsep huneq order' inner' now'
  exact ⟨rebuilt,hre,hsa⟩

/-- A catalog with two tables, each known by its bare name too. -/
def shopCatalog : Catalog where
  describeTable name :=
    if name = "users" ∨ name = "public.users" then
      .ok ⟨"public","users","public.users",["id"],none⟩
    else if name = "orders" ∨ name = "public.orders" then
      .ok ⟨"public","orders","public.orders",["id"],none⟩
    else .error (.sourceError ("no table "++name))
  iteration := id

def shop (conditions : List (String × String)) : Deployment ℕ :=
  ⟨DriverTrace.clockBackend,shopCatalog.describeTable,⟨["users"],2,conditions⟩,"sample"⟩

def asWritten : MapOrder := ⟨id,fun _ => .refl _⟩
def backwards : MapOrder := ⟨reverse,reverse_perm⟩

/-- A condition for either table, under one of its names. -/
def shopConditions : List (String × String) := [("users","active"),("public.orders","open")]

def shopDriver (conditions : List (String × String)) : IncrementalSnapshotDriver ℕ ScriptedStream :=
  ((shop conditions).build asWritten ⟨⟩ none 1).toOption.getD (DriverTrace.usersDriver 2)

/-- A chunk of the configured table, a pause that lets it be committed, a request for the other
table, and a restart. -/
def shopLife : List (LifeCall ℕ ScriptedStream) := open DriverTrace in
  [.nextEvents [passOf 0 1 [userRow "1",userRow "2"] [],passOf 0 1 [] [],passOf 0 1 [] []],
    .setPaused true,.nextEvents [passOf 0 1 [] [],passOf 0 1 [] []],
    .request shopCatalog ⟨["public.orders"],[]⟩,.restart backwards ⟨⟩ 2]

lemma shop_unequivocal : (shop shopConditions).Unequivocal := by
  intro tableRef spec hd
  simp only [shop,shopCatalog] at hd
  split_ifs at hd with hu ho
  · obtain rfl := Except.ok.inj hd
    rcases hu with rfl | rfl <;> decide
  · obtain rfl := Except.ok.inj hd
    rcases ho with rfl | rfl <;> decide

theorem restart_round_trip_sample :
    let d := run (shop shopConditions).step (shopDriver shopConditions) shopLife
    d.tables.map (fun table => (table.key,table.pkCursor,table.spec.condition)) =
        [("public.users",some [.str "2"],some "active"),("public.orders",none,some "open")] ∧
      d.paused = true ∧ ∃ rebuilt, (shop shopConditions).build backwards ⟨⟩ (some d.snapshotState) 3 =
        .ok rebuilt ∧ Rebuilt d rebuilt :=
  ⟨by decide,by decide,restart_round_trip (shop shopConditions) (by decide) shop_unequivocal asWritten ⟨⟩ 1
    (shopDriver shopConditions) rfl shopLife (by decide) backwards ⟨⟩ 3⟩

/-- The row filter a request carries is gone after a restart; and a stop that is followed by a
request is undone by one, which takes the configured tables up again. -/
theorem restart_forgets :
    (let d := run (shop []).step (shopDriver []) [.request shopCatalog ⟨["public.orders"],[("public.orders","tenant_id = 42")]⟩]
      let rebuilt := (shop []).step d (.restart asWritten ⟨⟩ 2)
      (shop []).build asWritten ⟨⟩ (some d.snapshotState) 2 = .ok rebuilt ∧
        d.tables.map (·.spec.condition) = [none,some "tenant_id = 42"] ∧
        rebuilt.tables.map (·.spec.condition) = [none,none] ∧ ¬ Rebuilt d rebuilt) ∧
    (let d := run (shop []).step (shopDriver []) [.stopSnapshot,.request shopCatalog ⟨["public.orders"],[]⟩]
      let rebuilt := (shop []).step d (.restart asWritten ⟨⟩ 2)
      (shop []).build asWritten ⟨⟩ (some d.snapshotState) 2 = .ok rebuilt ∧ d.tables.map (·.key) = ["public.orders"] ∧
        rebuilt.tables.map (·.key) = ["public.users","public.orders"] ∧ ¬ Rebuilt d rebuilt) := by
  refine ⟨⟨rfl,by decide,by decide,fun h => ?_⟩,⟨rfl,by decide,by decide,fun h => ?_⟩⟩
  · have ho := h.tables ⟨⟨"public","orders","public.orders",["id"],none⟩,none,false,0,0⟩ (by decide)
    nomatch ho
  · have hu := h.tables ⟨⟨"public","users","public.users",["id"],none⟩,none,false,0,0⟩ (by decide)
    nomatch hu
end
end Deployment
end Rustcdc.Incremental
