import Rustcdc.Source.Incremental.Chunk
import Rustcdc.Source.Incremental.Resume

/-! The progress the driver reports, against what it has handed out. -/
namespace Rustcdc
open Machine
open Option List
namespace Incremental.DriverTrace
open IncrementalSnapshotDriver
section
variable {P H : Type}
section
variable (s : DriverTrace P H)

/-- The log events returned since. -/
def out (since : ℕ) : List Event := logOf (s.emitted.drop since)

/-- The row was returned, or the log event that replaces it was. -/
def Handed (base : Baseline) (spec : SnapshotTable) (row : ChunkRow) : Prop :=
  (∃ m ∈ s.emitted.drop base.emitted, m.isRow = true ∧ IsRowOf spec row m.event) ∨
    ∃ e ∈ s.received, ∃ e' ∈ s.out base.emitted, Overrides spec (spec.fingerprint row) e e'

/-- The table at an index, with where its snapshot started. -/
def entry (i : ℕ) : Option (TableProgress × Baseline) := (s.driver.tables.zip s.starts)[i]?
end
variable {s s' : DriverTrace P H} {base : Baseline}

lemma entry_eq_some {i : ℕ} {table : TableProgress} : s.entry i = some (table,base) ↔
      s.driver.tables[i]? = some table ∧ s.starts[i]? = some base := by
  simp [entry,List.getElem?_zip_eq_some]

/-- What was handed out stays so. -/
structure Onward (s s' : DriverTrace P H) : Prop where
  emitted : ∃ more, s'.emitted = s.emitted++more
  received : ∀ e ∈ s.received, e ∈ s'.received

lemma Onward.of_eq (hem : s'.emitted = s.emitted) (hr : s'.received = s.received) : Onward s s' :=
  ⟨⟨[],by rw [hem,append_nil]⟩,fun e he => hr ▸ he⟩

lemma Onward.kept (h : Onward s s') {n : ℕ} (hn : n ≤ s.emitted.length) {e : Event} (he : e ∈ s.out n) :
    e ∈ s'.out n := by
  obtain ⟨m,hm⟩ := h.emitted
  rw [out,hm,drop_append_of_le_length hn,logOf_append]
  exact mem_append_left _ he

lemma Onward.length_le (h : Onward s s') : s.emitted.length ≤ s'.emitted.length := by
  obtain ⟨m,hm⟩ := h.emitted
  rw [hm,length_append]
  omega

lemma Handed.mono (h : Onward s s') (hb : base.emitted ≤ s.emitted.length)
    {sp : SnapshotTable} {row : ChunkRow} (hh : s.Handed base sp row) :
    s'.Handed base sp row := by
  rcases hh with ⟨m,hm,hr⟩ | ⟨e,he,e',he',ho⟩
  · obtain ⟨mo,hmo⟩ := h.emitted
    refine .inl ⟨m,?_,hr⟩
    rw [hmo,drop_append_of_le_length hb]
    exact mem_append_left _ hm
  · exact .inr ⟨e,h.received e he,e',h.kept hb he',ho⟩

variable [Ord P] [StreamHandle H]

lemma pass_onward (s : DriverTrace P H) (answer : PassAnswer P H) : Onward s (s.pass answer).1 :=
  ⟨⟨_,rfl⟩,fun _ he => mem_append_left _ he⟩
end
section
/-- A reader's view of the tables: the rows chunk reads return, the order of their cursors, and
the keys that stay in a table throughout. -/
structure TableView (κ : Type) where
  rank : String → List Json → κ
  Row : String → ChunkRow → Prop
  Present : String → κ → Prop

variable {P H κ : Type} [LinearOrder κ] (view : TableView κ)

/-- The key lies in the part of the table that was behind the snapshot when it started. -/
def Earlier (base : Baseline) (key : String) (k : κ) : Prop :=
  base.isComplete = true ∨ ∃ c ∈ base.cursor, k ≤ view.rank key c

/-- The row with the key has been handed out, in this run or before it. -/
def HandedKey (s : DriverTrace P H) (table : TableProgress) (base : Baseline) (k : κ) : Prop :=
  Earlier view base table.key k ∨ ∃ row, view.Row table.key row ∧
    view.rank table.key row.cursor = k ∧ s.Handed base table.spec row

/-- The reported progress of a table is not ahead of what was handed out. -/
structure Level (s : DriverTrace P H) (table : TableProgress) (base : Baseline)
    (pkCursor : Option (List Json)) (isComplete : Bool) : Prop where
  /-- The cursor is that of a row handed out. -/
  cursor : ∀ c ∈ pkCursor, base.cursor = some c ∨ ∃ row, view.Row table.key row ∧
    row.cursor = c ∧ s.Handed base table.spec row
  /-- So is every row up to it. -/
  rows : ∀ c ∈ pkCursor, ∀ k, view.Present table.key k → k ≤ view.rank table.key c →
    s.HandedKey view table base k
  complete : isComplete = true → ∀ k, view.Present table.key k → s.HandedKey view table base k

/-- Every table the driver reports is level with what was handed out. -/
def NeverAhead (s : DriverTrace P H) : Prop := ∀ i table base, s.entry i = some (table,base) →
    ∀ reported ∈ s.driver.snapshotState.tables[i]?, Level view s table base reported.pkCursor reported.isComplete

structure ChunkRead (table : TableProgress) (rows : List ChunkRow) (nextCursor : List Json) :
    Prop where
  incomplete : table.isComplete = false
  sound : ∀ row ∈ rows, view.Row table.key row
  last : ∃ row ∈ rows, row.cursor = nextCursor
  covers : ∀ k, view.Present table.key k → (∀ c ∈ table.pkCursor, view.rank table.key c < k) →
    k ≤ view.rank table.key nextCursor → ∃ row ∈ rows, view.rank table.key row.cursor = k

/-- The rows of the chunk a phase works on are accounted for. -/
def PhaseTracked (s : DriverTrace P H) : Phase P → Prop
  | .chunkPrepare _ => True
  | .done => True
  | .chunkCollect collect => ∃ table base rows, s.entry collect.tableIdx = some (table,base) ∧
      ChunkRead view table rows collect.nextCursor ∧ Holds table.spec rows collect ∧
      ∀ fingerprint ∈ collect.overridePks,
        ∃ e ∈ s.received, ∃ e' ∈ s.out base.emitted, Overrides table.spec fingerprint e e'
  | .chunkEmit tableIdx events nextCursor _ => ∃ table base rows,
      s.entry tableIdx = some (table,base) ∧ ChunkRead view table rows nextCursor ∧
      ∀ row ∈ rows, s.Handed base table.spec row ∨ ∃ e ∈ events, IsRowOf table.spec row e

structure Tracked (s : DriverTrace P H) : Prop where
  starts : s.starts.length = s.driver.tables.length
  base : ∀ base ∈ s.starts, base.emitted ≤ s.emitted.length
  level : ∀ i table base, s.entry i = some (table,base) → Level view s table base table.pkCursor table.isComplete
  phase : s.PhaseTracked view s.driver.phase

variable {view}

lemma phaseTracked_nextPhase (s : DriverTrace P H) (ts : List TableProgress) :
    s.PhaseTracked view (nextPhase ts) := by
  unfold nextPhase
  split <;> trivial

variable {b : Baseline} {s s' : DriverTrace P H} {t : TableProgress}

lemma Tracked.base_le (h : s.Tracked view) {i : ℕ} (he : s.entry i = some (t,b)) : b.emitted ≤ s.emitted.length :=
  h.base b (mem_of_getElem? (entry_eq_some.mp he).2)
section
variable (h : Onward s s') (hb : b.emitted ≤ s.emitted.length)
include h hb

lemma HandedKey.mono {k : κ} (hk : s.HandedKey view t b k) : s'.HandedKey view t b k :=
  hk.imp_right fun ⟨row,hro,hr,hh⟩ => ⟨row,hro,hr,hh.mono h hb⟩

lemma Level.mono {cursor : Option (List Json)} {isComplete : Bool} (hl : Level view s t b cursor isComplete) :
    Level view s' t b cursor isComplete where
  cursor c hc := (hl.cursor c hc).imp_right fun ⟨row,hr,hcu,hh⟩ => ⟨row,hr,hcu,hh.mono h hb⟩
  rows c hc k hk hle := (hl.rows c hc k hk hle).mono h hb
  complete hco k hk := (hl.complete hco k hk).mono h hb
end
lemma PhaseTracked.mono (h : Onward s s') (hb : ∀ b ∈ s.starts, b.emitted ≤ s.emitted.length)
    (hen : ∀ i t b, s.entry i = some (t,b) → t.isComplete = false →
      s'.entry i = some (t,b)) {phase : Phase P} (hp : s.PhaseTracked view phase) :
    s'.PhaseTracked view phase := by
  cases phase with
  | chunkPrepare | done => trivial
  | chunkCollect =>
    obtain ⟨t,b,rows,ha,hr,hh,hov⟩ := hp
    have hl := hb b (mem_of_getElem? (entry_eq_some.mp ha).2)
    refine ⟨t,b,rows,hen _ _ _ ha hr.incomplete,hr,hh,fun fp hm => ?_⟩
    obtain ⟨e,he,e',he',ho⟩ := hov fp hm
    exact ⟨e,h.received e he,e',h.kept hl he',ho⟩
  | chunkEmit =>
    obtain ⟨t,b,rows,ha,hr,hro⟩ := hp
    have hl := hb b (mem_of_getElem? (entry_eq_some.mp ha).2)
    exact ⟨t,b,rows,hen _ _ _ ha hr.incomplete,hr,fun row hrow => (hro row hrow).imp_left (Handed.mono h hl)⟩
section
variable (h : s.Tracked view) (ho : Onward s s') (ht : s'.driver.tables = s.driver.tables) (hs : s'.starts = s.starts)
include h ho ht hs

lemma Tracked.of_same (hp : s'.PhaseTracked view s'.driver.phase) : s'.Tracked view where
  starts := by rw [hs,ht,h.starts]
  base b hm := (h.base b (hs ▸ hm)).trans ho.length_le
  level i t b he := by
    have hb : s.entry i = some (t,b) := by rwa [entry,← ht,← hs]
    exact (h.level i t b hb).mono ho (h.base_le hb)
  phase := hp

lemma Tracked.of_frame (hp : s'.driver.phase = s.driver.phase) : s'.Tracked view := by
  refine h.of_same ho ht hs ?_
  rw [hp]
  refine PhaseTracked.mono ho h.base (fun i t b he _ => ?_) h.phase
  rwa [entry,ht,hs]
end
lemma Tracked.of_modify (h : s.Tracked view) (ho : Onward s s') {i : ℕ}
    {f : TableProgress → TableProgress} (ht : s'.driver.tables = s.driver.tables.modify i f)
    (hs : s'.starts = s.starts) (hl : ∀ t b, s.entry i = some (t,b) →
      Level view s' (f t) b (f t).pkCursor (f t).isComplete)
    (hp : s'.PhaseTracked view s'.driver.phase) : s'.Tracked view where
  starts := by rw [hs,ht,length_modify,h.starts]
  base b hm := (h.base b (hs ▸ hm)).trans ho.length_le
  level j t b he := by
    obtain ⟨hta,hba⟩ := entry_eq_some.mp he
    rw [ht,List.getElem?_modify] at hta
    rw [hs] at hba
    obtain ⟨old,hol,rfl⟩ := map_eq_some_iff.mp hta
    by_cases hi : i = j
    · subst hi
      simpa using hl old b (entry_eq_some.mpr ⟨hol,hba⟩)
    · have hb : s.entry j = some (old,b) := entry_eq_some.mpr ⟨hol,hba⟩
      simpa [hi] using (h.level j old b hb).mono ho (h.base_le hb)
  phase := hp
end
section
variable {P H κ : Type} [Ord P] [StreamHandle H] [LinearOrder κ] (view : TableView κ)

/-- A read of a table returns rows of it: up to the key of the last one every row that stays in the
table, and some row if one is left. -/
def Reaches (table : TableProgress) (rows : List ChunkRow) : Prop :=
  (∀ row ∈ rows, view.Row table.key row) ∧ ∀ k, view.Present table.key k → (∀ c ∈ table.pkCursor, view.rank table.key c < k) →
    ∃ last ∈ rows.getLast?, k ≤ view.rank table.key last.cursor → ∃ row ∈ rows, view.rank table.key row.cursor = k

/-- In the batch a pass collects against a chunk no event past the high watermark stands before one
inside the bracket that is about the chunk's table. -/
def InOrder (s : DriverTrace P H) (answer : PassAnswer P H) : Prop :=
  match s.driver.phase with
  | .chunkCollect collect => (s.driver.innerEvents answer).Pairwise fun past e =>
      membership s.driver.backend collect past = some .after →
        supersedes s.driver.backend collect (s.driver.tableAt collect.tableIdx) e = false
  | _ => True

/-- The chunk read of a pass, if it makes one, is of this kind. -/
def ReadsOn (s : DriverTrace P H) (answer : PassAnswer P H) : Prop :=
  match s.driver.phase, answer.chunk with
  | .chunkPrepare tableIdx, .ok rows => s.driver.paused = false →
      ∀ index ∈ s.driver.chunkTable tableIdx, ∀ table ∈ s.driver.tables[index]?, Reaches view table rows
  | _, _ => True

variable {view} {base : Baseline} {s : DriverTrace P H} {answer : PassAnswer P H} {table : TableProgress}
  {backend : Backend P} {catalog : Catalog} {config : IncrementalSnapshotConfig}
  {driver : IncrementalSnapshotDriver P H} {rows : List ChunkRow} {nc : List Json}
  {resume : Option IncrementalSnapshotState} {sourceName : String}

section
variable (backend : Backend P) (target : SnapshotTable)

omit [Ord P] in
lemma overrideRows_eq_self {co : Collect P} {es : List Event} (h : ∀ e ∈ es, supersedes backend co target e = false) :
    overrideRows backend target co es = (co,es) := by
  induction es with
  | nil => rfl
  | cons e es ih =>
    rw [overrideRows,h e mem_cons_self]
    simp [ih fun e he => h e (mem_cons_of_mem _ he)]

omit [Ord P] in
/-- In a batch in order the events that override rows come before the first past the high watermark. -/
lemma overrideRows_head {co : Collect P} {es : List Event} (h : es.Pairwise fun past e =>
      membership backend co past = some .after → supersedes backend co target e = false) {fp : String}
    (hm : fp ∈ (overrideRows backend target co es).1.overridePks) :
    fp ∈ co.overridePks ∨ ∃ e ∈ es, ∃ e' ∈ (overrideRows backend target co es).2.take
      ((splitAt backend co es).getD es.length), Overrides target fp e e' := by
  induction es generalizing co with
  | nil => exact .inl hm
  | cons ev es ih =>
    obtain ⟨hev,hes⟩ := pairwise_cons.mp h
    by_cases ha : membership backend co ev = some .after
    · have hno : ∀ e ∈ ev::es, supersedes backend co target e = false := by
        intro e he
        rcases mem_cons.mp he with rfl | he
        · simp [supersedes,ha]
        · exact hev e he ha
      rw [overrideRows_eq_self backend target hno] at hm
      exact .inl hm
    · have hl : (splitAt backend co (ev::es)).getD (ev::es).length = (splitAt backend co es).getD es.length+1 := by
        rw [splitAt,findIdx?_cons,decide_eq_false ha]
        change (Option.map _ (splitAt backend co es)).getD _ = _
        cases splitAt backend co es <;> rfl
      rw [hl]
      rw [overrideRows] at hm ⊢
      cases hk : if supersedes backend co target ev then eventFingerprint ev else none with
      | none =>
        rw [hk] at hm
        refine (ih hes hm).imp_right ?_
        rintro ⟨e,he,e',he',ho⟩
        exact ⟨e,mem_cons_of_mem _ he,e',mem_cons_of_mem _ he',ho⟩
      | some key =>
        rw [hk] at hm
        have hs : supersedes backend co target ev = true := by
          by_contra hn
          rw [if_neg hn] at hk
          cases hk
        rw [if_pos hs] at hk
        have ho : target.owns ev = true := by
          simp only [supersedes,Bool.and_eq_true] at hs
          simpa [SnapshotTable.owns] using hs.1
        -- the bracket is that of the chunk as it was, so the batch is still in order
        rcases @ih {co with
            chunkRows := (repairPartialPayload co.chunkRows key ev).1
            overridePks := co.overridePks.insert key} hes hm with hol | ⟨e,he,e',he',hor⟩
        · rcases mem_insert_iff.mp hol with rfl | hol
          · exact .inr ⟨ev,mem_cons_self,_,mem_cons_self,repairPartialPayload_same _ _ ev,ho,hk⟩
          · exact .inl hol
        · exact .inr ⟨e,mem_cons_of_mem _ he,e',mem_cons_of_mem _ he',hor⟩
end
lemma Reaches.chunkRead (h : Reaches view table rows) (hi : table.isComplete = false) (hr : rows ≠ []) :
    ChunkRead view table rows ((rows.getLast?.map (·.cursor)).getD []) := by
  rw [List.getLast?_eq_getLast_of_ne_nil hr,map_some,getD_some]
  refine ⟨hi,h.1,⟨_,getLast_mem hr,rfl⟩,fun k hk ha hle => ?_⟩
  obtain ⟨l,hl,hc⟩ := h.2 k hk ha
  rw [List.getLast?_eq_getLast_of_ne_nil hr] at hl
  cases hl
  exact hc hle

omit [Ord P] [StreamHandle H] in
/-- A read without rows is the end of the table: what was not handed out would still follow. -/
theorem Reaches.complete (h : Reaches view table [])
    (hl : Level view s table base table.pkCursor table.isComplete) :
    Level view s {table with isComplete := true} base table.pkCursor true where
  cursor := hl.cursor
  rows := hl.rows
  complete _ k hk := by
    by_cases ha : ∀ c ∈ table.pkCursor, view.rank table.key c < k
    · obtain ⟨l,hla,_⟩ := h.2 k hk ha
      cases hla
    · push Not at ha
      obtain ⟨c,hc,hle⟩ := ha
      exact hl.rows c hc k hk hle

omit [Ord P] [StreamHandle H] in
/-- The cursor moves on once every row of the chunk was handed out. -/
theorem ChunkRead.committed (hr : ChunkRead view table rows nc)
    (hl : Level view s table base table.pkCursor table.isComplete)
    (hro : ∀ row ∈ rows, s.Handed base table.spec row) {table' : TableProgress}
    (hs : table'.spec = table.spec) (hco : table'.isComplete = table.isComplete)
    (hcu : table'.pkCursor = table.pkCursor ∨ table'.pkCursor = some nc) :
    Level view s table' base table'.pkCursor table'.isComplete := by
  have hke : table'.key = table.key := congrArg SnapshotTable.key hs
  refine ⟨fun c hc => ?_,fun c hc k hk hle => ?_,fun hd => ?_⟩
  · rw [hs,hke]
    rcases hcu with hcu | hcu
    · exact hl.cursor c (hcu ▸ hc)
    · obtain rfl : nc = c := Option.some.inj (hcu.symm.trans hc)
      obtain ⟨row,hrow,hla⟩ := hr.last
      exact .inr ⟨row,hr.sound row hrow,hla,hro row hrow⟩
  · unfold HandedKey
    rw [hke] at hk hle ⊢
    rw [hs]
    by_cases ha : ∀ c ∈ table.pkCursor, view.rank table.key c < k
    · rcases hcu with hcu | hcu
      · exact absurd hle (not_le.mpr (ha c (hcu ▸ hc)))
      · obtain rfl : nc = c := Option.some.inj (hcu.symm.trans hc)
        obtain ⟨row,hrow,hra⟩ := hr.covers k hk ha hle
        exact .inr ⟨row,hr.sound row hrow,hra,hro row hrow⟩
    · push Not at ha
      obtain ⟨c',hc',hle'⟩ := ha
      exact hl.rows c' hc' k hk hle'
  · rw [hco,hr.incomplete] at hd
    cases hd
section
variable (h : s.Tracked view)
include h

omit [Ord P] [StreamHandle H] in
lemma Tracked.entry_of_table {i : ℕ} (ht : s.driver.tables[i]? = some table) :
    ∃ base, s.entry i = some (table,base) := by
  have hl : i < s.starts.length := by
    rw [h.starts]
    exact (List.getElem?_eq_some_iff.mp ht).1
  exact ⟨s.starts[i],entry_eq_some.mpr ⟨ht,List.getElem?_eq_getElem hl⟩⟩

lemma Tracked.pass_through (hp : s.driver.pass answer = s.driver.passThrough answer) :
    (s.pass answer).1.Tracked view := by
  obtain ⟨inner,df,hf⟩ := passThrough_frame s.driver answer
  rw [← hp] at hf
  have hd : (s.pass answer).1.driver = _ := hf
  exact h.of_frame (s.pass_onward answer) (by rw [hd]) rfl (by rw [hd])

lemma Tracked.pass_prepare {ti : ℕ} (hph : s.driver.phase = .chunkPrepare ti) (hp : s.driver.paused = false)
    (hr : s.ReadsOn view answer) :
    (s.pass answer).1.Tracked view := by
  have ho := s.pass_onward answer
  have hpa : s.driver.pass answer = s.driver.driveChunkPrepare ti answer := by
    simp [IncrementalSnapshotDriver.pass,hph,hp]
  have hd : (s.pass answer).1.driver = (s.driver.driveChunkPrepare ti answer).1 := congrArg Prod.fst hpa
  have he : (s.pass answer).1.starts = s.starts := rfl
  unfold ReadsOn at hr
  rw [hph] at hr
  have hca := driveChunkPrepare_cases s.driver ti answer
  generalize (s.pass answer).1 = s' at ho hd he ⊢
  generalize s.driver.driveChunkPrepare ti answer = prepared at hd hca
  cases hca with
  | finished =>
    refine h.of_same ho (by rw [hd]) he ?_
    rw [hd]
    trivial
  | failed =>
    refine h.of_same ho (by rw [hd]) he ?_
    rw [hd,hph]
    trivial
  | completed ht hc =>
    rw [hc] at hr
    refine h.of_modify ho (by rw [hd]; rfl) he (fun table base hen => ?_) ?_
    · have hre := hr hp _ ht table (entry_eq_some.mp hen).1
      exact hre.complete ((h.level _ _ _ hen).mono ho (h.base_le hen))
    · rw [hd]
      exact phaseTracked_nextPhase _ _
  | @started i low high rows ht hl hc hh hro =>
    rw [hc] at hr
    obtain ⟨table,ha,hi⟩ := chunkTable_incomplete ht
    obtain ⟨base,hen⟩ := h.entry_of_table ha
    refine h.of_same ho (by rw [hd]; rfl) he ?_
    rw [hd]
    refine ⟨table,base,rows,?_,(hr hp _ ht table ha).chunkRead hi hro,
      holds_read ha answer.now rows rfl,fun fp hm => absurd hm (by simp)⟩
    rw [entry,hd,he]
    exact hen

lemma Tracked.pass_collect {co : Collect P} (hp : s.driver.phase = .chunkCollect co) (hin : s.InOrder answer) :
    (s.pass answer).1.Tracked view := by
  have hon := s.pass_onward answer
  have ht := h.phase
  rw [hp] at ht
  obtain ⟨table,base,rows,hen,hrea,hh,hov⟩ := ht
  have hb := h.base_le hen
  have hta := (entry_eq_some.mp hen).1
  have hpas : s.driver.pass answer = s.driver.driveChunkCollect co answer := by
    simp [IncrementalSnapshotDriver.pass,hp]
  have hd : (s.pass answer).1.driver = (s.driver.driveChunkCollect co answer).1 := congrArg Prod.fst hpas
  have hs : (s.pass answer).1.starts = s.starts := rfl
  have hem : (s.pass answer).1.emitted = s.emitted++
      ((s.driver.driveChunkCollect co answer).2.map (·.emissions)).getD [] := by
    rw [← hpas]
    rfl
  have hre : ∀ e ∈ s.driver.innerEvents answer, e ∈ (s.pass answer).1.received := by
    intro e he
    refine mem_append_right _ ?_
    rwa [IncrementalSnapshotDriver.passReceived,IncrementalSnapshotDriver.asksInner,hp,if_pos rfl]
  have hc := driveChunkCollect_cases s.driver co answer
  generalize (s.pass answer).1 = s' at hon hd hs hem hre ⊢
  generalize s.driver.driveChunkCollect co answer = collected at hd hem hc
  cases hc with
  | failed inner e =>
    refine h.of_same hon (by rw [hd]) hs ?_
    have hsa : s'.entry co.tableIdx = some (table,base) := by
      rw [entry,hd,hs]
      exact hen
    rw [hd,hp]
    refine ⟨table,base,rows,hsa,hrea,hh,fun fp hm => ?_⟩
    obtain ⟨e,he,e',he',ho⟩ := hov fp hm
    exact ⟨e,hon.received e he,e',hon.kept hb he',ho⟩
  | @batch inner passed rs hpa hl =>
    refine h.of_same hon (by rw [hd]; rfl) hs ?_
    have hsa : s'.entry co.tableIdx = some (table,base) := by
      rw [entry,hd,hs]
      exact hen
    have hsp : s.driver.tableAt co.tableIdx = table.spec := by
      simp [IncrementalSnapshotDriver.tableAt,hta]
    have hr := overrideRows_overridden s.driver.backend (s.driver.tableAt co.tableIdx)
      co (s.driver.innerEvents answer)
    rw [InOrder,hp] at hin
    have hou : ∀ e ∈ (repairedBatch s.driver co (s.driver.innerEvents answer)).take
        (headLength s.driver co (s.driver.innerEvents answer)), e ∈ s'.out base.emitted := by
      intro e he
      rw [out,hem,hl,drop_append_of_le_length hb,logOf_append]
      refine mem_append_right _ ?_
      change e ∈ logOf (Returned.log _).emissions
      rwa [logOf_log]
    have hov' : ∀ fp ∈ (overrideRows s.driver.backend
        (s.driver.tableAt co.tableIdx) co (s.driver.innerEvents answer)).1.overridePks,
        ∃ e ∈ s'.received, ∃ e' ∈ s'.out base.emitted, Overrides table.spec fp e e' := by
      intro fp hm
      rcases overrideRows_head _ _ hin hm with hol | ⟨e,he,e',he',ho⟩
      · obtain ⟨e,he,e',he',ho⟩ := hov fp hol
        exact ⟨e,hon.received e he,e',hon.kept hb he',ho⟩
      · exact ⟨e,hre e he,e',hou e' he',hsp ▸ ho⟩
    have hh' := hh.overridden hr
    have hrea' := hrea
    rw [← hr.nextCursor] at hrea'
    rw [← hr.tableIdx] at hsa
    rw [hd]
    cases passed with
    | false => exact ⟨table,base,rows,hsa,hrea',hh',hov'⟩
    | true =>
      refine ⟨table,base,rows,hsa,hrea',fun row hrow => ?_⟩
      rcases hh'.merged_of_row hrow with hm | ⟨e,he,hro⟩
      · exact .inl (.inr (hov' _ hm))
      · exact .inr ⟨e,he,hro⟩

lemma Tracked.pass_emit (answer : PassAnswer P H) {ti : ℕ} {es : List Event} {rowCount : UInt64}
    (hp : s.driver.phase = .chunkEmit ti es nc rowCount) :
    (s.pass answer).1.Tracked view := by
  have ho := s.pass_onward answer
  have ht := h.phase
  rw [hp] at ht
  obtain ⟨table,base,rows,hen,hre,hro⟩ := ht
  have hb := h.base_le hen
  have hpa : s.driver.pass answer = s.driver.driveChunkEmit ti es nc rowCount := by
    simp [IncrementalSnapshotDriver.pass,hp]
  have hd : (s.pass answer).1.driver = (s.driver.driveChunkEmit ti es nc rowCount).1 := congrArg Prod.fst hpa
  have hs : (s.pass answer).1.starts = s.starts := rfl
  have hem : (s.pass answer).1.emitted = s.emitted++
      ((s.driver.driveChunkEmit ti es nc rowCount).2.map (·.emissions)).getD [] := by
    rw [← hpa]
    rfl
  have hc := driveChunkEmit_cases s.driver ti es nc rowCount
  generalize (s.pass answer).1 = s' at ho hd hs hem ⊢
  generalize s.driver.driveChunkEmit ti es nc rowCount = done at hd hem hc
  cases hc with
  | rows n =>
    refine h.of_same ho (by rw [hd]) hs ?_
    have hsa : s'.entry ti = some (table,base) := by
      rw [entry,hd,hs]
      exact hen
    rw [hd]
    refine ⟨table,base,rows,hsa,hre,fun row hrow => ?_⟩
    rcases hro row hrow with hh | ⟨e,he,hr⟩
    · exact .inl (hh.mono ho hb)
    · rw [← take_append_drop n es] at he
      rcases mem_append.mp he with he | he
      · refine .inl (.inl ⟨⟨true,e⟩,?_,rfl,hr⟩)
        rw [hem,drop_append_of_le_length hb]
        exact mem_append_right _ (mem_map_of_mem he)
      · exact .inr ⟨e,he,hr⟩
  | committed hev =>
    refine h.of_modify ho (by rw [hd]; rfl) hs (fun table' base' hen' => ?_) ?_
    · obtain ⟨rfl,rfl⟩ := Prod.mk.inj (Option.some.inj (hen.symm.trans hen'))
      refine hre.committed ((h.level _ _ _ hen).mono ho hb) (fun row hrow => ?_)
        rfl rfl ?_
      · refine ((hro row hrow).resolve_right ?_).mono ho hb
        rintro ⟨e,he,_⟩
        rw [hev] at he
        cases he
      · split
        · exact .inl rfl
        · exact .inr rfl
    · rw [hd]
      trivial

lemma Tracked.pass (hr : s.ReadsOn view answer ∧ s.InOrder answer) : (s.pass answer).1.Tracked view := by
  cases hp : s.driver.phase with
  | done => exact h.pass_through (by simp [IncrementalSnapshotDriver.pass,hp])
  | chunkPrepare =>
    cases hpa : s.driver.paused with
    | false => exact h.pass_prepare hp hpa hr.1
    | true => exact h.pass_through (by simp [IncrementalSnapshotDriver.pass,hp,hpa])
  | chunkCollect => exact h.pass_collect hp hr.2
  | chunkEmit => exact h.pass_emit answer hp
end
lemma request_entry (hst : s.starts.length = s.driver.tables.length) (catalog : Catalog) (q : SnapshotRequest) {i : ℕ}
    (hent : (s.step (.request catalog q)).entry i = some (table,base)) :
    s.entry i = some (table,base) ∨
      table.pkCursor = none ∧ table.isComplete = false ∧ base = ⟨s.emitted.length,none,false⟩ := by
  obtain ⟨ht,hb⟩ := entry_eq_some.mp hent
  have hen : ∀ {ts : List TableProgress}, ts[i]? = some table →
      (restarts s.driver.tables ts s.starts s.emitted.length)[i]? = some base →
      Enqueued s.driver.tables i table → s.entry i = some (table,base) ∨
        table.pkCursor = none ∧ table.isComplete = false ∧ base = ⟨s.emitted.length,none,false⟩ := by
    intro ts ha hs he
    rw [restarts,List.getElem?_mapIdx,ha,map_some] at hs
    cases he with
    | kept ho =>
      left
      have hl : i < s.starts.length := by
        rw [hst]
        exact (List.getElem?_eq_some_iff.mp ho).1
      have hc : continues s.driver.tables[i]? table = true := by
        rw [ho]
        cases hd : table.isComplete <;> simp [continues,hd]
      rw [hc,if_pos rfl,getD_eq_getElem _ _ hl] at hs
      exact entry_eq_some.mpr ⟨ho,(List.getElem?_eq_getElem hl).trans hs⟩
    | rewound ho hco =>
      right
      rw [ho] at hs
      simp only [continues,hco,Bool.not_false,Bool.and_true,Bool.not_true,Bool.false_eq_true,if_false] at hs
      exact ⟨rfl,rfl,(Option.some.inj hs).symm⟩
    | added ho =>
      right
      rw [ho] at hs
      simp only [continues,Bool.false_eq_true,if_false] at hs
      exact ⟨rfl,rfl,(Option.some.inj hs).symm⟩
  refine hen ht hb ?_
  rcases enqueueTables_cases s.driver catalog q with hsa | ⟨ss,_,_,_,_,hq⟩
  · exact .kept (by rw [← hsa]; exact ht)
  · have hta : (s.driver.enqueueTables catalog q).1.tables = (enqueueAll s.driver.tables ss).1 := by rw [hq]
    exact enqueueAll_enqueued (hta ▸ ht)

lemma request_incomplete (catalog : Catalog) (q : SnapshotRequest) {i : ℕ}
    (he : s.entry i = some (table,base)) (hi : table.isComplete = false) :
    (s.step (.request catalog q)).entry i = some (table,base) := by
  obtain ⟨ht,hb⟩ := entry_eq_some.mp he
  have ht' : (s.step (.request catalog q)).driver.tables[i]? = some table := by
    change (s.driver.enqueueTables catalog q).1.tables[i]? = some table
    rcases enqueueTables_cases s.driver catalog q with hs | ⟨ss,_,_,_,_,hq⟩
    · rwa [hs]
    · rw [hq]
      exact enqueueAll_incomplete ss ht hi
  refine entry_eq_some.mpr ⟨ht',?_⟩
  change (restarts _ (s.driver.enqueueTables catalog q).1.tables _ _)[i]? = some base
  rw [restarts,List.getElem?_mapIdx]
  change Option.map _ (s.step (.request catalog q)).driver.tables[i]? = some base
  rw [ht',map_some,ht]
  have hc : continues (some table) table = true := by simp [continues,hi]
  rw [hc,if_pos rfl,getD_eq_getElem?_getD,hb,getD_some]

lemma Tracked.request (h : s.Tracked view) (catalog : Catalog) (q : SnapshotRequest) :
    (s.step (.request catalog q)).Tracked view := by
  have ho : Onward s (s.step (.request catalog q)) := Onward.of_eq rfl rfl
  refine ⟨?_,fun base hm => ?_,fun i table base he => ?_,?_⟩
  · exact length_mapIdx
  · obtain ⟨i,hi,rfl⟩ := getElem_of_mem hm
    have hl : i < (s.step (.request catalog q)).driver.tables.length := by
      rw [← (length_mapIdx : (restarts _ _ _ _).length = _)]
      exact hi
    have he := entry_eq_some.mpr ⟨List.getElem?_eq_getElem hl,List.getElem?_eq_getElem hi⟩
    rcases request_entry h.starts catalog q he with hol | ⟨_,_,hb⟩
    · exact h.base_le hol
    · rw [hb]
      exact le_rfl
  · rcases request_entry h.starts catalog q he with hol | ⟨hc,hin,_⟩
    · exact (h.level i table base hol).mono ho (h.base_le hol)
    · rw [hc,hin]
      exact ⟨by simp,by simp,by simp⟩
  · have hk := PhaseTracked.mono ho h.base (fun i table base => request_incomplete catalog q) h.phase
    have hp : (s.step (.request catalog q)).driver.phase = s.driver.phase ∨
        ∃ tables, (s.step (.request catalog q)).driver.phase = nextPhase tables := by
      change (s.driver.enqueueTables catalog q).1.phase = _ ∨ _
      rcases enqueueTables_cases s.driver catalog q with hs | ⟨ss,ph,_,_,hp,hq⟩
      · exact .inl (by rw [hs])
      · refine hp.imp (fun hs => ?_) fun hn => ⟨(enqueueAll s.driver.tables ss).1,?_⟩
        · rw [hq,← hs]
        · change (s.driver.enqueueTables catalog q).1.phase = _
          rw [hq]
          exact hn.2
    rcases hp with hp | ⟨tables,hp⟩
    · rwa [hp]
    · rw [hp]
      exact phaseTracked_nextPhase _ _

lemma Tracked.setPaused (h : s.Tracked view) (paused : Bool) : (s.step (.setPaused paused)).Tracked view := by
  have ho : Onward s (s.step (.setPaused paused)) := Onward.of_eq rfl rfl
  refine h.of_same ho rfl rfl ?_
  have hk := PhaseTracked.mono ho h.base (fun i table base he _ => he) h.phase
  change PhaseTracked _ _ (s.driver.setPaused paused).1.phase
  unfold IncrementalSnapshotDriver.setPaused
  split
  · exact phaseTracked_nextPhase _ _
  · exact hk

/-- The read contract over a call. -/
def CallReads (view : TableView κ) (s : DriverTrace P H) : DriverCall P H → Prop
  | .nextEvents answers => LoopMeets DriverTrace.pass (ReadsOn view) s answers
  | _ => True

/-- Every batch a call collects is in order. -/
def CallInOrder (s : DriverTrace P H) : DriverCall P H → Prop
  | .nextEvents answers => LoopMeets DriverTrace.pass InOrder s answers
  | _ => True

lemma Tracked.step (h : s.Tracked view) {call : DriverCall P H} (hr : s.CallReads view call)
    (hin : s.CallInOrder call) : (s.step call).Tracked view := by
  cases call with
  | nextEvents =>
    exact step_nextEvents_rule (fun s answer h hr => h.pass hr)
      (fun s count h => h.of_frame (Onward.of_eq rfl rfl) rfl rfl rfl) h (loopMeets_and hr hin)
  | request catalog request => exact h.request catalog request
  | setPaused paused => exact h.setPaused paused
  | stopSnapshot => exact ⟨rfl,by simp [DriverTrace.step],by simp [DriverTrace.step,entry],trivial⟩

def StopsEmpty (s : DriverTrace P H) : Prop := s.driver.stopped = true → s.driver.tables = []

lemma StopsEmpty.pass (h : s.StopsEmpty) (answer : PassAnswer P H) : (s.pass answer).1.StopsEmpty := by
  obtain ⟨inner,ts,ph,df,ht,hf⟩ := pass_frame s.driver answer
  have hd : (s.pass answer).1.driver = _ := hf
  intro hs
  rw [hd] at hs ⊢
  have hsp := ht.specs
  rw [h hs,map_nil,map_eq_nil_iff] at hsp
  exact hsp

lemma StopsEmpty.step (h : s.StopsEmpty) (call : DriverCall P H) : (s.step call).StopsEmpty := by
  cases call with
  | nextEvents answers =>
    exact step_nextEvents_rule (fun s answer h _ => h.pass answer) (fun s count h => h) h (loopMeets_true s answers)
  | request catalog request =>
    intro hs
    change (s.driver.enqueueTables catalog request).1.stopped = true at hs
    change (s.driver.enqueueTables catalog request).1.tables = []
    rcases enqueueTables_cases s.driver catalog request with hsa | ⟨_,_,_,_,_,hq⟩
    · rw [hsa] at hs ⊢
      exact h hs
    · rw [hq] at hs
      cases hs
  | setPaused => exact h
  | stopSnapshot => exact fun _ => rfl
section
variable {inner : H} {now : UInt64} (hn : new backend inner catalog config sourceName resume now = .ok driver)
include hn

omit [Ord P] [StreamHandle H] in
lemma start_tracked : (start driver).Tracked view := by
  refine ⟨by simp [start],fun base hm => ?_,fun i table base he => ?_,?_⟩
  · obtain ⟨table,_,rfl⟩ := mem_map.mp hm
    exact Nat.zero_le _
  · obtain ⟨ht,hb⟩ := entry_eq_some.mp he
    have hb' : base = ⟨0,table.pkCursor,table.isComplete⟩ := by
      simp only [start,List.getElem?_map] at hb ht
      rw [ht,map_some] at hb
      exact (Option.some.inj hb).symm
    rw [hb']
    refine ⟨fun c hc => .inl hc,fun c hc k _ hl => .inl (.inr ⟨c,hc,hl⟩),fun hdo k _ => ?_⟩
    exact .inl (.inl hdo)
  · obtain ⟨ts,_,hd⟩ := new_eq_ok.mp hn
    rw [start,hd]
    exact phaseTracked_nextPhase _ _

omit [Ord P] [StreamHandle H] in
lemma start_stopsEmpty : (start driver).StopsEmpty := by
  obtain ⟨ts,ht,hd⟩ := new_eq_ok.mp hn
  intro hs
  rw [start,hd] at hs ⊢
  rw [if_pos hs] at ht ⊢
  exact (Except.ok.inj ht).symm
end
omit [Ord P] in
/-- What the driver reports with a position is its snapshot state, and nothing while events are held back. -/
lemma position_reports {d : IncrementalSnapshotDriver P H} :
    d.positionOffset = (if d.deferred = [] then StreamHandle.positionOffset d.inner else none).bind
        (d.backend.offsetWithSnapshotState · d.snapshotState) ∧
      ∀ answer innerSave cp, d.savePosition answer innerSave cp = if d.deferred = [] then
        (d.positionOffset.map fun offset => cp.save answer offset d.eventsEmitted).getD (innerSave cp) else (cp,.ok ()) := by
  unfold savePosition
  cases hd : d.deferred with
  | nil =>
    refine ⟨by simp [positionOffset,hd],fun answer innerSave cp => ?_⟩
    cases d.positionOffset <;> simp
  | cons => simp [positionOffset,hd]

omit [Ord P] [StreamHandle H] in
lemma Tracked.neverAhead (h : s.Tracked view) : s.NeverAhead view := by
  intro i table base he reported hr
  rw [snapshotState_tables,List.getElem?_map,(entry_eq_some.mp he).1] at hr
  cases hr
  exact h.level i table base he

/-- A driver rebuilt from what this one reports goes on with an unfinished table at the reported
cursor, and so reads every row not yet handed out, provided the catalog still knows the tables by
the reported names and no other reported name is the same up to case. -/
def RebuiltReads (view : TableView κ) (s : DriverTrace P H) : Prop :=
  ∀ (backend : Backend P) (inner : H) (catalog : Catalog) (config : IncrementalSnapshotConfig)
    (sourceName : String) (now : UInt64) (rebuilt : IncrementalSnapshotDriver P H),
    IncrementalSnapshotDriver.new backend inner catalog config sourceName
      (some s.driver.snapshotState) now = .ok rebuilt →
    (∀ entry ∈ s.driver.snapshotState.tables, ∀ spec,
      catalog.describeTable entry.table = .ok spec → spec.key = entry.table) →
    ∀ i table base, s.entry i = some (table,base) → table.isComplete = false →
      Alone s.driver.snapshotState table.reported →
      (∀ spec, catalog.describeTable table.key = .ok spec → spec.pkColumns ≠ [] →
        ∃ table' ∈ rebuilt.tables, table'.key = table.key) ∧
      ∀ table' ∈ rebuilt.tables, table'.key = table.key →
        table'.isComplete = false ∧ table'.pkCursor = table.pkCursor ∧
        ∀ k, view.Present table.key k → ¬ s.HandedKey view table base k →
          ∀ c ∈ table'.pkCursor, view.rank table.key c < k

omit [Ord P] [StreamHandle H] in
lemma Tracked.rebuiltReads (h : s.Tracked view) (hst : s.StopsEmpty) : s.RebuiltReads view := by
  intro backend inner catalog config sourceName now rebuilt hne hn i table base he hi ha
  have ht := (entry_eq_some.mp he).1
  have hr : table.reported ∈ s.driver.snapshotState.tables := by
    rw [snapshotState_tables]
    exact mem_map_of_mem (mem_of_getElem? ht)
  constructor
  · intro sp hd hco
    have hs : s.driver.snapshotState.stopped = false := by
      cases hs : s.driver.stopped with
      | false => exact hs
      | true =>
        rw [hst hs] at ht
        cases ht
    have hw : describeWithCondition catalog table.reported.table config.tableConditions = .ok
        {sp with condition := lookupCondition catalog config.tableConditions table.key sp} := by
      rw [describeWithCondition,show table.reported.table = table.key from rfl,hd]
    exact new_covers hs hne hr hi hw (hn _ hr sp hd) hco
  · intro table' ht' hke
    have hta : TakenOver table.reported table' := by
      rcases new_origin hne ht' with ⟨_,_,_,hre⟩ | ⟨e,hm,_,hd,hta⟩
      · refine resumeTable_takenOver ?_ hre
        change s.driver.snapshotState.table table'.key = _
        rw [hke]
        exact ha.table hr
      · obtain ⟨de,hde,hna,_⟩ := describeWithCondition_ok hd
        have hsa : e.table = table.reported.table := ((hn e hm de hde).symm.trans hna).trans hke
        have he' : e = table.reported := ha e hm (by rw [hsa]; exact eqIgnoreAsciiCase_refl _)
        rwa [← he']
    have hcu : table'.pkCursor = table.pkCursor := hta.1
    refine ⟨hta.2.1.trans hi,hcu,fun k hk hno c hc => ?_⟩
    rw [hcu] at hc
    by_contra hl
    exact hno ((h.level i table base he).rows c hc k hk (not_lt.mp hl))

/-- The reported progress of an incremental snapshot is never ahead of what was handed out, in
every state of every run: a row up to the cursor was returned, or a log event that replaces it was.  A
driver rebuilt from it reads every other row, and what is reported with a position is the same
progress. -/
theorem progress_never_ahead (view : TableView κ) (backend : Backend P) (inner : H)
    (catalog : Catalog) (config : IncrementalSnapshotConfig) (sourceName : String)
    (resume : Option IncrementalSnapshotState) (now : UInt64)
    (driver : IncrementalSnapshotDriver P H)
    (hnew : IncrementalSnapshotDriver.new backend inner catalog config sourceName resume now =
      .ok driver) (calls : List (DriverCall P H))
    (hreads : Meets step (CallReads view) (start driver) calls)
    (horder : Meets step CallInOrder (start driver) calls) :
    let s := run step (start driver) calls
    s.NeverAhead view ∧ s.RebuiltReads view ∧
      s.driver.positionOffset = (if s.driver.deferred = [] then StreamHandle.positionOffset s.driver.inner else none).bind
        (s.driver.backend.offsetWithSnapshotState · s.driver.snapshotState) ∧
      ∀ answer innerSave cp, s.driver.savePosition answer innerSave cp = if s.driver.deferred = [] then
        (s.driver.positionOffset.map fun offset => cp.save answer offset s.driver.eventsEmitted).getD (innerSave cp)
        else (cp,.ok ()) := by
  intro s
  have ht : s.Tracked view := run_invariant_of_meets step (fun s call h hc => h.step hc.1 hc.2)
    (start_tracked hnew) (meets_and step hreads horder)
  have hs : s.StopsEmpty := run_invariant step (fun s call h => h.step call) (start_stopsEmpty hnew) calls
  exact ⟨ht.neverAhead,ht.rebuiltReads hs,position_reports⟩
end
section
instance {κ : Type} [LinearOrder κ] [Fintype κ] (view : TableView κ)
    [∀ key row, Decidable (view.Row key row)] [∀ key k, Decidable (view.Present key k)]
    {P H : Type} [Ord P] [StreamHandle H] (s : DriverTrace P H) (answer : PassAnswer P H) :
    Decidable (s.ReadsOn view answer) := by
  unfold ReadsOn Reaches
  split <;> infer_instance

instance {κ : Type} [LinearOrder κ] [Fintype κ] (view : TableView κ)
    [∀ key row, Decidable (view.Row key row)] [∀ key k, Decidable (view.Present key k)]
    {P H : Type} [Ord P] [StreamHandle H] (s : DriverTrace P H) (call : DriverCall P H) :
    Decidable (s.CallReads view call) :=
  match call with
  | .nextEvents answers =>
    inferInstanceAs (Decidable (LoopMeets DriverTrace.pass (ReadsOn view) s answers))
  | .request .. | .setPaused _ | .stopSnapshot => inferInstanceAs (Decidable True)

instance {P H : Type} [Ord P] [StreamHandle H] (s : DriverTrace P H) (answer : PassAnswer P H) :
    Decidable (s.InOrder answer) := by
  unfold InOrder
  split <;> infer_instance

instance {P H : Type} [Ord P] [StreamHandle H] (s : DriverTrace P H) (call : DriverCall P H) :
    Decidable (s.CallInOrder call) :=
  match call with
  | .nextEvents answers => inferInstanceAs (Decidable (LoopMeets DriverTrace.pass InOrder s answers))
  | .request .. | .setPaused _ | .stopSnapshot => inferInstanceAs (Decidable True)

local instance : NeZero 3 := ⟨by decide⟩

/-- Two rows that stay in the sample table. -/
def usersView : TableView (Fin 3) where
  rank _ cursor := if cursor = [.str "1"] then 0 else if cursor = [.str "2"] then 1 else 2
  Row _ row := row = userRow "1" ∨ row = userRow "2"
  Present _ k := k = 0 ∨ k = 1

instance (key : String) (row : ChunkRow) : Decidable (usersView.Row key row) := inferInstanceAs (Decidable (_ ∨ _))

instance (key : String) (k : Fin 3) : Decidable (usersView.Present key k) := inferInstanceAs (Decidable (_ ∨ _))

/-- Both rows in one chunk, one of them replaced by an event ahead of one past the high watermark,
and then the end of the table. -/
def wholeTable : List (DriverCall ℕ ScriptedStream) :=
  [.nextEvents [passOf 0 2 [userRow "1",userRow "2"] [],passOf 0 2 [] [userEvent 1 "1",userEvent 3 "9"]],
    .nextEvents [passOf 0 2 [] []],.nextEvents [passOf 0 2 [] [],passOf 0 2 [] []],
    .nextEvents [passOf 0 2 [] [],passOf 0 2 [] []]]

theorem progress_never_ahead_sample :
    let s := run step (start (usersDriver 2)) wholeTable
    s.driver.tables.map (fun table => (table.pkCursor,table.isComplete)) = [(some [.str "2"],true)] ∧
      s.emitted.map (fun m => (m.isRow,m.event.ts)) = [(false,1),(true,1),(false,3)] ∧
      s.NeverAhead usersView :=
  ⟨by decide,by decide,(progress_never_ahead usersView clockBackend ⟨⟩ userCatalog ⟨["users"],2,[]⟩ "sample"
    none 1 (usersDriver 2) rfl wholeTable (by decide) (by decide)).1⟩

/-- A chunk of one row, with a batch whose first event lies past the high watermark and whose
second replaces the row. -/
def replacedRow : List (DriverCall ℕ ScriptedStream) :=
  [.nextEvents [passOf 0 2 [userRow "1"] [],passOf 0 2 [] [userEvent 3 "9",userEvent 1 "1"],passOf 0 2 [] []]]

/-- The table once the chunk was committed. -/
def usersReplaced : TableProgress := ⟨⟨"public","users","public.users",["id"],none⟩,some [.str "1"],false,1,0⟩

theorem suppressed_row_unreturned :
    let s := run step (start (usersDriver 1)) replacedRow
    IncrementalSnapshotDriver.new clockBackend ⟨⟩ userCatalog ⟨["users"],1,[]⟩ "sample" none 1 = .ok (usersDriver 1) ∧
      Meets step (CallReads usersView) (start (usersDriver 1)) replacedRow ∧
      s.driver.snapshotState.tables.map (·.pkCursor) = [some [.str "1"]] ∧
      s.emitted = [⟨false,userEvent 3 "9"⟩] ∧ s.driver.deferred = [userEvent 1 "1"] ∧
      ¬ s.NeverAhead usersView := by
  refine ⟨rfl,by decide,by decide,by decide,by decide,fun h => ?_⟩
  have hr := h 0 usersReplaced ⟨0,none,false⟩ (by decide) usersReplaced.reported (by decide)
  rcases hr.cursor [.str "1"] rfl with hb | ⟨row,hro,hc,hh⟩
  · cases hb
  · have hfi : row = userRow "1" := by
      rcases hro with rfl | rfl
      · rfl
      · nomatch hc
    subst hfi
    rcases hh with ⟨m,hm,hi,_⟩ | ⟨e,he,e',he',hs,_,hf⟩
    · have hem : (run step (start (usersDriver 1)) replacedRow).emitted.drop 0 =
          [⟨false,userEvent 3 "9"⟩] := by decide
      obtain rfl := List.mem_singleton.mp (hem ▸ hm)
      nomatch hi
    · -- only the event past the watermark was returned, and it is about another row
      have ho : (run step (start (usersDriver 1)) replacedRow).out 0 = [userEvent 3 "9"] := by decide
      have hre : (run step (start (usersDriver 1)) replacedRow).received =
          [userEvent 3 "9",userEvent 1 "1"] := by decide
      obtain rfl := List.mem_singleton.mp (ho ▸ he')
      rw [hre] at he
      rcases List.mem_pair.mp he with rfl | rfl
      · nomatch hf
      · nomatch (congrArg Event.ts hs.frame)
end
end Incremental.DriverTrace
end Rustcdc
