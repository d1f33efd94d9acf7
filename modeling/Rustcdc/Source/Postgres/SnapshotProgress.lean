import Rustcdc.Source.Postgres.Snapshot

/-! How far a bulk snapshot has read.  A table's cursor only ever moves to a row that was read,
and a table once complete stays complete; so what a handle reports is never ahead of what it
holds. -/
namespace Rustcdc.Postgres
open List

/-- The tables after some rows were read: complete ones stay complete, and a cursor that moved
is the cursor of one of the rows. -/
def Moves (rows : List SnapshotRow) (before after : List TableSnapshotState) : Prop :=
  ∀ (i : ℕ) (t : TableSnapshotState), before[i]? = some t → ∃ t', after[i]? = some t' ∧
    (t.snapshot.isComplete = true → t'.snapshot.isComplete = true) ∧
    (t'.snapshot.cursorPosition = t.snapshot.cursorPosition ∨
      ∃ r ∈ rows, r.table = i ∧ r.cursor = t'.snapshot.cursorPosition)
lemma Moves.refl (tables : List TableSnapshotState) : Moves [] tables tables := fun _ t ht => ⟨t,ht,id,.inl rfl⟩

variable {rows : List SnapshotRow} {rows' : List SnapshotRow} {saved : List TableSnapshot}

lemma Moves.trans {a b c : List TableSnapshotState} (ha : Moves rows a b) (hb : Moves rows' b c) : Moves (rows++rows') a c := by
  intro i t ht
  obtain ⟨t',ht',hco,hc⟩ := ha i t ht
  obtain ⟨t'',ht'',hco',hc'⟩ := hb i t' ht'
  refine ⟨t'',ht'',hco' ∘ hco,?_⟩
  rcases hc' with hs | ⟨r,hr,hta,hm⟩
  · rcases hc with hc | ⟨r,hr,hta,hm⟩
    · exact .inl (hs.trans hc)
    · exact .inr ⟨r,mem_append_left _ hr,hta,hm.trans hs.symm⟩
  · exact .inr ⟨r,mem_append_right _ hr,hta,hm⟩

lemma Moves.modify (ts : List TableSnapshotState) (ind : ℕ) (u : TableSnapshotState → TableSnapshotState)
    (hc : ∀ t, t.snapshot.isComplete = true → (u t).snapshot.isComplete = true)
    (hcu : ∀ t, ts[ind]? = some t → (u t).snapshot.cursorPosition = t.snapshot.cursorPosition ∨
        ∃ r ∈ rows, r.table = ind ∧ r.cursor = (u t).snapshot.cursorPosition) :
    Moves rows ts (ts.modify ind u) := by
  intro i t ht
  by_cases hi : ind = i
  · subst hi
    exact ⟨u t,by simp [ht],hc t,hcu t ht⟩
  · exact ⟨t,by simp [ht,hi],id,.inl rfl⟩

def AllRows (rows : List SnapshotRow) : Prop := ∀ r ∈ rows, r.event.snapshot.isSome = true

lemma AllRows.append (h : AllRows rows) (h' : AllRows rows') : AllRows (rows++rows') := by
  intro r hr
  rcases mem_append.mp hr with hr | hr
  · exact h r hr
  · exact h' r hr

namespace PostgresSnapshotHandle
/-- Reading some rows: the tables move by them, and the progress reported stays. -/
structure Reads (h : PostgresSnapshotHandle) (rows : List SnapshotRow)
    (h' : PostgresSnapshotHandle) : Prop where
  moves : Moves rows h.tables h'.tables
  rows : AllRows rows
  reported : h'.snapshot = h.snapshot

variable (h : PostgresSnapshotHandle)

lemma Reads.refl : Reads h [] h := ⟨Moves.refl _,by simp [AllRows],rfl⟩

variable {rows : List SnapshotRow}

lemma Reads.trans {a b c : PostgresSnapshotHandle} {rows' : List SnapshotRow}
    (ha : Reads a rows b) (hb : Reads b rows' c) : Reads a (rows++rows') c :=
  ⟨ha.moves.trans hb.moves,ha.rows.append hb.rows,hb.reported.trans ha.reported⟩

variable {r : SnapshotRow}

lemma reads_emitted (i : ℕ) (u : TableSnapshotState → TableSnapshotState)
    (he : r.event.snapshot.isSome = true) (hta : r.table = i)
    (hco : ∀ t, (u t).snapshot.isComplete = t.snapshot.isComplete)
    (hcu : ∀ t, h.tables[i]? = some t → (u t).snapshot.cursorPosition = t.snapshot.cursorPosition ∨
        r.cursor = (u t).snapshot.cursorPosition) :
    Reads h [r] (h.emitted i u) := by
  refine ⟨Moves.modify _ _ _ (fun t hc => (hco t).trans hc) fun t ht => ?_,?_,rfl⟩
  · exact (hcu t ht).imp_right fun hm => ⟨r,mem_singleton_self _,hta,hm⟩
  · simpa [AllRows] using he

lemma readFetched_reads (now : UInt64) (i : ℕ) (t : TableSnapshotState) (fs : List (List String × Json)) :
    Reads h (h.readFetched now i t fs).2 (h.readFetched now i t fs).1 := by
  induction fs generalizing h with
  | nil => exact Reads.refl h
  | cons row fs ih =>
    obtain ⟨keyValues,row⟩ := row
    rw [readFetched]
    dsimp only
    rw [← singleton_append]
    refine Reads.trans ?_ (ih _)
    exact reads_emitted h i _ rfl rfl (fun _ => rfl) fun _ _ => .inr rfl

lemma readStored_reads (now : UInt64) (i k : ℕ) : Reads h (h.readStored now i k).2 (h.readStored now i k).1 := by
  induction k generalizing h with
  | zero => exact Reads.refl h
  | succ k ih =>
    rw [readStored]
    split
    · exact Reads.refl h
    · rename_i t ht
      split
      · exact Reads.refl h
      · dsimp only
        rw [← singleton_append]
        refine Reads.trans ?_ (ih _)
        refine reads_emitted h i _ ?_ ?_ (fun _ => rfl) fun t' ht' => ?_
        · unfold storedRow
          split <;> rfl
        · unfold storedRow
          split <;> rfl
        · obtain rfl := Option.some.inj (ht.symm.trans ht')
          by_cases hl : t.liveQuery
          · simp [passStored,hl]
          · simp [passStored,storedRow,hl]

lemma completeTable_reads : Reads h [] h.completeTable :=
  ⟨Moves.modify _ _ _ (fun _ _ => rfl) fun _ _ => .inl rfl,by simp [AllRows],rfl⟩

lemma readTable_reads (now : UInt64) (k : ℕ) : Reads h (h.readTable now k).2 (h.readTable now k).1 := by
  have hs := h.readStored_reads now h.currentTable k
  unfold readTable
  dsimp only
  split
  · split
    · have ht := hs.trans (completeTable_reads _)
      rw [append_nil] at ht
      exact ht
    · exact hs
  · exact hs

/-- The chunk loop adds rows to those it was given, and moves the tables by them. -/
theorem readChunk_reads (a : ChunkAnswer) (rq k query : ℕ) (h : PostgresSnapshotHandle) (re : List SnapshotRow) :
    ∃ rows, (readChunk a rq k query h re).2.1 = re++rows ∧ Reads h rows (readChunk a rq k query h re).1 := by
  have hn : ∃ rows, re = re++rows ∧ Reads h rows h := ⟨[],by simp,Reads.refl h⟩
  induction k generalizing query h re with
  | zero => exact hn
  | succ k ih =>
    have hg : ∀ query (n : PostgresSnapshotHandle) (one : List SnapshotRow), Reads h one n →
        ∃ rows, (readChunk a rq k query n (re++one)).2.1 = re++rows ∧
          Reads h rows (readChunk a rq k query n (re++one)).1 := by
      intro query n one ho
      obtain ⟨rows,hr,hre⟩ := ih query n (re++one) ⟨[],by simp,Reads.refl _⟩
      exact ⟨one++rows,by rw [hr,append_assoc],ho.trans hre⟩
    rw [readChunk]
    split
    · exact hn
    · split
      · exact hn
      · rename_i t _
        split
        · split
          · exact hn
          · simpa using hg (query+1) h.completeTable [] h.completeTable_reads
          · exact hg (query+1) _ _ (h.readFetched_reads a.now h.currentTable t _)
        · exact hg query _ _ (h.readTable_reads a.now (rq-re.length))

lemma moves_markLast {b after : List TableSnapshotState} (h : Moves rows b after) :
    Moves (markLast rows) b after := by
  intro i t ht
  obtain ⟨t',ht',hc,hcu⟩ := h i t ht
  refine ⟨t',ht',hc,hcu.imp_right fun ⟨r,hr,hta,hm⟩ => ?_⟩
  have hk : (r.table,r.cursor) ∈ (markLast rows).map fun r => (r.table,r.cursor) := by
    rw [map_markLast fun _ => rfl]
    exact mem_map_of_mem hr
  obtain ⟨r',hr',hs⟩ := mem_map.mp hk
  obtain ⟨hs,hs'⟩ := Prod.mk.inj hs
  exact ⟨r',hr',hs.trans hta,hs'.trans hm⟩

lemma allRows_markLast (h : AllRows rows) : AllRows (markLast rows) := by
  intro r hr
  have hk : r.event.snapshot.isSome ∈ rows.map (·.event.snapshot.isSome) := by
    rw [← map_markLast (by simp)]
    exact mem_map_of_mem hr
  obtain ⟨r',hr',hs⟩ := mem_map.mp hk
  exact hs.symm.trans (h r' hr')

/-- A call on a handle: the tables move by the rows it read, and the progress it reports stays or
is brought up to date. -/
structure Follows (h : PostgresSnapshotHandle) (rows : List SnapshotRow)
    (h' : PostgresSnapshotHandle) : Prop where
  moves : Moves rows h.tables h'.tables
  reported : h'.snapshot.tables = h.snapshot.tables ∨ h'.snapshot.tables = h'.tables.map (·.snapshot)

/-- The rows of a chunk are snapshot rows, and what it returns is what it read. -/
theorem nextChunk_follows (k : ℕ) (a : ChunkAnswer) : Follows h (h.readRows k a) (h.nextChunk k a).1 ∧
      AllRows (h.readRows k a) ∧
      ∀ es, (h.nextChunk k a).2 = .ok es → es = (h.readRows k a).map (·.event) := by
  unfold nextChunk
  by_cases hd : h.isComplete = true
  · simp only [readRows,hd,if_true]
    refine ⟨⟨?_,.inl ?_⟩,by simp [AllRows],fun es he => (Except.ok.inj he).symm⟩
    · split <;> exact Moves.refl _
    · split <;> rfl
  · simp only [readRows,hd,Bool.false_eq_true,if_false]
    have hc : ∃ rows, (h.chunk k a).2.1 = []++rows ∧ Reads h rows (h.chunk k a).1 := readChunk_reads a _ _ 0 h []
    obtain ⟨rows,hre,hr⟩ := hc
    rw [nil_append] at hre
    subst hre
    generalize h.chunk k a = ended at hr ⊢
    obtain ⟨re,rows,failure⟩ := ended
    cases failure with
    | some =>
      simp only [Option.isNone_some,Bool.false_and,Bool.false_eq_true,if_false]
      exact ⟨⟨hr.moves,.inl (congrArg _ hr.reported)⟩,hr.rows,fun es he => nomatch he⟩
    | none =>
      have hm : Moves (if re.isComplete then markLast rows else rows) h.tables re.tables ∧
          AllRows (if re.isComplete then markLast rows else rows) := by
        split
        · exact ⟨moves_markLast hr.moves,allRows_markLast hr.rows⟩
        · exact ⟨hr.moves,hr.rows⟩
      simp only [Option.isNone_none,Bool.true_and]
      generalize (if re.isComplete then markLast rows else rows) = marked at hm ⊢
      refine ⟨⟨?_,.inr ?_⟩,hm.2,fun es he => (Except.ok.inj he).symm⟩
      · have ht := hm.1
        split <;> split <;> exact ht
      · split <;> split <;> rfl

lemma finish_follows (now : UInt64) (commit : Except String Unit) : Follows h [] (h.finish now commit).1 := by
  have hs : ∀ h' : PostgresSnapshotHandle, h'.tables = h.tables →
      h'.snapshot.tables = h.tables.map (·.snapshot) → Follows h [] h' := by
    intro h' ht hr
    exact ⟨ht ▸ Moves.refl _,.inr (hr.trans (by rw [ht]))⟩
  unfold finish
  dsimp only
  repeat' split
  all_goals exact hs _ rfl rfl
end PostgresSnapshotHandle
lemma performHandoff_follows (h : PostgresSnapshotHandle) (s : PostgresStreamHandle)
    (a : HandoffAnswer) : h.Follows [] (performHandoff h s a).1 := by
  unfold performHandoff
  split
  · exact ⟨Moves.refl _,.inl rfl⟩
  · exact ⟨Moves.refl _,.inl rfl⟩
  · have hf := h.finish_follows a.now a.commit
    split
    · rename_i he
      rw [he] at hf
      exact hf
    · rename_i he
      rw [he] at hf
      split <;> exact hf

variable {κ : Type} [Preorder κ]

/-- The handle is done with what a checkpoint reports done: complete tables are complete, and each
cursor is at or after the reported one. -/
def Behind (keyRank : ℕ → String → κ) (saved : List TableSnapshot) (tables : List TableSnapshotState) : Prop :=
  ∀ (i : ℕ) (table : TableSnapshot), saved[i]? = some table → ∃ t, tables[i]? = some t ∧
    (table.isComplete = true → t.snapshot.isComplete = true) ∧
    ∀ c, table.cursorPosition = some c → ∃ c', t.snapshot.cursorPosition = some c' ∧ keyRank i c ≤ keyRank i c'

/-- The server's side of a chunk: rows come in key order behind the cursor, and a complete table
has no more of them. -/
def InKeyOrder (keyRank : ℕ → String → κ) (tables : List TableSnapshotState) (rows : List SnapshotRow) : Prop :=
  ∀ r ∈ rows, ∀ t ∈ tables[r.table]?, t.snapshot.isComplete = false ∧
    ∀ c ∈ t.snapshot.cursorPosition, ∃ c' ∈ r.cursor, keyRank r.table c < keyRank r.table c'

variable {keyRank : ℕ → String → κ}

lemma Behind.refl (tables : List TableSnapshotState) : Behind keyRank (tables.map (·.snapshot)) tables := by
  intro i ta hta
  rw [List.getElem?_map,Option.map_eq_some_iff] at hta
  obtain ⟨t,ht,rfl⟩ := hta
  exact ⟨t,ht,id,fun c hc => ⟨c,hc,le_rfl⟩⟩

lemma Behind.moves {b after : List TableSnapshotState} (h : Behind keyRank saved b)
    (hm : Moves rows b after) (hro : InKeyOrder keyRank b rows) :
    Behind keyRank saved after := by
  intro i ta hta
  obtain ⟨t,ht,hco,hcu⟩ := h i ta hta
  obtain ⟨t',ht',hco',hcu'⟩ := hm i t ht
  refine ⟨t',ht',hco' ∘ hco,fun c hc => ?_⟩
  obtain ⟨c₁,hc₁,hl⟩ := hcu c hc
  rcases hcu' with hs | ⟨r,hr,rfl,hmo⟩
  · exact ⟨c₁,hs.trans hc₁,hl⟩
  · obtain ⟨c₂,hc₂,hlt⟩ := (hro r hr t ht).2 c₁ hc₁
    exact ⟨c₂,hmo.symm.trans hc₂,hl.trans hlt.le⟩

/-- A handle that has got at least as far as another. -/
structure Further (keyRank : ℕ → String → κ) (h h' : PostgresSnapshotHandle) : Prop where
  reported : Behind keyRank h.snapshot.tables h.tables → Behind keyRank h'.snapshot.tables h'.tables
  saved : ∀ saved, Behind keyRank saved h.tables → Behind keyRank saved h'.tables

lemma Further.refl (h : PostgresSnapshotHandle) : Further keyRank h h := ⟨id,fun _ => id⟩
lemma Further.trans {a b c : PostgresSnapshotHandle} (ha : Further keyRank a b)
    (hb : Further keyRank b c) : Further keyRank a c :=
  ⟨hb.reported ∘ ha.reported,fun saved => hb.saved saved ∘ ha.saved saved⟩

lemma PostgresSnapshotHandle.Follows.further {h h' : PostgresSnapshotHandle}
    (hf : h.Follows rows h') (hr : InKeyOrder keyRank h.tables rows) :
    Further keyRank h h' := by
  refine ⟨fun hb => ?_,fun saved hb => hb.moves hf.moves hr⟩
  rcases hf.reported with hsa | hs
  · rw [hsa]
    exact hb.moves hf.moves hr
  · rw [hs]
    exact Behind.refl _

namespace PostgresSnapshotHandle
variable {d : String → Except String (List String)}

lemma resumeTables_snapshots {i : ℕ} {ts resumed : List TableSnapshotState}
    {saved : List TableSnapshot} (hl : saved.length = ts.length)
    (hre : resumeTables d i ts saved = .ok resumed) :
    resumed.map (·.snapshot) = saved ∧ saved.map (·.table) = ts.map (·.snapshot.table) := by
  induction ts generalizing i saved resumed with
  | nil =>
    obtain rfl := length_eq_zero_iff.mp hl
    cases hre
    exact ⟨rfl,rfl⟩
  | cons t ts ih =>
    cases saved with
    | nil => simp at hl
    | cons ta saved =>
      rw [resumeTables] at hre
      cases ht : resumeTable d i t ta with
      | error => simp [ht] at hre
      | ok t' =>
        cases hr : resumeTables d (i+1) ts saved with
        | error => simp [ht,hr] at hre
        | ok =>
          simp only [ht,hr,Except.ok.injEq] at hre
          subst hre
          obtain ⟨hs,hn⟩ : t'.snapshot = ta ∧ t.snapshot.table = ta.table := by
            unfold resumeTable at ht
            split at ht
            · cases ht
            · rename_i hn
              refine ⟨?_,not_not.mp hn⟩
              repeat' split at ht
              all_goals cases ht
              all_goals rfl
          obtain ⟨his,hi⟩ := ih (by simpa using hl) hr
          rw [map_cons,map_cons,map_cons,hs,his,hi,hn]
          exact ⟨rfl,rfl⟩

lemma resumeFromCheckpointPayload_tables {h resumed : PostgresSnapshotHandle} {s : SnapshotCheckpointState}
    (hr : h.resumeFromCheckpointPayload d s = .ok resumed) :
    resumed.tables.map (·.snapshot) = s.tables ∧ resumed.snapshot.tables = resumed.tables.map (·.snapshot) ∧
      s.tables.map (·.table) = h.tables.map (·.snapshot.table) := by
  unfold resumeFromCheckpointPayload at hr
  split at hr
  · cases hr
  · rename_i hl
    cases ht : resumeTables d 0 h.tables s.tables with
    | error => simp [ht] at hr
    | ok =>
      simp only [ht] at hr
      split at hr
      · cases hr
      · cases hr
        obtain ⟨hs,hn⟩ := resumeTables_snapshots (not_not.mp hl) ht
        exact ⟨hs,rfl,hn⟩
end PostgresSnapshotHandle
/-- A restart from the progress does not read the row again. -/
def Skips (keyRank : ℕ → String → κ) (saved : List TableSnapshot) (r : SnapshotRow) : Prop :=
  ∃ table ∈ saved[r.table]?, table.isComplete = true ∨
    ∃ c ∈ table.cursorPosition, ∃ c' ∈ r.cursor, keyRank r.table c' ≤ keyRank r.table c

/-- What is read behind a handle's cursor is not skipped by the progress it is done with. -/
theorem Behind.not_skips {ts : List TableSnapshotState} (h : Behind keyRank saved ts)
    (hro : InKeyOrder keyRank ts rows) {r : SnapshotRow} (hr : r ∈ rows) :
    ¬ Skips keyRank saved r := by
  rintro ⟨ta,hta,hs⟩
  obtain ⟨t,ht,hco,hcu⟩ := h r.table ta hta
  obtain ⟨ho,hl⟩ := hro r hr t ht
  rcases hs with hd | ⟨c,hc,c',hc',hle⟩
  · rw [hco hd] at ho
    cases ho
  · obtain ⟨c₁,hc₁,hle₁⟩ := hcu c hc
    obtain ⟨c₂,hc₂,hlt⟩ := hl c₁ hc₁
    obtain rfl := Option.some.inj (hc'.symm.trans hc₂)
    exact not_le_of_gt (hle₁.trans_lt hlt) hle
end Rustcdc.Postgres
