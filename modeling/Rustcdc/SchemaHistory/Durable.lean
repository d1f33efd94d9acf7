import Rustcdc.SchemaHistory.Replay

/-! The file-backed schema history.  A DDL is in memory before the file is written, so when the write
fails a retry is answered as a replay and nothing is written for it. -/
namespace Rustcdc
open Machine
open SchemaStore

/-- How writing the file ends.  Once the new file is renamed into place the directory still has to be
synced; if that fails, a crash may undo the rename. -/
inductive PersistAnswer
  | done
  | unwritten (e : Error)
  | unsynced (e : Error)

def PersistAnswer.result : PersistAnswer → Except Error Unit
  | .done => .ok ()
  | .unwritten e | .unsynced e => .error e

/-- The history in memory, the file as it is read, and the file that is sure to be there after a
crash. -/
structure FileSchemaHistory where
  schemas : SchemaStore
  file : SchemaStore
  synced : SchemaStore

namespace FileSchemaHistory
variable (h : FileSchemaHistory)

def persistStore : PersistAnswer → FileSchemaHistory
  | .done => ⟨h.schemas,h.schemas,h.schemas⟩
  | .unwritten _ => h
  | .unsynced _ => {h with file := h.schemas}

/-- Write the file if the number of entries has changed. -/
def persistChanged (schemas : SchemaStore) (a : PersistAnswer) : FileSchemaHistory × Except Error Unit :=
  let changed := {h with schemas := schemas}
  if schemas.size ≠ h.schemas.size then (changed.persistStore a,a.result) else (changed,.ok ())

def recordDdl (ddlId : String) (ddl : DDLEvent) (timestamp : UInt64) (a : PersistAnswer) :
    FileSchemaHistory × Except Error UInt32 :=
  match h.schemas.recordDdlInStore ddlId ddl timestamp with
  | (schemas,.error e) => ({h with schemas := schemas},.error e)
  | (schemas,.ok version) =>
    ((h.persistChanged schemas a).1,(h.persistChanged schemas a).2.map fun _ => version)

def applyRetention (maxVersionsPerTable : ℕ) (a : PersistAnswer) : FileSchemaHistory × Except Error Unit :=
  h.persistChanged (h.schemas.applyStoreRetention maxVersionsPerTable) a

/-- The history opened again after a crash, from the file as it was read or from the one that was
synced. -/
def reopen (renamed : Bool) : FileSchemaHistory :=
  let store := if renamed then h.file else h.synced
  ⟨store,store,store⟩

lemma persistChanged_push (k : String) (e : VersionedSchema) (a : PersistAnswer) :
    h.persistChanged (h.schemas.push k e) a = ({h with schemas := h.schemas.push k e}.persistStore a,a.result) := by
  refine if_pos ?_
  rw [size_push]
  omega

inductive Written (h : FileSchemaHistory) (ddlId : String) (ddl : DDLEvent) (timestamp : UInt64)
    (a : PersistAnswer) : FileSchemaHistory × Except Error UInt32 → Prop
  | replay (entry : VersionedSchema) (named : ddlId ≠ "") (mem : entry ∈ h.schemas.entries ddl.key)
      (id : entry.ddlId = some ddlId)
      (found : h.schemas.existingVersionForDdl ddl.key ddlId = some entry.version) :
      Written h ddlId ddl timestamp a (h,.ok entry.version)
  | refused (e : Error) (new : h.schemas.existingVersionForDdl ddl.key ddlId = none) :
      Written h ddlId ddl timestamp a (h,.error e)
  | appended (entry : VersionedSchema) (new : h.schemas.existingVersionForDdl ddl.key ddlId = none)
      (id : entry.ddlId = if ddlId.isEmpty then none else some ddlId) :
      Written h ddlId ddl timestamp a ({h with schemas := h.schemas.push ddl.key entry}.persistStore a,
          a.result.map fun _ => entry.version)

lemma recordDdl_written (ddlId : String) (ddl : DDLEvent) (ti : UInt64) (a : PersistAnswer) :
    Written h ddlId ddl ti a (h.recordDdl ddlId ddl ti a) := by
  rw [recordDdl]
  have hr := record_recorded h.schemas ddlId ddl ti
  generalize h.schemas.recordDdlInStore ddlId ddl ti = result at hr
  cases hr with
  | replay en hne he hi hf =>
    have hs : h.persistChanged h.schemas a = (h,.ok ()) := if_neg (by simp)
    simp only [hs]
    exact .replay en hne he hi hf
  | refused e hn => exact .refused e hn
  | appended sc hn =>
    dsimp only
    rw [persistChanged_push]
    exact .appended ⟨_,ti,sc,_⟩ hn rfl
end FileSchemaHistory
section
open FileSchemaHistory

/-- A DDL that `record_ddl` returned success for. -/
structure Promise where
  key : String
  id : Option String
  version : UInt32
  deriving DecidableEq

/-- The store has the DDL at its version. -/
def SchemaStore.Holds (store : SchemaStore) (p : Promise) : Prop :=
  ∃ entry ∈ store.entries p.key, entry.ddlId = p.id ∧ entry.version = p.version
  deriving Decidable

/-- The history with the DDLs it promised to keep. -/
structure HistoryTrace where
  history : FileSchemaHistory
  promised : List Promise

inductive HistoryCall
  | record (id : String) (ddl : DDLEvent) (timestamp : UInt64) (a : PersistAnswer)
  | retain (maxVersionsPerTable : ℕ) (a : PersistAnswer)
  | crash (renamed : Bool)

/-- Retention releases the promises for what it prunes. -/
def HistoryTrace.step (t : HistoryTrace) : HistoryCall → HistoryTrace
  | .record id ddl timestamp a =>
    match t.history.recordDdl id ddl timestamp a with
    | (history,.ok version) =>
      ⟨history,t.promised++[⟨ddl.key,if id.isEmpty then none else some id,version⟩]⟩
    | (history,.error _) => ⟨history,t.promised⟩
  | .retain limit a =>
    let history := (t.history.applyRetention limit a).1
    ⟨history,t.promised.filter (history.schemas.Holds ·)⟩
  | .crash renamed => {t with history := t.history.reopen renamed}

/-- A replay is recorded only while the file is up to date with the memory. -/
def UpToDate (t : HistoryTrace) : HistoryCall → Prop
  | .record id ddl _ _ => (t.history.schemas.existingVersionForDdl ddl.key id).isSome →
      t.history.file = t.history.schemas ∧ t.history.synced = t.history.schemas
  | _ => True

/-- A DDL is in memory and in both states of the file. -/
structure FileSchemaHistory.Keeps (h : FileSchemaHistory) (p : Promise) : Prop where
  schemas : h.schemas.Holds p
  file : h.file.Holds p
  synced : h.synced.Holds p

lemma FileSchemaHistory.Keeps.persistStore {h : FileSchemaHistory} {p : Promise} (hk : h.Keeps p)
    (a : PersistAnswer) : (h.persistStore a).Keeps p := by
  cases a with
  | done => exact ⟨hk.schemas,hk.schemas,hk.schemas⟩
  | unwritten => exact hk
  | unsynced => exact ⟨hk.schemas,hk.schemas,hk.synced⟩

lemma SchemaStore.Holds.push {st : SchemaStore} {p : Promise} (h : st.Holds p) (k : String)
    (e : VersionedSchema) : (st.push k e).Holds p := by
  obtain ⟨held,hm,hh⟩ := h
  exact ⟨held,mem_entries_push.mpr (Or.inl hm),hh⟩

def Kept (t : HistoryTrace) : Prop := ∀ p ∈ t.promised, t.history.Keeps p

variable {t : HistoryTrace}

lemma Kept.record (h : Kept t) {id : String} {ddl : DDLEvent} {ti : UInt64} {a : PersistAnswer}
    (hc : UpToDate t (.record id ddl ti a)) :
    Kept (t.step (.record id ddl ti a)) := by
  rw [HistoryTrace.step]
  have hw := recordDdl_written t.history id ddl ti a
  generalize t.history.recordDdl id ddl ti a = result at hw
  cases hw with
  | refused => exact h
  | replay en hne he hi hf =>
    intro p hp
    rcases List.mem_append.mp hp with ho | hl
    · exact h p ho
    · -- the entry is in memory, and the file holds the same entries
      obtain ⟨hfi,hs⟩ := hc (by rw [hf]; rfl)
      have hh : t.history.schemas.Holds p := by
        rw [List.mem_singleton.mp hl]
        exact ⟨en,he,by rw [hi,if_neg (by simpa using hne)],rfl⟩
      exact ⟨hh,hfi ▸ hh,hs ▸ hh⟩
  | appended en hn hi =>
    have hg : ∀ p ∈ t.promised, {t.history with schemas := t.history.schemas.push ddl.key en}.Keeps p :=
      fun p hp => ⟨(h p hp).schemas.push ddl.key en,(h p hp).file,(h p hp).synced⟩
    cases a with
    | unwritten e => exact fun p hp => (hg p hp).persistStore (.unwritten e)
    | unsynced e => exact fun p hp => (hg p hp).persistStore (.unsynced e)
    | done =>
      intro p hp
      rcases List.mem_append.mp hp with ho | hl
      · exact (hg p ho).persistStore .done
      · have hh : (t.history.schemas.push ddl.key en).Holds p := by
          rw [List.mem_singleton.mp hl]
          exact ⟨en,mem_entries_push.mpr (Or.inr ⟨rfl,rfl⟩),hi,rfl⟩
        exact ⟨hh,hh,hh⟩

lemma Kept.retain (h : Kept t) (k : ℕ) (a : PersistAnswer) : Kept (t.step (.retain k a)) := by
  intro p hp
  obtain ⟨ho,hh⟩ := List.mem_filter.mp hp
  have hk : (t.history.schemas.applyStoreRetention k).Holds p →
      {t.history with schemas := t.history.schemas.applyStoreRetention k}.Keeps p :=
    fun hpr => ⟨hpr,(h p ho).file,(h p ho).synced⟩
  have hpr : (t.history.applyRetention k a).1.schemas.Holds p := of_decide_eq_true hh
  show (t.history.applyRetention k a).1.Keeps p
  rw [applyRetention,persistChanged] at hpr ⊢
  by_cases hs : (t.history.schemas.applyStoreRetention k).size ≠ t.history.schemas.size
  · simp only [if_pos hs] at hpr ⊢
    refine (hk ?_).persistStore a
    cases a <;> exact hpr
  · simp only [if_neg hs] at hpr ⊢
    exact hk hpr

lemma Kept.step (h : Kept t) {c : HistoryCall} (hc : UpToDate t c) : Kept (t.step c) := by
  cases c with
  | record => exact h.record hc
  | retain k a => exact h.retain k a
  | crash renamed =>
    intro p hp
    cases renamed with
    | true => exact ⟨(h p hp).file,(h p hp).file,(h p hp).file⟩
    | false => exact ⟨(h p hp).synced,(h p hp).synced,(h p hp).synced⟩

/-- In every run in which a replay is recorded only while the file is up to date, a history opened again
after a crash has every DDL that `record_ddl` returned success for and that no retention has pruned, at
its version; and a call that appends a DDL and succeeds has written all that is in memory. -/
theorem recorded_ddl_durable (calls : List HistoryCall)
    (hcurrent : Meets HistoryTrace.step UpToDate ⟨⟨[],[],[]⟩,[]⟩ calls) :
    let t := run HistoryTrace.step ⟨⟨[],[],[]⟩,[]⟩ calls
    (∀ p ∈ t.promised, ∀ renamed, (t.history.reopen renamed).schemas.Holds p) ∧
    ∀ (id : String) (ddl : DDLEvent) (timestamp : UInt64) (a : PersistAnswer)
      (history : FileSchemaHistory) (version : UInt32),
      t.history.schemas.existingVersionForDdl ddl.key id = none →
      t.history.recordDdl id ddl timestamp a = (history,.ok version) →
        history.file = history.schemas ∧ history.synced = history.schemas ∧
          ∀ key, ∀ entry ∈ t.history.schemas.entries key, entry ∈ history.synced.entries key := by
  intro t
  have hk : Kept t := run_invariant_of_meets _ (P := Kept)
    (fun t call h hcurrent => h.step hcurrent) (fun p hp => by cases hp) hcurrent
  refine ⟨fun p hp renamed => ?_,fun id ddl timestamp a history version hn hr => ?_⟩
  · cases renamed with
    | true => exact (hk p hp).file
    | false => exact (hk p hp).synced
  · have hw := recordDdl_written t.history id ddl timestamp a
    generalize hre : t.history.recordDdl id ddl timestamp a = result at hw hr
    cases hw with
    | replay entry hne he hi hf => rw [hn] at hf; cases hf
    | refused => cases hr
    | appended =>
      cases a with
      | unwritten | unsynced => cases hr
      | done =>
        cases hr
        exact ⟨rfl,rfl,fun key held hh => SchemaStore.mem_entries_push.mpr (Or.inl hh)⟩

instance (t : HistoryTrace) (call : HistoryCall) : Decidable (UpToDate t call) := by
  unfold UpToDate
  split <;> infer_instance

def diskFull : Error := .ioError "No space left on device"

open SchemaStore (createOrders addNote addPrice)

/-- The write of the second DDL fails; the third call writes both. -/
theorem recorded_ddl_durable_sample :
    let t := run HistoryTrace.step ⟨⟨[],[],[]⟩,[]⟩
      [.record "0/10" createOrders 1 .done,.record "0/20" addNote 2 (.unwritten diskFull),
        .record "0/30" addPrice 3 .done]
    t.promised.map (·.version) = [1,3] ∧
      (t.history.reopen false).schemas.Holds ⟨"shop.orders",some "0/30",3⟩ ∧
      (t.history.reopen false).schemas.Holds ⟨"shop.orders",some "0/20",2⟩ := by
  have hd := recorded_ddl_durable [.record "0/10" createOrders 1 .done,.record "0/20" addNote 2 (.unwritten diskFull),
      .record "0/30" addPrice 3 .done] (by decide)
  exact ⟨by decide,hd.1 _ (by decide) false,by decide⟩

/-- The first call fails to write the file; the second finds the DDL in memory, succeeds and writes
nothing, and after a crash the DDL is gone. -/
theorem retried_ddl_lost :
    let failed := run HistoryTrace.step ⟨⟨[],[],[]⟩,[]⟩ [.record "0/10" createOrders 1 (.unwritten diskFull)]
    let t := run HistoryTrace.step ⟨⟨[],[],[]⟩,[]⟩
      [.record "0/10" createOrders 1 (.unwritten diskFull),.record "0/10" createOrders 2 .done]
    failed.promised = [] ∧ t.promised = [⟨"shop.orders",some "0/10",1⟩] ∧
      ∀ renamed, (t.history.reopen renamed).schemas.latestSchemaForTable "shop.orders" = none ∧
        ¬(t.history.reopen renamed).schemas.Holds ⟨"shop.orders",some "0/10",1⟩ := by
  decide
end
end Rustcdc
