import Rustcdc.SchemaHistory.Store

/-! Replays of recorded DDLs.  A replay is recognised by its id among the entries that its table still
has, so it is recorded again once its entry has been pruned, and another DDL of the table at the same
position is taken for it. -/
namespace Rustcdc.SchemaStore
open Machine
section
/-- A DDL that was recorded, and the version it was given. -/
structure Record where
  id : String
  ddl : DDLEvent
  version : UInt32
  deriving DecidableEq

/-- The store with the DDLs recorded in it. -/
structure History where
  store : SchemaStore
  recorded : List Record

inductive Call
  | record (id : String) (ddl : DDLEvent) (timestamp : UInt64)
  | retain (maxVersionsPerTable : ℕ)

/-- Note what a call of `record_ddl` returned. -/
def History.note (h : History) (id : String) (ddl : DDLEvent) : SchemaStore × Except Error UInt32 → History
  | (store,.ok version) => ⟨store,h.recorded++[⟨id,ddl,version⟩]⟩
  | (store,.error _) => ⟨store,h.recorded⟩

def History.step (h : History) : Call → History
  | .record id ddl timestamp => h.note id ddl (h.store.recordDdlInStore id ddl timestamp)
  | .retain limit => {h with store := h.store.applyStoreRetention limit}

/-- An entry of the table has the id. -/
def Retained (store : SchemaStore) (key id : String) : Prop := ∃ entry ∈ store.entries key, entry.ddlId = some id
  deriving Decidable

/-- The call records a DDL with an id of its own, or one that was recorded with this id and is still
retained. -/
def Identified (h : History) : Call → Prop
  | .record id ddl _ => id ≠ "" ∧ ∀ r ∈ h.recorded, r.ddl.key = ddl.key → r.id = id →
      r.ddl = ddl ∧ Retained h.store ddl.key id
  | .retain _ => True

/-- The entries with an id have the version that was returned for the DDL, and each has one. -/
structure Faithful (h : History) : Prop where
  version : ∀ r ∈ h.recorded, ∀ entry ∈ h.store.entries r.ddl.key, entry.ddlId = some r.id → entry.version = r.version
  source : ∀ key, ∀ entry ∈ h.store.entries key, ∀ id, entry.ddlId = some id →
    ∃ r ∈ h.recorded, r.ddl.key = key ∧ r.id = id

variable {h : History}
section
variable (hf : Faithful h) {r : Record} (hr : r ∈ h.recorded) (hi : r.id ≠ "")
include hf hr hi

lemma Faithful.existing (hre : Retained h.store r.ddl.key r.id) :
    h.store.existingVersionForDdl r.ddl.key r.id = some r.version := by
  cases he : h.store.existingVersionForDdl r.ddl.key r.id with
  | none =>
    obtain ⟨e,hen,hn⟩ := hre
    exact absurd hn (existing_none hi he e hen)
  | some =>
    obtain ⟨_,e,hen,hn,rfl⟩ := existing_some he
    rw [hf.version r hr e hen hn]

/-- A recorded DDL that is still retained is answered as the first time, and changes nothing. -/
theorem Faithful.replay (hre : Retained h.store r.ddl.key r.id) (t : UInt64) :
    h.store.recordDdlInStore r.id r.ddl t = (h.store,.ok r.version) := by
  rw [recordDdlInStore,hf.existing hr hi hre]
end
variable {ddl : DDLEvent}

/-- A DDL whose id no recorded DDL of its table has is not taken for one. -/
theorem Faithful.fresh (hf : Faithful h) {id : String} (hne : ∀ r ∈ h.recorded, r.ddl.key = ddl.key → r.id ≠ id) :
    h.store.existingVersionForDdl ddl.key id = none := by
  cases he : h.store.existingVersionForDdl ddl.key id with
  | none => rfl
  | some =>
    obtain ⟨_,e,hen,hn,_⟩ := existing_some he
    obtain ⟨r,hr,hk,hi⟩ := hf.source ddl.key e hen id hn
    exact absurd hi (hne r hr hk)

lemma Faithful.record (hf : Faithful h) {id : String} {t : UInt64} (hi : Identified h (.record id ddl t)) :
    Faithful (h.step (.record id ddl t)) := by
  rw [History.step]
  have hre := record_recorded h.store id ddl t
  generalize h.store.recordDdlInStore id ddl t = result at hre
  cases hre with
  | refused => exact hf
  | replay e hne he hn =>
    refine ⟨?_,fun k o ho id' hid' => ?_⟩
    · intro r hr o ho hid
      rcases List.mem_append.mp hr with hol | hl
      · exact hf.version r hol o ho hid
      · -- the record that is added has the version of the earlier one
        rw [List.mem_singleton.mp hl] at ho hid ⊢
        obtain ⟨r,hr,hk,hs⟩ := hf.source ddl.key e he id hn
        rw [← hk] at ho he
        rw [← hs] at hid hn
        exact (hf.version r hr o ho hid).trans (hf.version r hr e he hn).symm
    · obtain ⟨r,hr,hk,hid⟩ := hf.source k o ho id' hid'
      exact ⟨r,List.mem_append_left _ hr,hk,hid⟩
  | appended sc hnew =>
    have hno := existing_none hi.1 hnew
    have hm : (if id.isEmpty then none else some id) = some id := if_neg (by simpa using hi.1)
    refine ⟨?_,fun k o ho id' hid' => ?_⟩
    · intro r hr o ho hid
      rcases List.mem_append.mp hr with hol | hl
      · rcases mem_entries_push.mp ho with hb | ⟨hk,rfl⟩
        · exact hf.version r hol o hb hid
        · -- an earlier record of this table with this id would be retained
          have hs : r.id = id := (Option.some.inj (hm.symm.trans hid)).symm
          obtain ⟨_,e,he,hn⟩ := hi.2 r hol hk hs
          exact absurd hn (hno e he)
      · rw [List.mem_singleton.mp hl] at ho hid ⊢
        rcases mem_entries_push.mp ho with hb | ⟨_,rfl⟩
        · exact absurd hid (hno o hb)
        · rfl
    · rcases mem_entries_push.mp ho with hb | ⟨hk,rfl⟩
      · obtain ⟨r,hr,hk,hid⟩ := hf.source k o hb id' hid'
        exact ⟨r,List.mem_append_left _ hr,hk,hid⟩
      · exact ⟨_,List.mem_append_right _ (List.mem_singleton_self _),hk.symm,Option.some.inj (hm.symm.trans hid')⟩

lemma Faithful.step (hf : Faithful h) {c : Call} (hi : Identified h c) : Faithful (h.step c) := by
  cases c with
  | record => exact hf.record hi
  | retain =>
    exact ⟨fun r hr e he => hf.version r hr e (mem_entries_retention he),
      fun k e he => hf.source k e (mem_entries_retention he)⟩

/-- In every run in which each DDL has an id of its own among the recorded DDLs of its table, or is
recorded again while its entry is retained: recording a recorded DDL again returns its version and
leaves the store as it is, and a DDL with an id of its own is appended as a new version if it is
accepted. -/
theorem replay_idempotent (calls : List Call) (hident : Meets History.step Identified ⟨[],[]⟩ calls) :
    let h := run History.step ⟨[],[]⟩ calls
    ∀ (id : String) (ddl : DDLEvent) (timestamp : UInt64), Identified h (.record id ddl timestamp) →
      (∀ r ∈ h.recorded, r.id = id → r.ddl = ddl →
        h.store.recordDdlInStore id ddl timestamp = (h.store,.ok r.version)) ∧
      ((∀ r ∈ h.recorded, r.ddl.key = ddl.key → r.id ≠ id) →
        ∀ store version, h.store.recordDdlInStore id ddl timestamp = (store,.ok version) →
          version = h.store.nextVersion ddl.key ∧ ∃ schema,
            store = h.store.push ddl.key ⟨version,timestamp,schema,some id⟩) := by
  intro h id ddl timestamp hno
  have hf : Faithful h := by
    refine run_invariant_of_meets _ (P := Faithful) (fun h call hf hident => hf.step hident)
      ⟨fun r hr => (by cases hr),fun key entry he => ?_⟩ hident
    simp [entries] at he
  constructor
  · rintro r hr rfl rfl
    exact hf.replay hr hno.1 (hno.2 r hr rfl rfl).2 timestamp
  · intro hnew store version hres
    have hre := record_recorded h.store id ddl timestamp
    rw [hres] at hre
    cases hre with
    | replay entry hne he hn hfo =>
      rw [hf.fresh hnew] at hfo
      cases hfo
    | appended schema =>
      rw [if_neg (by simpa using hno.1)]
      exact ⟨rfl,schema,rfl⟩
end
instance (h : History) (call : Call) : Decidable (Identified h call) := by
  unfold Identified
  split <;> infer_instance

def ordersSchema : TableSchema := ⟨"shop","orders",[⟨"id","bigint",false,["primary_key"]⟩],["id"],0⟩
def createOrders : DDLEvent := .createTable ordersSchema
def addNote : DDLEvent := .alterTableDiff "shop" "orders" [.addColumn ⟨"note","text",true,[]⟩]
def addPrice : DDLEvent := .alterTableDiff "shop" "orders" [.addColumn ⟨"price","numeric",true,[]⟩]

theorem replay_idempotent_sample :
    let h := run History.step ⟨[],[]⟩ [.record "0/10" createOrders 1,.record "0/20" addNote 2,.retain 5]
    h.store.recordDdlInStore "0/20" addNote 3 = (h.store,.ok 2) := by
  have hr := replay_idempotent [.record "0/10" createOrders 1,.record "0/20" addNote 2,.retain 5] (by decide)
  exact (hr "0/20" addNote 3 (by decide)).1 ⟨"0/20",addNote,2⟩ (by decide) rfl rfl

/-- A replay whose entry was pruned is recorded as a new version, and another DDL of the table at the
position of a recorded one is dropped as its replay. -/
theorem replay_not_recognised :
    let pruned := run History.step ⟨[],[]⟩ [.record "0/10" createOrders 1,.record "0/20" addNote 2,.retain 1]
    let both := run History.step ⟨[],[]⟩ [.record "0/10" createOrders 1,.record "0/20" addNote 2]
    (pruned.recorded.map fun r => (r.id,r.version)) = [("0/10",1),("0/20",2)] ∧
      (pruned.store.recordDdlInStore "0/10" createOrders 3).2 = .ok 3 ∧
      addNote ≠ addPrice ∧ both.store.recordDdlInStore "0/20" addPrice 3 = (both.store,.ok 2) := by
  decide
end Rustcdc.SchemaStore
