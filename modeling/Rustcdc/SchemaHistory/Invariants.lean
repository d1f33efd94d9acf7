import Rustcdc.SchemaHistory.Replay

/-! What holds of the store after any calls.  A diff is checked against the columns of its table; a schema
that a DDL gives whole is stored as it is given. -/
namespace Rustcdc
namespace TableSchema
/-- The column names are unique, and each key is one of them. -/
def Sound (s : TableSchema) : Prop :=
  (s.columns.map (·.name)).Nodup ∧ s.primaryKeys ⊆ s.columns.map (·.name)
  deriving Decidable

lemma names_renameFirst (old new : String) {cs : List ColumnDef} (hn : (cs.map (·.name)).Nodup) :
    (renameFirst old new cs).map (·.name) = (cs.map (·.name)).map fun k => if k = old then new else k := by
  induction cs with
  | nil => rfl
  | cons c cs ih =>
    rw [List.map_cons,List.nodup_cons] at hn
    rw [renameFirst]
    split
    · rename_i hc
      -- no later column has the old name
      have hr : ∀ d ∈ cs, d.name ≠ old := fun d hd h => hn.1 (List.mem_map.mpr ⟨d,hd,h.trans hc.symm⟩)
      simpa [hc] using fun d hd h => absurd h (hr d hd)
    · simp [*]

variable {s t : TableSchema}

lemma hasColumn_iff {k : String} : s.hasColumn k ↔ k ∈ s.columns.map (·.name) := by simp [hasColumn]

lemma Sound.operation (hs : s.Sound) {o : SchemaDiffOperation} (h : s.applyOperation o = .ok t) : t.Sound := by
  obtain ⟨hn,hk⟩ := hs
  cases o with
  | addColumn c =>
    rw [applyOperation] at h
    split at h
    · cases h
    · rename_i hc
      cases h
      rw [hasColumn_iff] at hc
      rw [Sound,List.map_append,List.map_singleton]
      refine ⟨List.nodup_append'.mpr ⟨hn,List.nodup_singleton _,by simpa using hc⟩,?_⟩
      have hl := List.subset_append_of_subset_left [c.name] hk
      dsimp only
      split
      · exact List.append_subset.mpr ⟨hl,List.subset_append_right ..⟩
      · exact hl
  | dropColumn k =>
    rw [applyOperation] at h
    split at h
    · cases h
    · cases h
      refine ⟨hn.sublist (List.filter_sublist.map _),fun x hx => ?_⟩
      obtain ⟨hx,hne⟩ := List.mem_filter.mp hx
      obtain ⟨c,hc,rfl⟩ := List.mem_map.mp (hk hx)
      exact List.mem_map.mpr ⟨c,List.mem_filter.mpr ⟨hc,hne⟩,rfl⟩
  | renameColumn a b =>
    rw [applyOperation] at h
    split at h
    · cases h
    · rename_i hb
      split at h
      · cases h
      · cases h
        rw [hasColumn_iff] at hb
        rw [Sound,names_renameFirst a b hn]
        refine ⟨hn.map_on fun x hx y hy h => ?_,List.map_subset _ hk⟩
        -- the new name is no column's
        grind
  | unsupported => cases h

lemma Sound.diff {d : List SchemaDiffOperation} (hs : s.Sound) (h : s.applySchemaDiff d = .ok t) : t.Sound := by
  induction d generalizing s with
  | nil =>
    cases h
    exact hs
  | cons o d ih =>
    rw [applySchemaDiff] at h
    split at h
    · cases h
    · rename_i ho
      exact ih (hs.operation ho) h
end TableSchema
/-- The schema a DDL gives whole. -/
def DDLEvent.given : DDLEvent → Option TableSchema
  | .createTable schema | .alterTable schema => some schema
  | .alterTableDiff .. | .dropTable .. => none

namespace SchemaStore
open Machine

/-- The versions of each table follow each other, and its schemas are sound. -/
def Sound (store : SchemaStore) : Prop :=
  ∀ key, (store.entries key).IsChain (fun a b => b.version.toNat = a.version.toNat+1) ∧
    ∀ e ∈ store.entries key, ∀ s ∈ e.schema, s.Sound

/-- A schema that is given whole is sound, the version fits its 32 bits, and a version is kept. -/
def Proper (h : History) : Call → Prop
  | .record _ ddl _ => (∀ s ∈ ddl.given, s.Sound) ∧ h.store.nextVersion ddl.key ≠ 0
  | .retain limit => 0 < limit

variable {st : SchemaStore} {h : History} {ddl : DDLEvent}

lemma Sound.result (hs : Sound st) (hg : ∀ s ∈ ddl.given, s.Sound) {v : UInt32} {s : TableSchema}
    (h : st.resultSchema v ddl = .ok (some s)) : s.Sound := by
  cases ddl with
  | createTable | alterTable =>
    cases h
    have hd := hg _ rfl
    exact hd
  | dropTable => cases h
  | alterTableDiff a b d =>
    rw [resultSchema] at h
    split at h
    · cases h
    · rename_i c hl
      obtain ⟨e,he,hc⟩ := Option.bind_eq_some_iff.mp hl
      obtain ⟨_,ha,hd⟩ := except_map_ok h
      cases hd
      have hd := ((hs _).2 e (List.mem_of_getLast? he) c hc).diff ha
      exact hd

lemma nextVersion_follows {k : String} {e : VersionedSchema} (he : (st.entries k).getLast? = some e)
    (hv : st.nextVersion k ≠ 0) : (st.nextVersion k).toNat = e.version.toNat+1 := by
  simp only [nextVersion,he] at hv ⊢
  have h0 : (e.version+1).toNat ≠ 0 := fun h => hv (UInt32.toNat_inj.mp h)
  have hl := e.version.toNat_lt
  rw [UInt32.toNat_add,UInt32.toNat_one] at h0 ⊢
  omega

lemma Sound.step (hs : Sound h.store) {c : Call} (hc : Proper h c) : Sound (h.step c).store := by
  cases c with
  | retain =>
    intro k
    refine ⟨?_,fun e he => (hs k).2 e (mem_entries_retention he)⟩
    simpa only [History.step,entries_retention] using (hs k).1.drop _
  | record id ddl t =>
    rw [History.step,recordDdlInStore]
    split
    · exact hs
    · dsimp only
      split
      · exact hs
      · rename_i o ho
        refine fun k => ⟨?_,fun e he => ?_⟩
        · rw [History.note]
          by_cases hk : k = ddl.key
          · subst hk
            rw [entries_push_self,List.isChain_append]
            refine ⟨(hs _).1,List.isChain_singleton _,fun e he n hn => ?_⟩
            cases hn
            exact nextVersion_follows he hc.2
          · rw [entries_push_ne _ hk]
            exact (hs k).1
        · rcases mem_entries_push.mp he with he | ⟨_,rfl⟩
          · exact (hs k).2 e he
          · rintro s rfl
            exact hs.result hc.1 ho

/-- In every run whose calls are proper the store is sound; a retention that keeps a version keeps the
latest one of each table, and a refused DDL leaves the store as it is. -/
theorem store_stays_sound (calls : List Call) (hproper : Meets History.step Proper ⟨[],[]⟩ calls) :
    let h := run History.step ⟨[],[]⟩ calls
    Sound h.store ∧
      (∀ key limit, Proper h (.retain limit) →
        ((h.store.applyStoreRetention limit).entries key).getLast? = (h.store.entries key).getLast?) ∧
      ∀ id ddl timestamp store e, h.store.recordDdlInStore id ddl timestamp = (store,.error e) →
        store = h.store := by
  intro h
  refine ⟨?_,fun key limit hl => ?_,fun id ddl timestamp store e he => ?_⟩
  · exact run_invariant_of_meets _ (P := fun h => Sound h.store) (fun h c hs hc => hs.step hc)
      (fun key => by simp [entries]) hproper
  · rw [Proper] at hl
    rw [entries_retention,List.getLast?_drop]
    split
    · rw [List.eq_nil_of_length_eq_zero (by omega : (h.store.entries key).length = 0)]
      rfl
    · rfl
  · have hr := record_recorded h.store id ddl timestamp
    rw [he] at hr
    cases hr
    rfl

theorem store_stays_sound_sample :
    Sound (run History.step ⟨[],[]⟩ [.record "0/10" createOrders 1,.record "0/20" addNote 2,.retain 1]).store :=
  (store_stays_sound [.record "0/10" createOrders 1,.record "0/20" addNote 2,.retain 1]
    ⟨⟨by decide,by decide⟩,⟨by decide,by decide⟩,Nat.one_pos,trivial⟩).1

/-- A table is created with one column name twice and a key that is no column. -/
theorem unsound_schema_stored :
    let id : ColumnDef := ⟨"id","bigint",false,[]⟩
    let given : TableSchema := ⟨"shop","orders",[id,id],["code"],1⟩
    let h := run History.step ⟨[],[]⟩ [.record "0/10" (.createTable given) 1]
    h.store.latestSchemaForTable "shop.orders" = some given ∧
      ¬(given.columns.map (·.name)).Nodup ∧ "code" ∉ given.columns.map (·.name) := by
  decide
end SchemaStore
end Rustcdc
