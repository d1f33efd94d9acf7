import Rustcdc.Source.Incremental.Chunk

/-! Which row condition a requested table is read with.  The request's conditions are merged into the
configured ones by spelling, and the first entry of the map that names the table is taken. -/
namespace Rustcdc.Incremental
open List IncrementalSnapshotDriver

/-- The map lists each of its entries once, in an order of its own. -/
def Catalog.Iterates (catalog : Catalog) : Prop := ∀ conditions, (catalog.iteration conditions).Perm conditions
section
variable (describe : String → Except Error SnapshotTable) (tableRef : String) (spec : SnapshotTable)

/-- The spellings that are looked for: the reference of the request and the canonical name. -/
def spells (key : String) : Bool := eqIgnoreAsciiCase key tableRef || eqIgnoreAsciiCase key spec.key

/-- The key names the table in one of these spellings, or in any other the catalog knows. -/
def Names (key : String) : Prop :=
  spells tableRef spec key = true ∨ ∃ other, describe key = .ok other ∧ other.key = spec.key

/-- One key at most names the table, in a spelling that is looked for. -/
structure Unambiguous (conditions : List (String × String)) : Prop where
  spelled : ∀ entry ∈ conditions, Names describe tableRef spec entry.1 → spells tableRef spec entry.1 = true
  single : ∀ entry ∈ conditions, ∀ other ∈ conditions, Names describe tableRef spec entry.1 →
    Names describe tableRef spec other.1 → entry.1 = other.1

/-- The condition the request has for the table, else the configured one, else none. -/
structure InEffect (configured requested : List (String × String)) (condition : Option String) : Prop where
  ofRequest : ∀ entry ∈ requested, Names describe tableRef spec entry.1 → condition = some entry.2
  ofConfig : (∀ entry ∈ requested, ¬Names describe tableRef spec entry.1) →
    ∀ entry ∈ configured, Names describe tableRef spec entry.1 → condition = some entry.2
  neither : (∀ entry ∈ configured++requested, ¬Names describe tableRef spec entry.1) → condition = none
end
section
variable {cf requested cds : List (String × String)} {entry : String × String}

lemma mem_insertCondition {table cd : String} : (entry ∈ if cf.any (·.1 = table) then
        cf.map fun entry => if entry.1 = table then (table,cd) else entry
      else cf++[(table,cd)]) ↔
      entry = (table,cd) ∨ entry ∈ cf ∧ entry.1 ≠ table := by
  split_ifs with h
  · obtain ⟨f,hf,hk⟩ := any_eq_true.mp h
    rw [mem_map]
    constructor
    · rintro ⟨e,he,rfl⟩
      by_cases hk : e.1 = table <;> simp [hk,he]
    · rintro (rfl | ⟨he,hn⟩)
      · exact ⟨f,hf,if_pos (of_decide_eq_true hk)⟩
      · exact ⟨entry,he,if_neg hn⟩
  · rw [mem_append,mem_singleton,or_comm]
    refine or_congr_right ⟨fun he => ⟨he,fun hk => h ?_⟩,And.left⟩
    exact any_eq_true.mpr ⟨entry,he,decide_eq_true hk⟩

lemma mem_extendConditions (hm : (requested.map (·.1)).Nodup) : entry ∈ extendConditions cf requested ↔
      entry ∈ requested ∨ entry ∈ cf ∧ entry.1 ∉ requested.map (·.1) := by
  induction requested generalizing cf with
  | nil => simp [extendConditions]
  | cons f r ih =>
    obtain ⟨table,cd⟩ := f
    rw [map_cons,nodup_cons] at hm
    rw [extendConditions,ih hm.2,mem_insertCondition,map_cons,mem_cons,mem_cons,not_or]
    constructor
    · rintro (hr | ⟨rfl | ⟨hc,hn⟩,hr⟩)
      · exact .inl (.inr hr)
      · exact .inl (.inl rfl)
      · exact .inr ⟨hc,hn,hr⟩
    · rintro ((rfl | hr) | ⟨hc,hn,hr⟩)
      · exact .inr ⟨.inl rfl,hm.1⟩
      · exact .inl hr
      · exact .inr ⟨.inr ⟨hc,hn⟩,hr⟩

variable {c : Catalog} {d : String → Except Error SnapshotTable} {tr : String} {s : SnapshotTable}

lemma lookupCondition_eq (hi : c.Iterates) (he : entry ∈ cds) (hs : spells tr s entry.1 = true)
    (hon : ∀ o ∈ cds, spells tr s o.1 = true → o.2 = entry.2) :
    lookupCondition c cds tr s = some entry.2 := by
  change ((c.iteration cds).find? fun entry => spells tr s entry.1).map (·.2) = _
  cases hf : (c.iteration cds).find? fun entry => spells tr s entry.1 with
  | none => exact absurd hs (find?_eq_none.mp hf entry ((hi cds).mem_iff.mpr he))
  | some o =>
    have ho := find?_some hf
    exact congrArg some (hon o ((hi cds).mem_iff.mp (mem_of_find?_eq_some hf)) ho)

lemma lookupCondition_none (hi : c.Iterates) (hn : ∀ entry ∈ cds, ¬spells tr s entry.1 = true) :
    lookupCondition c cds tr s = none := by
  have hf : (c.iteration cds).find? (fun entry => spells tr s entry.1) = none :=
    find?_eq_none.mpr fun entry he => hn entry ((hi cds).mem_iff.mp he)
  exact congrArg (Option.map (·.2)) hf

variable (hconf : (cf.map (·.1)).Nodup) (hreq : (requested.map (·.1)).Nodup)
include hconf hreq

/-- The entries of the merged map that name the table are one. -/
theorem Unambiguous.merged (h : Unambiguous d tr s (cf++requested)) {o : String × String}
    (he : entry ∈ extendConditions cf requested)
    (ho : o ∈ extendConditions cf requested)
    (hne : Names d tr s entry.1) (hno : Names d tr s o.1) :
    o = entry := by
  rw [mem_extendConditions hreq] at he ho
  have ha : ∀ {e}, e ∈ requested ∨ e ∈ cf ∧ e.1 ∉ requested.map (·.1) →
      e ∈ cf++requested := fun h => mem_append.mpr (h.symm.imp And.left id)
  have hk := h.single _ (ha he) _ (ha ho) hne hno
  rcases he with he | ⟨he,hn⟩ <;> rcases ho with ho | ⟨ho,hn'⟩
  · exact (inj_on_of_nodup_map hreq he ho hk).symm
  · exact absurd (hk ▸ mem_map_of_mem he) hn'
  · exact absurd (hk ▸ mem_map_of_mem ho) hn
  · exact (inj_on_of_nodup_map hconf he ho hk).symm

lemma lookupCondition_inEffect (hi : c.Iterates) (h : Unambiguous d tr s (cf++requested)) :
    InEffect d tr s cf requested (lookupCondition c (extendConditions cf requested) tr s) := by
  have hf : ∀ entry ∈ extendConditions cf requested, Names d tr s entry.1 → entry ∈ cf++requested →
      lookupCondition c (extendConditions cf requested) tr s = some entry.2 :=
    fun entry he hn hm => lookupCondition_eq hi he (h.spelled entry hm hn) fun o ho hs =>
      congrArg Prod.snd (h.merged hconf hreq he ho hn (.inl hs))
  refine ⟨fun entry he hn => ?_,fun hno entry he hn => ?_,fun hno => ?_⟩
  · exact hf entry ((mem_extendConditions hreq).mpr (.inl he)) hn (mem_append_right _ he)
  · refine hf entry ((mem_extendConditions hreq).mpr (.inr ⟨he,fun hk => ?_⟩)) hn (mem_append_left _ he)
    obtain ⟨o,ho,hsa⟩ := mem_map.mp hk
    exact hno o ho (hsa ▸ hn)
  · refine lookupCondition_none hi fun entry he hs => hno entry ?_ (.inl hs)
    rcases (mem_extendConditions hreq).mp he with hr | hc
    · exact mem_append_right _ hr
    · exact mem_append_left _ hc.1

omit hconf hreq in
lemma InEffect.unique {a b : Option String} (ha : InEffect d tr s cf requested a)
    (hb : InEffect d tr s cf requested b) : a = b := by
  by_cases hr : ∃ entry ∈ requested, Names d tr s entry.1
  · obtain ⟨entry,he,hn⟩ := hr
    rw [ha.ofRequest entry he hn,hb.ofRequest entry he hn]
  · have hno : ∀ entry ∈ requested, ¬Names d tr s entry.1 := fun entry he hn => hr ⟨entry,he,hn⟩
    by_cases hc : ∃ entry ∈ cf, Names d tr s entry.1
    · obtain ⟨entry,he,hn⟩ := hc
      rw [ha.ofConfig hno entry he hn,hb.ofConfig hno entry he hn]
    · have hal : ∀ entry ∈ cf++requested, ¬Names d tr s entry.1 :=
        fun entry he hn => (mem_append.mp he).elim (fun h => hc ⟨entry,h,hn⟩) fun h => hr ⟨entry,h,hn⟩
      rw [ha.neither hal,hb.neither hal]
end
section
variable {ts : List TableProgress} {table : TableProgress} {specs : List SnapshotTable}
  {spec : SnapshotTable} {key tableRef : String} {catalog : Catalog} {refs : List String}
  {cds : List (String × String)}

/-- The entry of a table: the first under its name. -/
def entryOf (tables : List TableProgress) (key : String) : Option TableProgress := tables.find? (·.key = key)

lemma enqueueTable_cons {first : TableProgress} : (enqueueTable (first::ts) spec).1 =
    if first.key = spec.key then if first.isComplete then ⟨spec,none,false,0,0⟩::ts else first::ts
    else first::(enqueueTable ts spec).1 := by
  unfold enqueueTable
  rw [findIdx?_cons]
  by_cases hk : first.key = spec.key
  · cases hc : first.isComplete <;> simp [hk,hc]
  · cases hf : ts.findIdx? (·.key = spec.key) with
    | none => simp [hk]
    | some index => cases hc : (ts[index]?.map (·.isComplete)).getD false <;> simp [hk,hc]

/-- A table in progress keeps its entry. -/
lemma entryOf_enqueueTable (h : entryOf ts key = some table) (hc : table.isComplete = false) :
    entryOf (enqueueTable ts spec).1 key = some table := by
  unfold entryOf at h ⊢
  induction ts with
  | nil => cases h
  | cons first ts ih =>
    rw [find?_cons] at h
    rw [enqueueTable_cons]
    by_cases hk : first.key = key
    · obtain rfl : first = table := by simpa [hk] using h
      split_ifs with hs
      · cases hc.symm.trans ‹_›
      · simp [hk]
      · simp [hk]
    · have hr : ts.find? (·.key = key) = some table := by simpa [hk] using h
      split_ifs with hs
      · have hn : (⟨spec,none,false,0,0⟩ : TableProgress).key ≠ key := fun he => hk (hs.trans he)
        simp [hn,hr]
      · simp [hk,hr]
      · simp [hk,ih hr]

/-- A table that is not in progress starts over with the requested specification. -/
lemma entryOf_enqueueTable_self (h : ∀ table, entryOf ts spec.key = some table → table.isComplete = true) :
    entryOf (enqueueTable ts spec).1 spec.key = some ⟨spec,none,false,0,0⟩ := by
  have hn : (⟨spec,none,false,0,0⟩ : TableProgress).key = spec.key := rfl
  unfold entryOf at h ⊢
  induction ts with
  | nil => simp [enqueueTable,hn]
  | cons first ts ih =>
    rw [enqueueTable_cons]
    by_cases hk : first.key = spec.key
    · have hc : first.isComplete = true := h first (by simp [hk])
      simp [hk,hc,hn]
    · simp only [find?_cons,hk,decide_false] at h
      simp [hk,ih h]

lemma entryOf_enqueueTable_of_ne (h : spec.key ≠ key) : entryOf (enqueueTable ts spec).1 key = entryOf ts key := by
  have hn : (⟨spec,none,false,0,0⟩ : TableProgress).key ≠ key := h
  unfold entryOf
  induction ts with
  | nil => simp [enqueueTable,hn]
  | cons first ts ih =>
    rw [enqueueTable_cons]
    by_cases hs : first.key = spec.key
    · have hk : first.key ≠ key := fun he => h (hs.symm.trans he)
      split_ifs <;> simp [hn,hk]
    · rw [if_neg hs,find?_cons,find?_cons,ih]

lemma entryOf_enqueueAll (h : entryOf ts key = some table) (hc : table.isComplete = false) :
    entryOf (enqueueAll ts specs).1 key = some table := by
  induction specs generalizing ts with
  | nil => exact h
  | cons spec specs ih => exact ih (entryOf_enqueueTable h hc)

lemma entryOf_enqueueAll_self (h : ∀ table, entryOf ts key = some table → table.isComplete = true)
    (hs : ∃ spec ∈ specs, spec.key = key) :
    ∃ spec ∈ specs, spec.key = key ∧ entryOf (enqueueAll ts specs).1 key = some ⟨spec,none,false,0,0⟩ := by
  induction specs generalizing ts with
  | nil => simp at hs
  | cons first specs ih =>
    by_cases hk : first.key = key
    · -- the later references find it in progress
      have he : entryOf (enqueueTable ts first).1 key = some ⟨first,none,false,0,0⟩ := by
        rw [← hk] at h ⊢
        exact entryOf_enqueueTable_self h
      exact ⟨first,mem_cons_self,hk,
        show entryOf (enqueueAll (enqueueTable ts first).1 specs).1 key = _ from entryOf_enqueueAll he rfl⟩
    · obtain ⟨spec,hm,he⟩ := hs
      have hr : spec ∈ specs := (mem_cons.mp hm).resolve_left fun hf => hk (hf ▸ he)
      obtain ⟨found,hf,hfk,hfe⟩ := ih (by rwa [entryOf_enqueueTable_of_ne hk]) ⟨spec,hr,he⟩
      exact ⟨found,mem_cons_of_mem _ hf,hfk,hfe⟩

lemma describeWithCondition_eq (h : describeWithCondition catalog tableRef cds = .ok spec) :
    ∃ de, catalog.describeTable tableRef = .ok de ∧
      spec = {de with condition := lookupCondition catalog cds tableRef de} := by
  unfold describeWithCondition at h
  cases hd : catalog.describeTable tableRef with
  | error => simp [hd] at h
  | ok de =>
    rw [hd] at h
    exact ⟨de,rfl,(Except.ok.inj h).symm⟩

/-- The tables of a request and what they are resolved to, in both directions. -/
theorem resolveTables_ok (h : resolveTables catalog cds refs = .ok specs) :
    (∀ tableRef ∈ refs, ∃ spec ∈ specs, describeWithCondition catalog tableRef cds = .ok spec) ∧
      ∀ spec ∈ specs, ∃ tableRef ∈ refs, describeWithCondition catalog tableRef cds = .ok spec := by
  induction refs generalizing specs with
  | nil =>
    cases h
    simp
  | cons tableRef refs ih =>
    rw [resolveTables] at h
    split at h
    · cases h
    · rename_i spec hd
      split_ifs at h
      split at h
      · cases h
      · rename_i rest hr
        cases h
        obtain ⟨hre,hs⟩ := ih hr
        refine ⟨forall_mem_cons.mpr ⟨⟨spec,mem_cons_self,hd⟩,fun o ho => ?_⟩,
          forall_mem_cons.mpr ⟨⟨tableRef,mem_cons_self,hd⟩,fun o ho => ?_⟩⟩
        · obtain ⟨found,hf,hdf⟩ := hre o ho
          exact ⟨found,mem_cons_of_mem _ hf,hdf⟩
        · obtain ⟨found,hf,hdf⟩ := hs o ho
          exact ⟨found,mem_cons_of_mem _ hf,hdf⟩

lemma resolveTables_congr {catalog' : Catalog} (h : ∀ tableRef ∈ refs,
      describeWithCondition catalog tableRef cds = describeWithCondition catalog' tableRef cds) :
    resolveTables catalog cds refs = resolveTables catalog' cds refs := by
  induction refs with
  | nil => rfl
  | cons tableRef refs ih =>
    rw [resolveTables,resolveTables,h tableRef mem_cons_self,ih fun o ho => h o (mem_cons_of_mem _ ho)]

variable {P H : Type} {d : IncrementalSnapshotDriver P H} {request : SnapshotRequest}

lemma enqueueTables_ok {n : ℕ} (h : (d.enqueueTables catalog request).2 = .ok n) :
    ∃ specs, resolveTables catalog (extendConditions d.tableConditions request.conditions) request.tables =
      .ok specs ∧ (d.enqueueTables catalog request).1.tables = (enqueueAll d.tables specs).1 := by
  unfold enqueueTables at h ⊢
  dsimp only at h ⊢
  split at h
  · cases h
  · rename_i specs hs
    refine ⟨specs,hs,?_⟩
    split_ifs <;> rfl

/-- A request whose tables are each named by one condition at most reads each of them, new or finished
before, with the condition it carries for it, or the configured one, in every order of the map.  A table
in progress stays as it is. -/
theorem requested_condition_wins (d : IncrementalSnapshotDriver P H)
    (hiterates : catalog.Iterates) (hconfigured : (d.tableConditions.map (·.1)).Nodup)
    (hrequested : (request.conditions.map (·.1)).Nodup)
    (hone : ∀ tableRef ∈ request.tables, ∀ spec, catalog.describeTable tableRef = .ok spec →
      Unambiguous catalog.describeTable tableRef spec (d.tableConditions++request.conditions)) :
    (∀ count, (d.enqueueTables catalog request).2 = .ok count →
      ∀ tableRef ∈ request.tables, ∃ spec, catalog.describeTable tableRef = .ok spec ∧
        (∀ table, entryOf d.tables spec.key = some table → table.isComplete = false →
          entryOf (d.enqueueTables catalog request).1.tables spec.key = some table) ∧
        ((∀ table, entryOf d.tables spec.key = some table → table.isComplete = true) →
          ∃ other ∈ request.tables, ∃ found condition, catalog.describeTable other = .ok found ∧
            found.key = spec.key ∧
            InEffect catalog.describeTable other found d.tableConditions request.conditions condition ∧
            entryOf (d.enqueueTables catalog request).1.tables spec.key =
              some ⟨{found with condition := condition},none,false,0,0⟩)) ∧
    ∀ iteration, Catalog.Iterates ⟨catalog.describeTable,iteration⟩ →
      d.enqueueTables ⟨catalog.describeTable,iteration⟩ request = d.enqueueTables catalog request := by
  refine ⟨fun count ho => ?_,fun iteration hi => ?_⟩
  · obtain ⟨specs,hr,ht⟩ := enqueueTables_ok ho
    obtain ⟨hre,hsp⟩ := resolveTables_ok hr
    rw [ht]
    intro tableRef hm
    obtain ⟨spec,hs,hd⟩ := hre tableRef hm
    obtain ⟨described,hde,rfl⟩ := describeWithCondition_eq hd
    refine ⟨described,hde,fun table he hc => entryOf_enqueueAll he hc,fun hc => ?_⟩
    obtain ⟨o,ho,hk,he⟩ := entryOf_enqueueAll_self hc ⟨_,hs,rfl⟩
    obtain ⟨other,hot,hdo⟩ := hsp o ho
    obtain ⟨found,hf,rfl⟩ := describeWithCondition_eq hdo
    exact ⟨other,hot,found,_,hf,hk,lookupCondition_inEffect hconfigured hrequested hiterates (hone _ hot _ hf),he⟩
  · have hr : resolveTables ⟨catalog.describeTable,iteration⟩ (extendConditions d.tableConditions
        request.conditions) request.tables = resolveTables catalog (extendConditions d.tableConditions
        request.conditions) request.tables := by
      refine resolveTables_congr fun tableRef ht => ?_
      unfold describeWithCondition
      cases hd : catalog.describeTable tableRef with
      | error => rfl
      | ok spec =>
        have h := hone tableRef ht spec hd
        have he := (lookupCondition_inEffect hconfigured hrequested hi h).unique
          (lookupCondition_inEffect hconfigured hrequested hiterates h)
        dsimp only
        rw [he]
    unfold enqueueTables
    dsimp only
    rw [hr]

/-- A driver with a condition configured for the orders, under their canonical name. -/
def ordersDriver : IncrementalSnapshotDriver ℕ ScriptedStream :=
  {DriverTrace.usersDriver 2 with tableConditions := [("public.orders","region = 1")]}

/-- The same driver after a first snapshot of the users, read with no condition. -/
def finishedDriver : IncrementalSnapshotDriver ℕ ScriptedStream :=
  {ordersDriver with tables := ordersDriver.tables.map ({· with isComplete := true})}

/-- A finished table that is requested again, the condition under another spelling. -/
def usersAgain : SnapshotRequest := ⟨["users"],[("Public.Users","tenant_id = 42")]⟩

theorem requested_condition_wins_sample :
    entryOf (finishedDriver.enqueueTables DriverTrace.userCatalog usersAgain).1.tables "public.users" =
        some ⟨⟨"public","users","public.users",["id"],some "tenant_id = 42"⟩,none,false,0,0⟩ ∧
      finishedDriver.enqueueTables ⟨DriverTrace.userCatalog.describeTable,reverse⟩ usersAgain =
        finishedDriver.enqueueTables DriverTrace.userCatalog usersAgain := by
  have hit : DriverTrace.userCatalog.Iterates := fun _ => .refl _
  suffices hone : ∀ tableRef ∈ usersAgain.tables, ∀ spec,
      DriverTrace.userCatalog.describeTable tableRef = .ok spec →
      Unambiguous DriverTrace.userCatalog.describeTable tableRef spec
        (finishedDriver.tableConditions++usersAgain.conditions) by
    have h := requested_condition_wins finishedDriver hit (by decide) (by decide) hone
    refine ⟨?_,h.2 _ fun _ => reverse_perm _⟩
    obtain ⟨spec,hd,_,hf⟩ := h.1 1 (by decide) "users" mem_cons_self
    cases hd
    obtain ⟨other,ho,found,condition,hde,_,hin,he⟩ := hf (by decide)
    cases mem_singleton.mp ho
    cases hde
    rw [hin.ofRequest _ mem_cons_self (.inl (by decide))] at he
    exact he
  intro tableRef hm spec hd
  cases mem_singleton.mp hm
  cases hd
  have hno : ¬Names DriverTrace.userCatalog.describeTable "users" ⟨"public","users","public.users",["id"],
      none⟩ "public.orders" := by
    rintro (h | ⟨_,⟨⟩,h⟩) <;> revert h <;> decide
  constructor
  · intro entry he hn
    rcases mem_cons.mp he with rfl | he
    · exact absurd hn hno
    · cases mem_singleton.mp he
      decide
  · intro entry he other ho hn hn'
    rcases mem_cons.mp he with rfl | he
    · exact absurd hn hno
    · rcases mem_cons.mp ho with rfl | ho
      · exact absurd hn' hno
      · rw [mem_singleton.mp he,mem_singleton.mp ho]

/-- A request's condition under the bare name does not replace the configured one: which of the two the
table is read with is left to the order of the map. -/
theorem spelling_decides_condition :
    let request : SnapshotRequest := ⟨["orders"],[("orders","tenant_id = 42")]⟩
    let describe := DriverTrace.userCatalog.describeTable
    (ordersDriver.enqueueTables ⟨describe,id⟩ request).1.tables.map (·.spec.condition) = [none,some "region = 1"] ∧
      (ordersDriver.enqueueTables ⟨describe,reverse⟩ request).1.tables.map (·.spec.condition) =
        [none,some "tenant_id = 42"] := by
  decide
end
end Rustcdc.Incremental
