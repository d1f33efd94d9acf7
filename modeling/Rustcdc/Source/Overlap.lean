import Rustcdc.Core.JsonText
import Rustcdc.Core.Replica
import Rustcdc.Lib.Coalesce

/-! The events a snapshot and the stream have in common, reduced to the last one of each row: what the
loop that does it computes, and when a consumer cannot tell. -/
namespace Rustcdc
open List Coalesce
section
/-- The key columns of a row and their values, as the fingerprint lists them. -/
def keyText (row : List (String × Json)) : List String → Option (List Char)
  | [] => some []
  | column::columns =>
    match row.lookup column with
    | none => none
    | some value => (keyText row columns).map fun rest =>
        '|'::(column.toList++ '='::(value.render++rest))

/-- The text of the connectors' fingerprints: the table without its schema, and the key. -/
def eventPkFingerprint (event : Event) : Option String :=
  match event.primaryKey with
  | none | some [] => none
  | some pkColumns =>
    match (event.after.or event.before).bind Json.asObject with
    | none => none
    | some row => (keyText row pkColumns).map fun key => String.ofList (event.table.toList++key)

structure Dedup where
  deduped : List Event
  lastIndexByPk : List (String × ℕ)
  duplicates : UInt64

variable (fingerprint : Event → Option String)

/-- One pass of the loop: an event takes the slot of the last one with its fingerprint. -/
def Dedup.push (d : Dedup) (event : Event) : Dedup :=
  match fingerprint event with
  | none => {d with deduped := d.deduped++[event]}
  | some pk =>
    match d.lastIndexByPk.lookup pk with
    | some index =>
      {d with deduped := d.deduped.set index event, duplicates := saturatingAdd d.duplicates 1}
    | none =>
      {d with
        lastIndexByPk := (pk,d.deduped.length)::d.lastIndexByPk
        deduped := d.deduped++[event]}

def dedupEvents (events : List Event) : List Event × UInt64 :=
  let d := events.foldl (Dedup.push fingerprint) ⟨[],[],0⟩
  (d.deduped,d.duplicates)

variable {fingerprint}

lemma getElem?_append_singleton {α : Type} {xs : List α} {i : ℕ} {x y : α} :
    (xs++[x])[i]? = some y ↔ xs[i]? = some y ∨ i = xs.length ∧ x = y := by
  rw [List.getElem?_append]
  by_cases hi : i < xs.length
  · rw [if_pos hi]
    exact ⟨.inl,fun h => h.resolve_right fun h => absurd h.1 (by omega)⟩
  · rw [if_neg hi,List.getElem?_eq_none (by omega : xs.length ≤ i),List.getElem?_singleton]
    by_cases hl : i = xs.length
    · simp [hl]
    · simp [hl,show i-xs.length ≠ 0 by omega]

def Dedup.Indexed (fingerprint : Event → Option String) (d : Dedup) : Prop :=
  ∀ pk index, d.lastIndexByPk.lookup pk = some index ↔ (d.deduped.map fingerprint)[index]? = some (some pk)

variable {d : Dedup} {event : Event}

lemma Dedup.Indexed.known (h : d.Indexed fingerprint) {pk : String} (hp : fingerprint event = some pk) :
    known fingerprint d.deduped event = (d.lastIndexByPk.lookup pk).isSome := by
  rw [Bool.eq_iff_iff,known_eq_true,Option.isSome_iff_exists,hp]
  constructor
  · rintro ⟨_,o,hm,ho⟩
    have hn : some pk ∈ d.deduped.map fingerprint := ho ▸ mem_map_of_mem hm
    obtain ⟨i,hi⟩ := mem_iff_getElem?.mp hn
    exact ⟨i,(h pk i).mpr hi⟩
  · rintro ⟨i,hl⟩
    have hn := mem_of_getElem? ((h pk i).mp hl)
    exact ⟨by simp,mem_map.mp hn⟩

lemma Dedup.Indexed.set_eq (h : d.Indexed fingerprint) {pk : String} {ind : ℕ}
    (hp : fingerprint event = some pk) (hl : d.lastIndexByPk.lookup pk = some ind) :
    d.deduped.set ind event =
      d.deduped.map fun other => if fingerprint other = fingerprint event then event else other := by
  apply ext_getElem?
  intro i
  rw [List.getElem?_set,List.getElem?_map]
  cases hi : d.deduped[i]? with
  | none =>
    have hle := List.getElem?_eq_none_iff.mp hi
    by_cases hin : ind = i
    · rw [if_pos hin,if_neg (by omega),Option.map_none]
    · rw [if_neg hin,Option.map_none]
  | some other =>
    have hlt : i < d.deduped.length := (List.getElem?_eq_some_iff.mp hi).1
    have hs : ind = i ↔ fingerprint other = fingerprint event := by
      have hn : (d.deduped.map fingerprint)[i]? = some (fingerprint other) := by
        rw [List.getElem?_map,hi,Option.map_some]
      rw [hp,← Option.some_inj (a := fingerprint other),← hn,← h pk i,hl,Option.some_inj]
    by_cases hin : ind = i
    · rw [if_pos hin,if_pos (hin ▸ hlt),Option.map_some,if_pos (hs.mp hin)]
    · rw [if_neg hin,Option.map_some,if_neg fun hsa => hin (hs.mpr hsa)]

/-- What the loop makes of an event: one without a fingerprint or with a new one goes to the end,
any other takes the slot of its fingerprint. -/
theorem Dedup.push_cases (d : Dedup) (event : Event) :
    fingerprint event = none ∧ d.push fingerprint event = {d with deduped := d.deduped++[event]} ∨
      ∃ pk, fingerprint event = some pk ∧ (d.lastIndexByPk.lookup pk = none ∧
          d.push fingerprint event = ⟨d.deduped++[event],(pk,d.deduped.length)::d.lastIndexByPk,d.duplicates⟩ ∨
        ∃ i, d.lastIndexByPk.lookup pk = some i ∧ d.push fingerprint event =
          ⟨d.deduped.set i event,d.lastIndexByPk,saturatingAdd d.duplicates 1⟩) := by
  unfold Dedup.push
  cases hp : fingerprint event with
  | none => exact .inl ⟨rfl,rfl⟩
  | some pk =>
    refine .inr ⟨pk,rfl,?_⟩
    dsimp only
    cases hl : d.lastIndexByPk.lookup pk with
    | none => exact .inl ⟨rfl,rfl⟩
    | some i => exact .inr ⟨i,rfl,rfl⟩

lemma Dedup.push_deduped (h : d.Indexed fingerprint) (event : Event) :
    (d.push fingerprint event).deduped = place fingerprint d.deduped event := by
  unfold place
  rcases d.push_cases event with ⟨hpk,hp⟩ | ⟨pk,hpk,⟨hl,hp⟩ | ⟨i,hl,hp⟩⟩
  · rw [hp,known_eq_false.mpr fun hs => absurd hpk hs,if_neg (by simp)]
  · rw [hp,h.known hpk,hl,if_neg (by simp)]
  · rw [hp,h.known hpk,hl,Option.isSome_some,if_pos rfl]
    exact h.set_eq hpk hl

lemma Dedup.Indexed.push (h : d.Indexed fingerprint) (event : Event) :
    (d.push fingerprint event).Indexed fingerprint := by
  intro n i
  rcases d.push_cases event with ⟨hpk,hp⟩ | ⟨pk,hpk,⟨hl,hp⟩ | ⟨slot,hl,hp⟩⟩
  · rw [hp,map_append,map_singleton,getElem?_append_singleton,hpk,h n i]
    simp
  · rw [hp,map_append,map_singleton,getElem?_append_singleton,hpk,lookup_cons,← h n i,length_map,Option.some_inj]
    by_cases hna : n = pk
    · subst hna
      simp [hl,eq_comm]
    · simp [beq_eq_false_iff_ne.mpr hna,Ne.symm hna]
  · have hn : (d.deduped.set slot event).map fingerprint = d.deduped.map fingerprint := by
      rw [h.set_eq hpk hl,map_map]
      refine map_congr_left fun o _ => ?_
      by_cases hs : fingerprint o = fingerprint event
      · rw [Function.comp_apply,if_pos hs,hs]
      · rw [Function.comp_apply,if_neg hs]
    rw [hp,hn,h n i]

lemma dedupEvents_eq (events : List Event) : (dedupEvents fingerprint events).1 = coalesce fingerprint events := by
  have hf : ∀ (events : List Event) (d : Dedup), d.Indexed fingerprint →
      (events.foldl (Dedup.push fingerprint) d).deduped = events.foldl (place fingerprint) d.deduped := by
    intro events
    induction events with
    | nil => exact fun d _ => rfl
    | cons event events ih =>
      intro d h
      rw [foldl_cons,foldl_cons,ih _ (h.push event),Dedup.push_deduped h]
  have hn : Dedup.Indexed fingerprint ⟨[],[],0⟩ := fun pk i => by simp
  have ha : events.filter (!known fingerprint [] ·) = events := filter_eq_self.mpr fun event _ => by simp [known]
  calc (dedupEvents fingerprint events).1 = events.foldl (place fingerprint) [] := hf events _ hn
    _ = coalesce fingerprint events := by
        rw [foldl_place,map_nil,nil_append,ha]
end
section
structure RowId where
  schema : Option String
  table : String
  key : List Json

/-- The rows a consumer keeps. -/
abbrev Replica := RowId → Option Cells

namespace Event
def rowKey (e : Event) : Cells → List Json := keyValues (e.primaryKey.getD [])

def isKeyedRow (e : Event) : Bool :=
  match e.op with
  | .truncate | .schemaChange => false
  | _ =>
    match e.primaryKey with
    | none | some [] => false
    | _ => true

/-- What a consumer does with an event.  `alter` is its own: what it makes of the rows of a table
whose schema changes, or that has no key. -/
def change (alter : Event → RowId → Option Cells → Option Cells) (e : Event) (replica : Replica) :
    Replica := fun id =>
  if e.schema = id.schema ∧ e.table = id.table then
    if e.op = .truncate then none
    else if e.isKeyedRow then (e.write e.rowKey id.key).getD (replica id)
    else alter e id (replica id)
  else replica id

variable (e : Event)

def imageKey : Option (List Json) := (e.after.or e.before).map fun row => e.rowKey row.get
def rowId : Option RowId := e.imageKey.map fun key => ⟨e.schema,e.table,key⟩

/-- The change of one row that leaves it under its key. -/
def keepsKey : Bool := e.isKeyedRow &&
  match e.op with
  | .insert | .read => e.after.isSome
  | .update => e.after.isSome && (e.before.isNone || e.beforeKey e.rowKey = e.afterKey e.rowKey)
  | .delete => e.before.isSome && e.after.isNone
  | .truncate | .schemaChange => false

/-- Two changes of one table, neither of which changes its row's key. -/
def inPlaceWith (x y : Event) : Bool :=
  x.schema = y.schema && x.table = y.table && x.primaryKey = y.primaryKey && x.keepsKey && y.keepsKey

/-- A change that does nothing to the row of another. -/
def leaves (m y : Event) : Bool := !(m.schema = y.schema && m.table = y.table) ||
    (m.isKeyedRow && m.beforeKey m.rowKey ≠ y.imageKey && m.afterKey m.rowKey ≠ y.imageKey)
end Event
variable (fingerprint : Event → Option String)

/-- The later events with the fingerprint of `x` change its row, and none between them touches it. -/
def apartFrom (x : Event) : List Event → List Event → Bool
  | _, [] => true
  | mid, y::ys =>
    (fingerprint x ≠ fingerprint y || fingerprint x = none ||
      (x.inPlaceWith y && mid.all fun m => fingerprint m = fingerprint y || m.leaves y)) &&
    apartFrom x (mid++[y]) ys

/-- Events with one fingerprint change one row and keep its key, and none between them touches it:
no truncation or schema change of the table, and no row moved to the key or away from it. -/
def rowsApart : List Event → Bool
  | [] => true
  | x::xs => apartFrom fingerprint x [] xs && rowsApart xs

variable {fingerprint} {x y : Event} {row : List (String × Json)} {text : List Char} {mid p : List Event}
  {cs : List String}

lemma apartFrom_split {fr : List Event} (h : apartFrom fingerprint x fr (mid++y::p) = true)
    (hn : fingerprint x = fingerprint y) (hs : fingerprint x ≠ none) :
    x.inPlaceWith y = true ∧ ∀ m ∈ fr++mid, fingerprint m = fingerprint y ∨ m.leaves y = true := by
  induction mid generalizing fr with
  | nil =>
    rw [nil_append,apartFrom,Bool.and_eq_true] at h
    simpa [hn,hn ▸ hs] using h.1
  | cons z mid ih =>
    rw [cons_append,apartFrom,Bool.and_eq_true] at h
    simpa using ih h.2

variable {events : List Event}

lemma rowsApart_split {pre : List Event} (h : rowsApart fingerprint events = true)
    (hs : events = pre++x::(mid++y::p)) (hn : fingerprint x = fingerprint y)
    (hso : fingerprint x ≠ none) :
    x.inPlaceWith y = true ∧ ∀ m ∈ mid, fingerprint m = fingerprint y ∨ m.leaves y = true := by
  subst hs
  induction pre with
  | nil =>
    rw [nil_append,rowsApart,Bool.and_eq_true] at h
    simpa using apartFrom_split h.1 hn hso
  | cons z pre ih =>
    rw [cons_append,rowsApart,Bool.and_eq_true] at h
    exact ih h.2

lemma keyText_stops (h : keyText row cs = some text) : Json.Stops text := by
  cases cs with
  | nil =>
    cases h
    simp [Json.Stops]
  | cons c =>
    rw [keyText] at h
    cases hv : row.lookup c with
    | none => simp [hv] at h
    | some =>
      rw [hv] at h
      obtain ⟨r,_,rfl⟩ := Option.map_eq_some_iff.mp h
      exact Json.stops_cons (by decide) _

lemma keyText_tells {row' : List (String × Json)} (h : keyText row cs = some text)
    (h' : keyText row' cs = some text) :
    ∀ column ∈ cs, row.lookup column = row'.lookup column := by
  induction cs generalizing text with
  | nil => simp
  | cons column cs ih =>
    rw [keyText] at h h'
    cases hv : row.lookup column with
    | none => simp [hv] at h
    | some v =>
      cases hv' : row'.lookup column with
      | none => simp [hv'] at h'
      | some v' =>
        rw [hv] at h
        rw [hv'] at h'
        obtain ⟨rest,hr,rfl⟩ := Option.map_eq_some_iff.mp h
        obtain ⟨rest',hr',ht⟩ := Option.map_eq_some_iff.mp h'
        have hva : v'.render++rest' = v.render++rest := by simpa using ht
        obtain ⟨rfl,rfl⟩ := Json.render_tells _ _ (keyText_stops hr') (keyText_stops hr) hva
        intro o ho
        rcases mem_cons.mp ho with rfl | ho
        · rw [hv,hv']
        · exact ih hr hr' o ho

lemma eventPkFingerprint_eq_some {e : Event} {text : String} (h : eventPkFingerprint e = some text) :
    ∃ cs im row key, e.primaryKey = some cs ∧ e.after.or e.before = some im ∧
      im.asObject = some row ∧ keyText row cs = some key ∧
      text = String.ofList (e.table.toList++key) := by
  unfold eventPkFingerprint at h
  split at h
  · simp at h
  · simp at h
  · rename_i cs _ hc
    split at h
    · simp at h
    · rename_i row hr
      obtain ⟨im,hi,ho⟩ := Option.bind_eq_some_iff.mp hr
      obtain ⟨key,hk,ht⟩ := Option.map_eq_some_iff.mp h
      exact ⟨cs,im,row,key,hc,hi,ho,hk,ht.symm⟩

lemma imageKey_of_fingerprint (hn : eventPkFingerprint x = eventPkFingerprint y)
    (hs : eventPkFingerprint x ≠ none) (hta : x.table = y.table)
    (hc : x.primaryKey = y.primaryKey) : x.imageKey = y.imageKey := by
  obtain ⟨text,hte⟩ := Option.ne_none_iff_exists'.mp hs
  obtain ⟨cs,im,row,key,hx,hi,hr,hk,rfl⟩ := eventPkFingerprint_eq_some hte
  obtain ⟨columns',im',row',key',hy,hi',hr',hk',he⟩ := eventPkFingerprint_eq_some (hn.symm.trans hte)
  obtain rfl : cs = columns' := Option.some.inj (hx.symm.trans (hc.trans hy))
  obtain rfl : key = key' := by
    have ht := congrArg String.toList he
    rw [String.toList_ofList,String.toList_ofList,hta] at ht
    exact append_cancel_left ht
  have hl := keyText_tells hk hk'
  have hv : cs.map (fun c => (im.get c).getD .null) = cs.map fun c => (im'.get c).getD .null := by
    refine map_congr_left fun c hco => ?_
    rw [Json.get,Json.get,hr,hr',Option.bind_some,Option.bind_some,hl c hco]
  rw [Event.imageKey,Event.imageKey,hi,hi',Option.map_some,Option.map_some]
  refine congrArg some ?_
  rw [Event.rowKey,Event.rowKey,hx,hy]
  exact hv

namespace Event
variable {e m x y : Event} {key : List Json}

/-- A change touches the row of its old key and that of its new one. -/
theorem write_touches (h : e.isKeyedRow = true) (hw : (e.write e.rowKey key).isSome = true) :
    e.beforeKey e.rowKey = some key ∨ e.afterKey e.rowKey = some key := by
  unfold Event.write at hw
  cases ho : e.op with
  | insert | read => exact .inr (putRow_isSome.mp (by simpa [ho] using hw))
  | update =>
    rw [ho,Option.isSome_or,Bool.or_eq_true] at hw
    exact hw.symm.imp removeRow_isSome.mp putRow_isSome.mp
  | delete => exact .inl (removeRow_isSome.mp (by simpa [ho] using hw))
  | truncate | schemaChange => simp [isKeyedRow,ho] at h

lemma keepsKey_write (h : e.keepsKey = true) : (e.write e.rowKey key).isSome = true ↔ e.imageKey = some key := by
  have ha : e.after.isSome = true → e.imageKey = e.afterKey e.rowKey := by
    intro hs
    obtain ⟨row,hr⟩ := Option.isSome_iff_exists.mp hs
    rw [imageKey,afterKey,hr,Option.some_or]
  unfold keepsKey at h
  unfold Event.write
  cases ho : e.op with
  | insert | read =>
    rw [ho,Bool.and_eq_true] at h
    rw [ha h.2]
    exact putRow_isSome
  | update =>
    simp only [ho,Bool.and_eq_true,Bool.or_eq_true,decide_eq_true_eq] at h
    rw [ha h.2.1]
    simp only [Option.isSome_or,Bool.or_eq_true,putRow_isSome,removeRow_isSome]
    constructor
    · rintro (hk | hk)
      · exact hk
      · rcases h.2.2 with hn | hsa
        · rw [beforeKey,Option.isNone_iff_eq_none.mp hn] at hk
          simp at hk
        · exact hsa.symm.trans hk
    · exact .inl
  | delete =>
    rw [ho,Bool.and_eq_true,Bool.and_eq_true,Option.isNone_iff_eq_none] at h
    rw [imageKey,h.2.2,Option.none_or]
    exact removeRow_isSome
  | truncate | schemaChange => simp [ho] at h

variable (a : Event → RowId → Option Cells → Option Cells)

lemma change_elsewhere {id : RowId} (h : ¬(e.schema = id.schema ∧ e.table = id.table))
    (replica : Replica) : e.change a replica id = replica id := if_neg h

lemma change_keyed (h : e.isKeyedRow = true) {id : RowId}
    (ht : e.schema = id.schema ∧ e.table = id.table) (replica : Replica) :
    e.change a replica id = (e.write e.rowKey id.key).getD (replica id) := by
  have ho : e.op ≠ .truncate := by
    rintro ho
    simp [isKeyedRow,ho] at h
  rw [change,if_pos ht,if_neg ho,if_pos h]

lemma isKeyedRow_of_keepsKey (h : e.keepsKey = true) : e.isKeyedRow = true := (Bool.and_eq_true_iff.mp h).1
lemma inPlaceWith_iff : x.inPlaceWith y = true ↔ x.schema = y.schema ∧ x.table = y.table ∧
    x.primaryKey = y.primaryKey ∧ x.keepsKey = true ∧ y.keepsKey = true := by
  simp [inPlaceWith,and_assoc]

/-- Of two changes of one row the later undoes the earlier. -/
theorem change_undoes (h : x.inPlaceWith y = true) (hk : x.imageKey = y.imageKey)
    (replica : Replica) : y.change a (x.change a replica) = y.change a replica := by
  obtain ⟨hs,ht,_,hx,hy⟩ := inPlaceWith_iff.mp h
  funext id
  by_cases hi : y.schema = id.schema ∧ y.table = id.table
  · rw [change_keyed a (isKeyedRow_of_keepsKey hy) hi,change_keyed a (isKeyedRow_of_keepsKey hy) hi,
      change_keyed a (isKeyedRow_of_keepsKey hx) (by rw [hs,ht]; exact hi)]
    cases hw : y.write y.rowKey id.key with
    | some => rfl
    | none =>
      have hn : ¬(x.write x.rowKey id.key).isSome = true := by
        rw [keepsKey_write hx,hk,← keepsKey_write hy,hw]
        simp
      rw [Option.getD_none,Option.getD_none,Option.not_isSome_iff_eq_none.mp hn,Option.getD_none]
  · rw [change_elsewhere a hi,change_elsewhere a hi,change_elsewhere a (by rw [hs,ht]; exact hi)]

/-- A change of a row passes over one that leaves the row alone. -/
theorem change_passes (hy : y.keepsKey = true) (h : m.leaves y = true) (replica : Replica) :
    y.change a (m.change a replica) = m.change a (y.change a replica) := by
  funext id
  by_cases hi : y.schema = id.schema ∧ y.table = id.table
  · by_cases hmi : m.schema = id.schema ∧ m.table = id.table
    · have hs : (m.schema = y.schema && m.table = y.table) = true := by
        simp [hi.1,hi.2,hmi.1,hmi.2]
      simp only [leaves,hs,Bool.not_true,Bool.false_or,Bool.and_eq_true,decide_eq_true_eq] at h
      obtain ⟨⟨hm,hb⟩,ha⟩ := h
      rw [change_keyed a (isKeyedRow_of_keepsKey hy) hi,change_keyed a hm hmi,
        change_keyed a hm hmi,change_keyed a (isKeyedRow_of_keepsKey hy) hi]
      cases hw : y.write y.rowKey id.key with
      | none => rfl
      | some =>
        have hk := (keepsKey_write hy).mp (by rw [hw]; rfl : (y.write y.rowKey id.key).isSome = true)
        have hn : m.write m.rowKey id.key = none := by
          by_contra hso
          rcases write_touches hm (Option.isSome_iff_ne_none.mpr hso) with ho | hne
          · exact hb (ho.trans hk.symm)
          · exact ha (hne.trans hk.symm)
        rw [hn]
        rfl
    · rw [change_elsewhere a hmi,change_keyed a (isKeyedRow_of_keepsKey hy) hi,
        change_keyed a (isKeyedRow_of_keepsKey hy) hi,change_elsewhere a hmi]
  · rw [change_elsewhere a hi]
    unfold change
    rw [if_neg hi]
end Event
variable {alter : Event → RowId → Option Cells → Option Cells}

lemma separable_of_rowsApart (h : rowsApart eventPkFingerprint events = true) :
    Coalesce.Separable eventPkFingerprint (Event.change alter) events := by
  intro pre x mid y p hs hn hso
  obtain ⟨hp,hl⟩ := rowsApart_split h hs hn hso
  obtain ⟨_,ht,hc,_,hy⟩ := Event.inPlaceWith_iff.mp hp
  refine ⟨Event.change_undoes alter hp (imageKey_of_fingerprint hn hso ht hc),?_⟩
  intro m hm ho
  exact Event.change_passes alter hy ((hl m hm).resolve_left ho)

def SameRow (x y : Event) : Prop := x.rowId = y.rowId ∧ x.rowId ≠ none

lemma thins_of_rowsApart {kept : List Event} (h : rowsApart eventPkFingerprint events = true)
    (hth : Coalesce.Thins (Coalesce.Replaced eventPkFingerprint) events kept) :
    Coalesce.Thins SameRow events kept := by
  refine hth.mono fun pre x p y hsp hy hr => ?_
  obtain ⟨mid,post',rfl⟩ := append_of_mem hy
  obtain ⟨hn,hso⟩ := hr
  obtain ⟨hp,_⟩ := rowsApart_split h hsp hn hso
  obtain ⟨hs,ht,hc,_,_⟩ := Event.inPlaceWith_iff.mp hp
  obtain ⟨text,hte⟩ := Option.ne_none_iff_exists'.mp hso
  obtain ⟨_,im,_,_,_,hi,_,_,_⟩ := eventPkFingerprint_eq_some hte
  refine ⟨?_,?_⟩
  · rw [Event.rowId,Event.rowId,hs,ht,imageKey_of_fingerprint hn hso ht hc]
  · simp [Event.rowId,Event.imageKey,hi]

/-- The events left of a sequence have its effect, and each one removed is superseded by a later one
of the same row. -/
structure Reduces (alter : Event → RowId → Option Cells → Option Cells) (events left : List Event) :
    Prop where
  effect : ∀ later replica, Coalesce.replay (Event.change alter) (left++later) replica =
    Coalesce.replay (Event.change alter) (events++later) replica
  removed : ∃ kept, Coalesce.Thins SameRow events kept ∧ left.Perm kept

lemma dedupEvents_reduces (h : rowsApart eventPkFingerprint events = true) (r : List Event) :
    Reduces alter (events++r) ((dedupEvents eventPkFingerprint events).1++r) := by
  refine ⟨fun lt replica => ?_,?_⟩
  · rw [dedupEvents_eq,append_assoc,append_assoc,replay_append,
      replay_coalesce (separable_of_rowsApart h),← replay_append]
  · obtain ⟨kept,ht,hp⟩ := @Coalesce.coalesce_thins _ _ _ eventPkFingerprint events
    refine ⟨kept++r,(thins_of_rowsApart h ht).append r,?_⟩
    rw [dedupEvents_eq]
    exact hp.append_right r
end
end Rustcdc
