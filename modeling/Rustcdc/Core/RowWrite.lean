import Rustcdc.Core.Replica
import Rustcdc.Lib.Run

/-! The row write of an event, and the store of a sink that applies nothing else.  Against it stands
the table itself, changed by the statements the events report. -/
namespace Rustcdc
open Machine Function
open Option List

inductive NoRowWrite
  | schemaChange | missingPayload | missingPrimaryKey
  deriving DecidableEq

inductive RowWrite
  | replace (key : Option Json) (row : Json)
  | merge (key columns : Json) (unavailableColumns : List String)
  | delete (key : Json)
  | truncate
  | none (reason : NoRowWrite)

namespace Event
/-- The loop over the key columns; a column the image lacks ends it without a key. -/
def keyFields (object : List (String × Json)) : List String → List (String × Json) → Option (List (String × Json))
  | [], result => some result
  | key::keys, result =>
    (object.lookup key).bind fun value => keyFields object keys (Json.insertField key value result)

def primaryKeyValues (e : Event) : Option Json :=
  match e.primaryKey with
  | none => none
  | some [] => none
  | some keys =>
    let row := match e.op with
      | .delete => e.before
      | _ => e.after.or e.before
    (row.bind Json.asObject).bind fun object => (keyFields object keys []).map .obj

def rowWrite (e : Event) : RowWrite :=
  match e.op with
  | .truncate => .truncate
  | .schemaChange => .none .schemaChange
  | .delete =>
    match e.primaryKeyValues with
    | some key => .delete key
    | none => .none .missingPrimaryKey
  | .insert | .update | .read =>
    match e.after with
    | none => .none .missingPayload
    | some row =>
      if e.unavailableColumns.isEmpty then .replace e.primaryKeyValues row
      else match e.primaryKeyValues with
        | some key => .merge key row e.unavailableColumns
        | none => .none .missingPrimaryKey

variable {o : List (String × Json)} {k : List String}

lemma keyFields_spec (h : ∀ column ∈ k, (o.lookup column).isSome = true) (r : List (String × Json)) :
    ∃ fs, keyFields o k r = some fs ∧ (∀ column ∈ k, fs.lookup column = o.lookup column) ∧
      ∀ column, column ∉ k → fs.lookup column = r.lookup column := by
  induction k generalizing r with
  | nil => exact ⟨r,rfl,by simp,fun _ _ => rfl⟩
  | cons ke k ih =>
    obtain ⟨v,hv⟩ := isSome_iff_exists.mp (h ke mem_cons_self)
    obtain ⟨fs,hf,hi,ho⟩ := ih (fun column hc => h column (.tail _ hc)) (Json.insertField ke v r)
    refine ⟨fs,by rw [keyFields,hv,bind_some,hf],fun column hc => ?_, fun column hc => ?_⟩
    · by_cases hk : column ∈ k
      · exact hi column hk
      · cases (mem_cons.mp hc).resolve_right hk
        rw [ho _ hk,Json.lookup_insertField_self,hv]
    · rw [mem_cons,not_or] at hc
      rw [ho _ hc.2,Json.lookup_insertField_ne hc.1]

/-- An image that has every key column gives the key, with the image's values. -/
theorem primaryKeyValues_spec {e : Event} (row : Json) (hk : k ≠ []) (hp : e.primaryKey = some k)
    (hi : (match e.op with | .delete => e.before | _ => e.after.or e.before) = some row)
    (hr : ∀ c ∈ k, (row.get c).isSome = true) :
    ∃ ke, e.primaryKeyValues = some ke ∧ keyValues k ke.get = keyValues k row.get := by
  cases k with
  | nil => exact absurd rfl hk
  | cons f r =>
    cases ho : row.asObject with
    | none => simpa [Json.get,ho] using hr f mem_cons_self
    | some o =>
      simp only [Json.get,ho,bind_some] at hr
      obtain ⟨fs,hf,hv,-⟩ := keyFields_spec hr []
      refine ⟨.obj fs,?_,map_congr_left fun c hc => ?_⟩
      · rw [primaryKeyValues,hp]
        dsimp only
        rw [hi,bind_some,ho,bind_some,hf,map_some]
      · rw [Json.get,Json.get,ho,Json.asObject,bind_some,bind_some,hv c hc]

lemma finding_eq_nil {cd : Bool} {f m : String} : finding cd f m = [] ↔ cd = false := by
  cases cd <;> simp [finding]

/-- A valid event's row image has none of the columns it lists as unavailable. -/
theorem unavailable_absent {e : Event} {row : Json} {column : String} (hv : e.validate = [])
    (hr : e.after = some row) (hc : column ∈ e.unavailableColumns) :
    row.get column = none := by
  have hn : contradicts e.unavailableColumns e.after = false := by
    rw [validate,append_eq_nil_iff,append_eq_nil_iff,append_eq_nil_iff,append_eq_nil_iff] at hv
    exact finding_eq_nil.mp hv.1.1.1.2
  cases ho : row.asObject with
  | none => simp [Json.get,ho]
  | some o =>
    rw [contradicts,hr,bind_some,ho] at hn
    have ha := any_eq_false.mp hn column hc
    rw [Json.get,ho,bind_some,lookup_eq_none_iff]
    intro f hf
    have hne : f.1 ≠ column := by
      intro he
      exact ha (any_eq_true.mpr ⟨f,hf,by simp [he]⟩)
    simp [hne.symm]
end Event
/-- Rows under the values of their key columns. -/
abbrev KeyedRows := List Json → Option Cells

variable (keys : List String)

/-- A keyed sink: a merge updates the row that is there and writes the columns it is given only. -/
def RowWrite.write (store : KeyedRows) : RowWrite → KeyedRows
  | .replace (some key) row => update store (keyValues keys key.get) (some row.get)
  | .merge key columns _ =>
    update store (keyValues keys key.get)
      ((store (keyValues keys key.get)).map fun old column => (columns.get column).or (old column))
  | .delete key => update store (keyValues keys key.get) .none
  | .truncate => fun _ => .none
  | .replace .none _ => store
  | .none _ => store

def applyEvent (store : KeyedRows) (e : Event) : KeyedRows := RowWrite.write keys store e.rowWrite

/-- A change committed to the table. -/
inductive RowChange
  | insert (row : Cells)
  | update (old row : Cells)
  | delete (old : Cells)
  | truncate

def RowChange.commit (table : KeyedRows) : RowChange → KeyedRows
  | .insert row => Function.update table (keyValues keys row) (some row)
  | .update old row =>
    Function.update (Function.update table (keyValues keys old) none) (keyValues keys row) (some row)
  | .delete old => Function.update table (keyValues keys old) none
  | .truncate => fun _ => none

/-- The event is a valid report of the change to the table: the whole row of an insert; of an update
the columns the source can supply, those it cannot being as they were; of a delete the key at least. -/
def Delivers (table : KeyedRows) (change : RowChange) (e : Event) : Prop :=
  e.validate = [] ∧ e.primaryKey = some keys ∧
  match change with
  | .insert row => e.op = .insert ∧ e.unavailableColumns = [] ∧ e.after.map Json.get = some row ∧
      ∀ column ∈ keys, (row column).isSome = true
  | .update old row => e.op = .update ∧ table (keyValues keys old) = some old ∧
      (∀ column ∈ keys, (row column).isSome = true) ∧
      (∀ column, (row column).isSome = (old column).isSome) ∧ ∃ after, e.after = some after ∧
        ∀ column, if column ∈ e.unavailableColumns then row column = old column
          else after.get column = row column
  | .delete old => e.op = .delete ∧ ∃ before, e.before = some before ∧ ∀ column ∈ keys,
      (old column).isSome = true ∧ before.get column = old column
  | .truncate => e.op = .truncate

/-- An update leaves the key as it was, and its event has the key's columns. -/
def KeepsKey (change : RowChange) (e : Event) : Prop :=
  match change with
  | .update old row => keyValues keys row = keyValues keys old ∧ ∀ column ∈ keys, column ∉ e.unavailableColumns
  | _ => True

variable {keys} {table : KeyedRows} {change : RowChange} {e : Event}

lemma keyValues_congr {row row' : Cells} (h : ∀ c ∈ keys, row c = row' c) :
    keyValues keys row = keyValues keys row' :=
  map_congr_left fun c hc => by rw [h c hc]

lemma update_reproduced {old row : Cells} (hke : keys ≠ [])
    (h : Delivers keys table (.update old row) e) (hk : KeepsKey keys (.update old row) e) :
    applyEvent keys table e = RowChange.commit keys table (.update old row) := by
  obtain ⟨hva,hp,hop,ho,hpr,hs,a,ha,hco⟩ := h
  have hg : ∀ column ∈ keys, a.get column = row column := fun column hc => by
    simpa [hk.2 column hc] using hco column
  obtain ⟨ke,hkey,hv⟩ := Event.primaryKeyValues_spec a hke hp
    (by simp [hop,ha]) fun column hc => by rw [hg column hc,hpr column hc]
  rw [keyValues_congr hg,hk.1] at hv
  rw [RowChange.commit,hk.1,update_idem]
  by_cases hal : e.unavailableColumns = []
  · have hr : a.get = row := funext fun column => by simpa [hal] using hco column
    simp [applyEvent,Event.rowWrite,hop,ha,hal,hkey,RowWrite.write,hv,hr]
  · have hr : (fun column => (a.get column).or (old column)) = row := by
      funext column
      have hc := hco column
      split_ifs at hc with hm
      · rw [Event.unavailable_absent hva ha hm,none_or,hc]
      · rw [hc]
        cases hr : row column with
        | some v => rfl
        | none => simpa [hr] using (hs column).symm
    simp [applyEvent,Event.rowWrite,hop,ha,hal,hkey,RowWrite.write,hv,ho,hr]

lemma change_reproduced (hk : keys ≠ []) (h : Delivers keys table change e) (hke : KeepsKey keys change e) :
    applyEvent keys table e = change.commit keys table := by
  cases change with
  | insert row =>
    obtain ⟨-,hp,ho,hal,hr,hpr⟩ := h
    obtain ⟨a,ha,rfl⟩ := map_eq_some_iff.mp hr
    obtain ⟨ke,hkey,hv⟩ := Event.primaryKeyValues_spec a hk hp (by simp [ho,ha]) hpr
    simp [applyEvent,Event.rowWrite,ho,ha,hal,hkey,RowWrite.write,hv,RowChange.commit]
  | update old row => exact update_reproduced hk h hke
  | delete old =>
    obtain ⟨-,hp,ho,b,hb,hco⟩ := h
    obtain ⟨ke,hkey,hv⟩ := Event.primaryKeyValues_spec b hk hp (by simp [ho,hb]) fun c hc => by
        rw [(hco c hc).2,(hco c hc).1]
    rw [keyValues_congr fun c hc => (hco c hc).2] at hv
    simp only [applyEvent,Event.rowWrite,ho,hkey,RowWrite.write,hv,RowChange.commit]
  | truncate =>
    have ho : e.op = .truncate := h.2.2
    simp only [applyEvent,Event.rowWrite,ho,RowWrite.write,RowChange.commit]

/-- As long as no update changes its row's key, the store follows the table. -/
theorem row_writes_reproduce (hkeys : keys ≠ []) {changes : List (RowChange × Event)}
    (hdelivered : Meets (fun table change => change.1.commit keys table)
      (fun table change => Delivers keys table change.1 change.2) table changes)
    (hkept : ∀ change ∈ changes, KeepsKey keys change.1 change.2) :
    run (applyEvent keys) table (changes.map (·.2)) = run (RowChange.commit keys) table (changes.map (·.1)) := by
  induction changes generalizing table with
  | nil => rfl
  | cons change changes ih =>
    rw [map_cons,map_cons,run_cons,run_cons,change_reproduced hkeys hdelivered.1 (hkept change mem_cons_self)]
    exact ih hdelivered.2 fun later hl => hkept later (.tail _ hl)

/-- A report on the documents table, which holds one row at first. -/
def documentEvent (op : Operation) (before after : Option Json) (unavailable : List String) : Event where
  before := before
  after := after
  op := op
  source := ⟨"postgres","0/10",1⟩
  ts := 1
  schema := some "public"
  table := "documents"
  primaryKey := some ["id"]
  snapshot := none
  transaction := none
  envelopeVersion := eventEnvelopeVersion
  beforeIsKeyOnly := before.isSome
  unavailableColumns := unavailable
  beforeUnavailableColumns := []

def documentKey (id : String) : Json := .obj [("id",.str id)]
def document (id : String) : Json := .obj [("body",.str "text"),("id",.str id)]
def documents : KeyedRows := RowChange.commit ["id"] (fun _ => none) (.insert (document "a").get)
lemma document_columns (id id' c : String) : ((document id).get c).isSome = ((document id').get c).isSome := by
  cases hb : c == "body" <;> cases hi : c == "id" <;>
    simp [document,Json.get,Json.asObject,List.lookup,hb,hi]

/-- The row is updated while its body stays out of line, then deleted. -/
def documentChanges : List (RowChange × Event) := [(.update (document "a").get (document "a").get,
      documentEvent .update (some (documentKey "a")) (some (documentKey "a")) ["body"]),
    (.delete (document "a").get,documentEvent .delete (some (documentKey "a")) none [])]

theorem row_writes_reproduce_sample : run (applyEvent ["id"]) documents (documentChanges.map (·.2)) =
      run (RowChange.commit ["id"]) documents (documentChanges.map (·.1)) := by
  refine row_writes_reproduce (by decide)
    ⟨⟨by decide +kernel,rfl,rfl,rfl,by decide,fun _ => rfl,_,rfl,fun column => ?_⟩,
      ⟨by decide +kernel,rfl,rfl,_,rfl,by decide⟩,trivial⟩
    (by simp [documentChanges,KeepsKey,documentEvent])
  by_cases hb : column = "body"
  · simp [documentEvent,hb]
  · simp [documentEvent,documentKey,document,Json.get,Json.asObject,List.lookup,hb,beq_eq_false_iff_ne.mpr hb]

/-- An update that moves the row to another key leaves the store with a row the table has no more. -/
theorem key_change_leaves_row :
    let e := documentEvent .update (some (documentKey "a")) (some (document "b")) []
    let change := RowChange.update (document "a").get (document "b").get
    Delivers ["id"] documents change e ∧ applyEvent ["id"] documents e [.str "a"] = some (document "a").get ∧
      change.commit ["id"] documents [.str "a"] = none :=
  ⟨⟨by decide +kernel,rfl,rfl,rfl,by decide,document_columns _ _,_,rfl,fun _ => rfl⟩,rfl,rfl⟩
end Rustcdc
