import Rustcdc.Transform.Encryption

/-! Flattening of nested payloads: one entry for each leaf, under its joined path. -/
namespace Rustcdc
open List Json

structure UnwrapConfig where
  enabled : Bool := true
  maxDepth : UInt8 := 10
  flattenArrays : Bool := false

abbrev Fields := List (String × Json)

namespace UnwrapConfig
variable (config : UnwrapConfig)

mutual
def flattenInto (out : Fields) (key : String) (depth : UInt8) (value : Json) : Except Error (Fields) :=
  if depth > config.maxDepth then
    .error (.transformError ("unwrap depth exceeded max_depth="++natText config.maxDepth.toNat++" at key="++key))
  else match value with
    | .obj [] => .ok (insertField key (.obj []) out)
    | .obj (f::fields) =>
      flattenFields out (key++"."++·) (if depth = 255 then depth else depth+1) (f::fields)
    | .arr [] => .ok (insertField key (.arr []) out)
    | .arr (i::items) =>
      if config.flattenArrays then
        flattenItems out (key++"."++·) (if depth = 255 then depth else depth+1) 0 (i::items)
      else .ok (insertField key (.arr (i::items)) out)
    | value => .ok (insertField key value out)
/-- The loop over an object; `path` joins a field's name to the object's path. -/
def flattenFields (out : Fields) (path : String → String) (depth : UInt8) : Fields → Except Error (Fields)
  | [] => .ok out
  | (key,value)::fields =>
    (flattenInto out (path key) depth value).bind fun out => flattenFields out path depth fields
def flattenItems (out : Fields) (path : String → String) (depth : UInt8) (index : ℕ) :
    List Json → Except Error (Fields)
  | [] => .ok out
  | item::items =>
    (flattenInto out (path (natText index)) depth item).bind fun out =>
      flattenItems out path depth (index+1) items
end
def flattenPayload : Option Json → Except Error (Option Json)
  | some (.obj object) => (flattenFields config [] id 1 object).map (some ∘ Json.obj)
  | payload => .ok payload

def applyEvent (event : Event) : Except Error Event :=
  if !config.enabled then .ok event
  else do
    let before ← flattenPayload config event.before
    let after ← flattenPayload config event.after
    return {event with before,after}

mutual
/-- The values that are not taken apart, with their paths in the order of the walk. -/
def leaves (key : String) : Json → Fields
  | .obj (f::fields) => leafFields (key++"."++·) (f::fields)
  | .arr (i::items) =>
    if config.flattenArrays then leafItems (key++"."++·) 0 (i::items) else [(key,.arr (i::items))]
  | value => [(key,value)]
def leafFields (path : String → String) : Fields → Fields
  | [] => []
  | (key,value)::fields => leaves (path key) value++leafFields path fields
def leafItems (path : String → String) (index : ℕ) : List Json → Fields
  | [] => []
  | item::items => leaves (path (natText index)) item++leafItems path (index+1) items
end
def insertAll (pairs out : Fields) : Fields := pairs.foldl (fun out f => insertField f.1 f.2 out) out
lemma insertAll_append (ps qs out : Fields) : insertAll (ps++qs) out = insertAll qs (insertAll ps out) := foldl_append

mutual
/-- A walk that ends has inserted the leaves one after the other. -/
theorem flattenInto_inserts (v : Json) {out r : Fields} {k : String} {d : UInt8}
    (h : flattenInto config out k d v = .ok r) : r = insertAll (leaves config k v) out := by
  unfold flattenInto at h
  split at h
  · cases h
  · cases v with
    | obj fs =>
      cases fs with
      | nil =>
        cases h
        rfl
      | cons f fs => exact flattenFields_inserts (f::fs) h
    | arr xs =>
      cases xs with
      | nil =>
        cases h
        rfl
      | cons i xs =>
        rw [leaves]
        dsimp only at h
        split at h
        · rw [if_pos ‹_›]
          exact flattenItems_inserts (i::xs) h
        · rw [if_neg ‹_›]
          cases h
          rfl
    | _ =>
      cases h
      rfl
termination_by structural v
theorem flattenFields_inserts {path : String → String} {d : UInt8} : ∀ (fs : Fields)
    {out r : Fields}, flattenFields config out path d fs = .ok r → r = insertAll (leafFields config path fs) out
  | [], _, _, h => by
    cases h
    rfl
  | (key,v)::fs, out, _, h => by
    rw [flattenFields] at h
    obtain ⟨_,hm,hr⟩ := except_bind_ok h
    rw [leafFields,insertAll_append,← flattenInto_inserts v hm]
    exact flattenFields_inserts fs hr
termination_by structural fs => fs
theorem flattenItems_inserts {path : String → String} {d : UInt8} {i : ℕ} : ∀ (xs : List Json)
    {out r : Fields}, flattenItems config out path d i xs = .ok r → r = insertAll (leafItems config path i xs) out
  | [], _, _, h => by
    cases h
    rfl
  | v::xs, out, _, h => by
    rw [flattenItems] at h
    obtain ⟨_,hm,hr⟩ := except_bind_ok h
    rw [leafItems,insertAll_append,← flattenInto_inserts v hm]
    exact flattenItems_inserts xs hr
end
lemma insertField_perm {k : String} (v : Json) {fs : Fields} (hk : k ∉ fs.map Prod.fst) :
    insertField k v fs ~ (k,v)::fs := by
  induction fs with
  | nil => rfl
  | cons f fs ih =>
    rw [map_cons,mem_cons,not_or] at hk
    rw [insertField,if_neg hk.1]
    split
    · rfl
    · exact ((ih hk.2).cons f).trans (.swap _ _ _)

lemma insertAll_perm {ps : Fields} : ∀ {out : Fields},
    ((ps++out).map Prod.fst).Nodup → insertAll ps out ~ ps++out := by
  induction ps with
  | nil => exact fun _ => .rfl
  | cons p ps ih =>
    intro out hn
    have hp : p::ps++out ~ ps++p::out := perm_middle.symm
    have hi := @insertField_perm p.1 p.2 out fun hm =>
      (nodup_cons.mp hn).1 (map_append ▸ mem_append_right _ hm)
    have ha := hi.append_left ps
    exact (ih (((ha.trans hp.symm).map _).nodup_iff.mpr hn)).trans (ha.trans hp.symm)

/-- No two leaves of the payload have the same joined path. -/
def DistinctPaths (payload : Option Json) : Prop :=
  ∀ object, payload = some (.obj object) → ((leafFields config id object).map Prod.fst).Nodup

/-- `out` is the flat object with the leaves of the payload as its entries; a payload that is not an
object stays as it is. -/
def Flattened (payload out : Option Json) : Prop := out = payload ∧ (∀ object, payload ≠ some (.obj object)) ∨
  ∃ object fields, payload = some (.obj object) ∧ out = some (.obj fields) ∧
    fields ~ leafFields config id object ∧ (fields.map Prod.fst).Nodup

lemma flattenPayload_flattened {pl out : Option Json} (h : flattenPayload config pl = .ok out) :
    Flattened config pl out ↔ DistinctPaths config pl := by
  unfold flattenPayload at h
  split at h
  · rename_i object
    obtain ⟨fs,hf,rfl⟩ := except_map_ok h
    constructor
    · rintro (⟨_,hn⟩ | ⟨_,_,ho,_,hp,hn⟩)
      · exact absurd rfl (hn object)
      · cases ho
        rintro _ ⟨⟩
        exact (hp.map _).nodup_iff.mp hn
    · intro hd
      have hn := hd object rfl
      have hp : fs ~ leafFields config id object := by
        rw [flattenFields_inserts config object hf]
        simpa using @insertAll_perm _ [] (by simpa using hn)
      exact .inr ⟨object,fs,rfl,rfl,hp,(hp.map _).nodup_iff.mpr hn⟩
  · rename_i hn
    cases h
    exact iff_of_true (.inl ⟨rfl,hn⟩) fun _ ho => absurd ho (hn _)

mutual
/-- How many levels of a value are walked. -/
def levels : Json → ℕ
  | .obj (f::fields) => levelFields (f::fields)+1
  | .arr (i::items) => if config.flattenArrays then levelItems (i::items)+1 else 1
  | _ => 1
def levelFields : Fields → ℕ
  | [] => 0
  | (_,value)::fields => max (levels value) (levelFields fields)
def levelItems : List Json → ℕ
  | [] => 0
  | item::items => max (levels item) (levelItems items)
end
/-- A limit of 255 is none, since the depth stops there. -/
def Within (depth : ℕ) : Prop := config.maxDepth = 255 ∨ depth ≤ config.maxDepth.toNat+1

lemma within_max {d a b : ℕ} : Within config (d+max a b) ↔ Within config (d+a) ∧ Within config (d+b) := by
  have hx : d+max a b ≤ config.maxDepth.toNat+1 ↔ d+a ≤ config.maxDepth.toNat+1 ∧ d+b ≤ config.maxDepth.toNat+1 := by
    omega
  rw [Within,hx,or_and_left]
  rfl

lemma within_next {d : UInt8} (hd : ¬d > config.maxDepth) (n : ℕ) :
    Within config ((if d = 255 then d else d+1).toNat+n) ↔ Within config (d.toNat+(n+1)) := by
  have hm := config.maxDepth.toNat_lt
  have hle : d.toNat ≤ config.maxDepth.toNat := not_lt.mp hd
  unfold Within
  split_ifs with he
  · have hx : config.maxDepth = 255 := UInt8.toNat_inj.mp (by rw [he] at hle; change _ = 255; change 255 ≤ _ at hle; omega)
    simp [hx]
  · have hx : d.toNat ≠ 255 := fun h => he (UInt8.toNat_inj.mp h)
    rw [UInt8.toNat_add,Nat.mod_eq_of_lt (by change d.toNat+1 < 256; omega)]
    change _ ∨ d.toNat+1+n ≤ _ ↔ _
    rw [Nat.add_assoc,Nat.add_comm 1]

lemma within_here {d : UInt8} (hd : ¬d > config.maxDepth) : Within config (d.toNat+1) :=
  .inr (Nat.add_le_add_right (not_lt.mp hd) 1)

lemma bind_ok_iff {α β ε : Type} {x : Except ε α} {f : α → Except ε β} {p q : Prop}
    (hx : (∃ a, x = .ok a) ↔ p) (hf : ∀ a, (∃ b, f a = .ok b) ↔ q) : (∃ b, x.bind f = .ok b) ↔ p ∧ q := by
  constructor
  · rintro ⟨b,h⟩
    obtain ⟨a,ha,hb⟩ := except_bind_ok h
    exact ⟨hx.mp ⟨a,ha⟩,(hf a).mp ⟨b,hb⟩⟩
  · rintro ⟨hp,hq⟩
    obtain ⟨a,rfl⟩ := hx.mpr hp
    exact (hf a).mpr hq

mutual
/-- A walk ends without an error if nothing it meets is below the limit. -/
theorem flattenInto_ok (v : Json) {out : Fields} {k : String} {d : UInt8} :
    (∃ r, flattenInto config out k d v = .ok r) ↔ Within config (d.toNat+levels config v) := by
  unfold flattenInto
  by_cases hd : d > config.maxDepth
  · rw [if_pos hd]
    have hl : 0 < levels config v := by
      cases v with
      | obj fs => cases fs <;> simp [levels]
      | arr xs => cases xs <;> simp [levels]; split_ifs <;> simp
      | _ => simp [levels]
    have hm := config.maxDepth.toNat_lt
    have hm' := d.toNat_lt
    have hd' : config.maxDepth.toNat < d.toNat := hd
    refine iff_of_false (by simp) ?_
    rintro (hx | hx)
    · rw [hx] at hd'
      change 255 < _ at hd'
      omega
    · omega
  · rw [if_neg hd]
    have hh := within_here config hd
    cases v with
    | obj fs =>
      cases fs with
      | nil => exact iff_of_true ⟨_,rfl⟩ hh
      | cons f fs => exact (flattenFields_ok (f::fs) ((within_next config hd 0).mpr hh)).trans (within_next config hd _)
    | arr xs =>
      cases xs with
      | nil => exact iff_of_true ⟨_,rfl⟩ hh
      | cons i xs =>
        rw [levels]
        by_cases hf : config.flattenArrays = true
        · dsimp only
          rw [if_pos hf,if_pos hf]
          exact (flattenItems_ok (i::xs) ((within_next config hd 0).mpr hh)).trans (within_next config hd _)
        · dsimp only
          rw [if_neg hf,if_neg hf]
          exact iff_of_true ⟨_,rfl⟩ hh
    | _ => exact iff_of_true ⟨_,rfl⟩ hh
termination_by structural v
theorem flattenFields_ok {path : String → String} {d : UInt8} : ∀ (fs : Fields) {out : Fields}, Within config d.toNat →
    ((∃ r, flattenFields config out path d fs = .ok r) ↔ Within config (d.toNat+levelFields config fs))
  | [], _, hd => iff_of_true ⟨_,rfl⟩ hd
  | (key,v)::fs, _, hd => by
    rw [flattenFields,levelFields,within_max]
    exact bind_ok_iff (flattenInto_ok v) fun _ => flattenFields_ok fs hd
termination_by structural fs => fs
theorem flattenItems_ok {path : String → String} {d : UInt8} {i : ℕ} : ∀ (xs : List Json) {out : Fields},
    Within config d.toNat →
    ((∃ r, flattenItems config out path d i xs = .ok r) ↔ Within config (d.toNat+levelItems config xs))
  | [], _, hd => iff_of_true ⟨_,rfl⟩ hd
  | v::xs, _, hd => by
    rw [flattenItems,levelItems,within_max]
    exact bind_ok_iff (flattenInto_ok v) fun _ => flattenItems_ok xs hd
end
/-- No value of the payload is nested below the limit. -/
def Shallow (payload : Option Json) : Prop :=
  ∀ object, payload = some (.obj object) → Within config (levelFields config object+1)

lemma flattenPayload_ok {pl : Option Json} : (∃ out, flattenPayload config pl = .ok out) ↔ Shallow config pl := by
  unfold flattenPayload
  split
  · rename_i object
    have ho := @flattenFields_ok config id 1 object [] (.inr (Nat.le_add_left _ _))
    rw [Nat.add_comm] at ho
    constructor
    · rintro ⟨_,h⟩ _ ⟨⟩
      obtain ⟨fs,hf,_⟩ := except_map_ok h
      exact ho.mp ⟨fs,hf⟩
    · intro hs
      obtain ⟨fs,hf⟩ := ho.mpr (hs object rfl)
      exact ⟨_,by rw [hf]; rfl⟩
  · rename_i hn
    exact iff_of_true ⟨_,rfl⟩ fun _ ho => absurd ho (hn _)

/-- Nothing of the event is lost: an error, or both images flattened. -/
def Kept (event : Event) : Except Error Event → Prop
  | .error _ => True
  | .ok out => if config.enabled then Flattened config event.before out.before ∧
      Flattened config event.after out.after else out = event

theorem leaves_kept (e : Event) : Kept config e (applyEvent config e) ↔
    (config.enabled = true → Shallow config e.before → Shallow config e.after →
      DistinctPaths config e.before ∧ DistinctPaths config e.after) := by
  unfold applyEvent
  cases he : config.enabled with
  | false => exact iff_of_true (by simp [Kept,he]) (by simp)
  | true =>
    rw [← flattenPayload_ok,← flattenPayload_ok]
    cases hb : flattenPayload config e.before with
    | error _ => exact iff_of_true trivial (by simp)
    | ok b =>
      cases ha : flattenPayload config e.after with
      | error _ => exact iff_of_true trivial (by simp)
      | ok a =>
        rw [← flattenPayload_flattened config hb,← flattenPayload_flattened config ha]
        simp [Kept,he,bind,Except.bind,pure,Except.pure]

def document (fields : Fields) : Event := {salaryEvent "staff" "1" with after := some (.obj fields)}

/-- The literal key takes the place of the nested field. -/
theorem colliding_leaf_lost :
    applyEvent {} (document [("a",.obj [("b",.bool true)]),("a.b",.null)]) = .ok (document [("a.b",.null)]) ∧
    leafFields {} id [("a",.obj [("b",.bool true)]),("a.b",.null)] = [("a.b",.bool true),("a.b",.null)] := by
  decide
end UnwrapConfig
end Rustcdc
