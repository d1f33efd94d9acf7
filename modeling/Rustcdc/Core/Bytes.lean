import Rustcdc.Core.JsonText

/-! The bytes a value is hashed as, and when they tell two values apart. -/
namespace Rustcdc
open List Framing

abbrev Bytes := List UInt8

/-- `to_le_bytes` of a word of `width` bytes. -/
def leBytes : ℕ → ℕ → Bytes
  | 0, _ => []
  | width+1, value => UInt8.ofNat value::leBytes width (value/256)

@[simp] lemma leBytes_length (width v : ℕ) : (leBytes width v).length = width := by
  induction width generalizing v with
  | zero => rfl
  | succ width ih => simp [leBytes,ih]

lemma leBytes_tellsApart (w : ℕ) {a b : ℕ} (ha : a < 256^w) (hb : b < 256^w) : TellsApart (leBytes w) a b := by
  refine .of_length (by simp) fun h => ?_
  induction w generalizing a b with
  | zero => omega
  | succ w ih =>
    obtain ⟨hl,hh⟩ := List.cons.inj h
    have hl : a%256 = b%256 := by simpa using congrArg UInt8.toNat hl
    have hh := ih (by omega) (by omega) hh
    omega

lemma word_tellsApart {a b : ℕ} (ha : a < 2^64) (hb : b < 2^64) : TellsApart (leBytes 8) a b :=
  leBytes_tellsApart 8 (by simpa using ha) (by simpa using hb)

/-- `str::as_bytes`. -/
def utf8 (cs : List Char) : Bytes := cs.flatMap String.utf8EncodeChar

lemma utf8EncodeChar_tellsApart (c d : Char) : TellsApart String.utf8EncodeChar c d := by
  intro r s h
  have hc := @ByteArray.utf8DecodeChar?_utf8EncodeChar_append r.toByteArray c
  have hd := @ByteArray.utf8DecodeChar?_utf8EncodeChar_append s.toByteArray d
  rw [← toByteArray_append] at hc hd
  rw [h,hd] at hc
  cases hc
  exact ⟨rfl,append_cancel_left h⟩

lemma utf8EncodeChar_head (c : Char) : ∃ b bs, String.utf8EncodeChar c = b::bs ∧ b ≠ 0xff := by
  obtain ⟨b,bs,h⟩ := exists_cons_of_ne_nil (String.utf8EncodeChar_ne_nil (c := c))
  have hf : ∀ hi : 0 < (String.utf8EncodeChar c).length, (String.utf8EncodeChar c)[0].IsUTF8FirstByte := fun hi =>
    UInt8.isUTF8FirstByte_getElem_utf8EncodeChar.mpr rfl
  simp only [h,getElem_cons_zero] at hf
  refine ⟨b,bs,h,?_⟩
  rintro rfl
  nomatch (hf (by simp))

lemma utf8_injective : Function.Injective utf8 := flatMap_injective utf8EncodeChar_tellsApart fun c => by
    obtain ⟨b,bs,h,_⟩ := utf8EncodeChar_head c
    simp [h]

/-- A string as `Hash for str` feeds it. -/
def hashStr (s : String) : Bytes := utf8 s.toList++[0xff]

lemma hashStr_tellsApart (s t : String) : TellsApart hashStr s t := by
  intro r r' h
  obtain ⟨hl,hr⟩ := TellsApart.terminated utf8EncodeChar_tellsApart utf8EncodeChar_head s.toList t.toList r r' h
  exact ⟨String.toList_inj.mp hl,hr⟩

def sizedStr (s : String) : Bytes := leBytes 8 (utf8 s.toList).length++utf8 s.toList

lemma sizedStr_tellsApart {s t : String} (hs : (utf8 s.toList).length < 2^64)
    (ht : (utf8 t.toList).length < 2^64) : TellsApart sizedStr s t := by
  have hsi := TellsApart.sized (f := fun s : String => utf8 s.toList) (word_tellsApart hs ht)
    fun h => String.toList_inj.mp (utf8_injective h)
  exact hsi
section
def digitsValue (cs : List Char) : ℕ := cs.foldl (fun n c => 10*n+(c.toNat-48)) 0
def allDigits (cs : List Char) : Bool := !cs.isEmpty && cs.all Char.isDigit

/-- `Number::as_i64`, then `as_u64`, as the word they hash to. -/
def integerWord : List Char → Option ℕ
  | '-'::cs =>
    if allDigits cs && digitsValue cs ≤ 2^63 then some ((2^64-digitsValue cs)%2^64) else none
  | cs => if allDigits cs && digitsValue cs < 2^64 then some (digitsValue cs) else none

variable (floatBits : List Char → UInt64)

/-- The word a number is hashed as; `floatBits` is `as_f64().to_bits()` of one that is not an
integer. -/
def numberWord (n : JsonNumber) : ℕ := (integerWord n.text).getD (floatBits n.text).toNat

mutual
/-- `hash_json_value`. -/
def hashJsonValue : Json → Bytes
  | .null => [0]
  | .bool value => [1,if value then 1 else 0]
  | .num n => 2::leBytes 8 (numberWord floatBits n)
  | .str value => 3::hashStr value
  | .arr items => 4::(leBytes 8 items.length++hashItems items)
  | .obj fields => 5::(leBytes 8 fields.length++hashFields fields)
def hashItems : List Json → Bytes
  | [] => []
  | item::items => hashJsonValue item++hashItems items
def hashFields : List (String × Json) → Bytes
  | [] => []
  | (key,value)::fields => hashStr key++(hashJsonValue value++hashFields fields)
end
mutual
def Json.numbers : Json → List JsonNumber
  | .num n => [n]
  | .arr items => numbersOfItems items
  | .obj fields => numbersOfFields fields
  | .null | .bool _ | .str _ => []
def numbersOfItems : List Json → List JsonNumber
  | [] => []
  | item::items => item.numbers++numbersOfItems items
def numbersOfFields : List (String × Json) → List JsonNumber
  | [] => []
  | (_,value)::fields => value.numbers++numbersOfFields fields
end
mutual
/-- No array or object is longer than a machine word can say. -/
def Json.Sized : Json → Prop
  | .arr items => items.length < 2^64 ∧ sizedItems items
  | .obj fields => fields.length < 2^64 ∧ sizedFields fields
  | .null | .bool _ | .num _ | .str _ => True
def sizedItems : List Json → Prop
  | [] => True
  | item::items => item.Sized ∧ sizedItems items
def sizedFields : List (String × Json) → Prop
  | [] => True
  | (_,value)::fields => value.Sized ∧ sizedFields fields
end
def NumbersApart (ms ns : List JsonNumber) : Prop :=
  ∀ m ∈ ms, ∀ n ∈ ns, numberWord floatBits m = numberWord floatBits n → m = n

variable {floatBits}

lemma integerWord_lt {cs : List Char} {word : ℕ} (h : integerWord cs = some word) : word < 2^64 := by
  unfold integerWord at h
  split at h
  · split at h
    · rw [← Option.some.inj h]
      exact Nat.mod_lt _ (by decide)
    · cases h
  · split at h
    · rename_i hb
      rw [Bool.and_eq_true,decide_eq_true_eq] at hb
      rw [← Option.some.inj h]
      exact hb.2
    · cases h

lemma numberWord_lt (n : JsonNumber) : numberWord floatBits n < 2^64 := by
  unfold numberWord
  cases h : integerWord n.text with
  | none => exact (floatBits n.text).toNat_lt
  | some => exact integerWord_lt h

variable {ms ms' ns ns' : List JsonNumber}
section
variable (h : NumbersApart floatBits (ms++ms') (ns++ns'))
include h

lemma NumbersApart.left : NumbersApart floatBits ms ns :=
  fun m hm n hn => h m (mem_append_left _ hm) n (mem_append_left _ hn)
lemma NumbersApart.right : NumbersApart floatBits ms' ns' :=
  fun m hm n hn => h m (mem_append_right _ hm) n (mem_append_right _ hn)
end
mutual
lemma hashJsonValue_tellsApart (v w : Json) (hv : v.Sized) (hw : w.Sized)
    (hn : NumbersApart floatBits v.numbers w.numbers) :
    TellsApart (hashJsonValue floatBits) v w := by
  intro r s h
  match v, w with
  | .null, .null => exact ⟨rfl,(List.cons.inj h).2⟩
  | .bool a, .bool b => 
    simp only [hashJsonValue,cons_append,nil_append,List.cons.injEq,true_and] at h
    refine ⟨?_,h.2⟩
    cases a <;> cases b <;> simp_all
  | .num m, .num n =>
    obtain ⟨hwo,hr⟩ := word_tellsApart (numberWord_lt m) (numberWord_lt n) _ _ (List.cons.inj h).2
    exact ⟨by rw [hn m (by simp [Json.numbers]) n (by simp [Json.numbers]) hwo],hr⟩
  | .str a, .str b =>
    obtain ⟨hs,hr⟩ := hashStr_tellsApart a b _ _ (List.cons.inj h).2
    exact ⟨by rw [hs],hr⟩
  | .arr xs, .arr ys =>
    simp only [hashJsonValue,cons_append,append_assoc,List.cons.injEq,true_and] at h
    obtain ⟨hl,h⟩ := word_tellsApart hv.1 hw.1 _ _ h
    obtain ⟨hi,hr⟩ := hashItems_tellsApart xs ys hl hv.2 hw.2 hn h
    exact ⟨by rw [hi],hr⟩
  | .obj xs, .obj ys =>
    simp only [hashJsonValue,cons_append,append_assoc,List.cons.injEq,true_and] at h
    obtain ⟨hl,h⟩ := word_tellsApart hv.1 hw.1 _ _ h
    obtain ⟨hf,hr⟩ := hashFields_tellsApart xs ys hl hv.2 hw.2 hn h
    exact ⟨by rw [hf],hr⟩
  | .null, .bool _ | .null, .num _ | .null, .str _ | .null, .arr _ | .null, .obj _
  | .bool _, .null | .bool _, .num _ | .bool _, .str _ | .bool _, .arr _ | .bool _, .obj _
  | .num _, .null | .num _, .bool _ | .num _, .str _ | .num _, .arr _ | .num _, .obj _
  | .str _, .null | .str _, .bool _ | .str _, .num _ | .str _, .arr _ | .str _, .obj _
  | .arr _, .null | .arr _, .bool _ | .arr _, .num _ | .arr _, .str _ | .arr _, .obj _
  | .obj _, .null | .obj _, .bool _ | .obj _, .num _ | .obj _, .str _ | .obj _, .arr _ =>
    exact absurd (List.cons.inj h).1 (by decide)

lemma hashItems_tellsApart (xs ys : List Json) (hl : xs.length = ys.length) (hx : sizedItems xs) (hy : sizedItems ys)
    (hn : NumbersApart floatBits (numbersOfItems xs) (numbersOfItems ys)) {r s : Bytes}
    (h : hashItems floatBits xs++r = hashItems floatBits ys++s) : xs = ys ∧ r = s := by
  match xs, ys with
  | [], [] => exact ⟨rfl,h⟩
  | [], _::_ => cases hl
  | _::_, [] => cases hl
  | x::xs, y::ys =>
    simp only [hashItems,append_assoc] at h
    obtain ⟨hf,h⟩ := hashJsonValue_tellsApart x y hx.1 hy.1 hn.left _ _ h
    obtain ⟨hr,h⟩ := hashItems_tellsApart xs ys (Nat.succ.inj hl) hx.2 hy.2 hn.right h
    exact ⟨by rw [hf,hr],h⟩

lemma hashFields_tellsApart (xs ys : List (String × Json)) (hl : xs.length = ys.length)
    (hx : sizedFields xs) (hy : sizedFields ys)
    (hn : NumbersApart floatBits (numbersOfFields xs) (numbersOfFields ys)) {r s : Bytes}
    (h : hashFields floatBits xs++r = hashFields floatBits ys++s) : xs = ys ∧ r = s := by
  match xs, ys with
  | [], [] => exact ⟨rfl,h⟩
  | [], _::_ => cases hl
  | _::_, [] => cases hl
  | (key,x)::xs, (key',y)::ys =>
    simp only [hashFields,append_assoc] at h
    obtain ⟨hk,h⟩ := hashStr_tellsApart key key' _ _ h
    obtain ⟨hf,h⟩ := hashJsonValue_tellsApart x y hx.1 hy.1 hn.left _ _ h
    obtain ⟨hr,h⟩ := hashFields_tellsApart xs ys (Nat.succ.inj hl) hx.2 hy.2 hn.right h
    exact ⟨by rw [hk,hf,hr],h⟩
end
end
end Rustcdc
