import Rustcdc.Transform.MaskHash

/-! What the associated data of an encrypted field says of the place the value came from.  It names the
table and the path of the field, joined by separators that a name may contain itself; the row is not
part of it. -/
namespace Rustcdc
open List Framing

/-- A step of a path: the key of an object, or an index of an array. -/
inductive Segment
  | key (name : String)
  | index (i : UInt64)
  deriving DecidableEq

def Segment.text : Segment → String
  | .key name => name
  | .index i => natText i.toNat

/-- The place of a field: the event of its row and the path in an image. -/
structure Place where
  event : Event
  path : List Segment

namespace Place
variable (place : Place)

/-- The path as the walk builds it. -/
def pathText : String := place.path.foldl (fun path segment => childPath path segment.text) ""
def aad : String := fieldAad place.event.qualifiedTableName place.pathText
def field : Option String × String × List Segment := (place.event.schema,place.event.table,place.path)
end Place
/-- A key that is not empty, has no dot and is not the text of an index. -/
def Segment.Plain : Segment → Prop
  | .key name => name ≠ "" ∧ '.' ∉ name.toList ∧ ∀ i : UInt64, name ≠ natText i.toNat
  | .index _ => True

/-- A name without the separators. -/
def PlainName (name : String) : Prop := '.' ∉ name.toList ∧ '|' ∉ name.toList

/-- The names of the place do not contain the separators, and its keys are not read as an index. -/
structure Place.Plain (place : Place) : Prop where
  schema : ∀ schema ∈ place.event.schema, schema ≠ "" ∧ PlainName schema
  table : PlainName place.event.table
  path : ∀ segment ∈ place.path, segment.Plain

lemma natText_injective {i j : UInt64} (h : natText i.toNat = natText j.toNat) : i = j := by
  have hr : ∀ i : UInt64, fromStrRadix 10 (2^64) (formatNat 10 i.toNat) = .ok i.toNat := by
    intro i
    have hp := fromStrRadix_pad (by decide : 1 < 10 ∧ 10 ≤ 16) 0
      (show i.toNat < 10^20 by have := i.toNat_lt; omega) i.toNat_lt
    simpa [padZeros] using hp
  have hc : formatNat 10 i.toNat = formatNat 10 j.toNat := String.ofList_injective h
  have hi := hr i
  rw [hc,hr j] at hi
  exact UInt64.toNat_inj.mp (Except.ok.inj hi).symm

lemma Segment.text_injective {a b : Segment} (ha : a.Plain) (hb : b.Plain) (h : a.text = b.text) : a = b := by
  cases a with
  | key =>
    cases b with
    | key => exact congrArg Segment.key h
    | index j => exact absurd h (ha.2.2 j)
  | index i =>
    cases b with
    | key => exact absurd h.symm (hb.2.2 i)
    | index => rw [natText_injective h]

lemma Segment.Plain.text {sg : Segment} (h : sg.Plain) : sg.text ≠ "" ∧ '.' ∉ sg.text.toList := by
  cases sg with
  | key => exact ⟨h.1,h.2.1⟩
  | index i =>
    refine ⟨?_,?_⟩
    · rw [Segment.text,natText,← String.ofList_nil]
      exact fun h => digitsInto_ne_nil 19 i.toNat [] (String.ofList_injective h)
    · have hd : '.' ∉ padZeros 0 (formatNat 10 i.toNat) := not_mem_padZeros (by decide) 0 _
      simpa [Segment.text,natText,padZeros] using hd

lemma foldl_childPath {path : String} (hp : path ≠ "") (segments : List Segment) :
    (segments.foldl (fun path sg => childPath path sg.text) path).toList =
      path.toList++led '.' (segments.map (·.text.toList)) := by
  induction segments generalizing path with
  | nil => simp [led]
  | cons sg segments ih =>
    have hc : childPath path sg.text = path++"."++sg.text := by
      rw [childPath,if_neg (by simpa using hp)]
    have hn : path++"."++sg.text ≠ "" := by
      intro h
      have he := congrArg String.toList h
      simp at he
    rw [foldl_cons,hc,ih hn]
    simp [led]

lemma texts_injective {xs ys : List Segment} (hx : ∀ x ∈ xs, x.Plain) (hy : ∀ y ∈ ys, y.Plain)
    (h : xs.map (·.text.toList) = ys.map (·.text.toList)) : xs = ys := by
  induction xs generalizing ys with
  | nil => exact (map_eq_nil_iff.mp h.symm).symm
  | cons x xs ih =>
    cases ys with
    | nil => cases h
    | cons =>
      obtain ⟨hx,hxs⟩ := forall_mem_cons.mp hx
      obtain ⟨hy,hys⟩ := forall_mem_cons.mp hy
      obtain ⟨ht,hr⟩ := List.cons.inj h
      rw [Segment.text_injective hx hy (String.toList_injective ht),ih hxs hys hr]

namespace Place
variable {p : Place}

/-- The path of a place with plain segments is its segments joined by dots. -/
theorem Plain.led_texts (h : p.Plain) : led '.' (p.path.map (·.text.toList)) =
      if p.pathText = "" then [] else '.'::p.pathText.toList := by
  rw [pathText]
  cases hp : p.path with
  | nil => rfl
  | cons sg segments =>
    have hs := (h.path sg (by simp [hp])).text
    have hf : childPath "" sg.text = sg.text := rfl
    have ht := foldl_childPath hs.1 segments
    rw [foldl_cons,hf,if_neg,ht]
    · simp [led]
    · intro he
      rw [he] at ht
      have hn : sg.text.toList = [] := by
        simp only [String.toList_empty] at ht
        exact (append_eq_nil_iff.mp ht.symm).1
      exact hs.1 (String.toList_injective hn)

lemma Plain.texts_noDot (h : p.Plain) : ∀ text ∈ p.path.map (·.text.toList), '.' ∉ text := by
  intro text ht
  obtain ⟨sg,hs,rfl⟩ := mem_map.mp ht
  exact (h.path sg hs).text.2

variable {a b : Place}

lemma path_injective (ha : a.Plain) (hb : b.Plain) (h : a.pathText = b.pathText) : a.path = b.path := by
  have hl : led '.' (a.path.map (·.text.toList)) = led '.' (b.path.map (·.text.toList)) := by
    rw [ha.led_texts,hb.led_texts,h]
  exact texts_injective ha.path hb.path (led_injective ha.texts_noDot hb.texts_noDot hl)

lemma Plain.qualified (h : p.Plain) : p.event.qualifiedTableName.toList =
      match p.event.schema with
      | none => p.event.table.toList
      | some sc => sc.toList++led '.' [p.event.table.toList] := by
  rw [Event.qualifiedTableName]
  cases hs : p.event.schema with
  | none => rfl
  | some sc =>
    have hn := (h.schema sc hs).1
    simp [hn,led]

lemma Plain.qualified_noBar (h : p.Plain) : '|' ∉ p.event.qualifiedTableName.toList := by
  have ht := h.table.2
  rw [h.qualified]
  cases hs : p.event.schema with
  | none => exact ht
  | some sc =>
    have hn := (h.schema sc hs).2.2
    simp [led,hn,ht]

lemma table_injective (ha : a.Plain) (hb : b.Plain) (h : a.event.qualifiedTableName = b.event.qualifiedTableName) :
    a.event.schema = b.event.schema ∧ a.event.table = b.event.table := by
  have hch := congrArg String.toList h
  rw [ha.qualified,hb.qualified] at hch
  have hn : Separated '.' [] := fun c hc => by cases hc
  cases hs : a.event.schema with
  | none =>
    cases hs' : b.event.schema with
    | none =>
      rw [hs,hs'] at hch
      exact ⟨rfl,String.toList_injective hch⟩
    | some sc' =>
      rw [hs,hs'] at hch
      have hap : a.event.table.toList++[] = sc'.toList++led '.' [b.event.table.toList] := by
        rw [append_nil]
        exact hch
      have hsp := append_separated ha.table.1 (hb.schema sc' hs').2.1 hn (led_separated _) hap
      cases hsp.2
  | some sc =>
    cases hs' : b.event.schema with
    | none =>
      rw [hs,hs'] at hch
      have hap : sc.toList++led '.' [a.event.table.toList] = b.event.table.toList++[] := by
        rw [append_nil]
        exact hch
      have hsp := append_separated (ha.schema sc hs).2.1 hb.table.1 (led_separated _) hn hap
      cases hsp.2
    | some sc' =>
      rw [hs,hs'] at hch
      have hsp := append_separated (ha.schema sc hs).2.1
        (hb.schema sc' hs').2.1 (led_separated _) (led_separated _) hch
      have ht : a.event.table.toList = b.event.table.toList := by
        simpa [led] using hsp.2
      exact ⟨congrArg some (String.toList_injective hsp.1),String.toList_injective ht⟩

/-- The associated data of plain places names the table and the field. -/
theorem aad_injective (ha : a.Plain) (hb : b.Plain) (h : a.aad = b.aad) : a.field = b.field := by
  have hch := congrArg String.toList h
  simp only [aad,fieldAad,String.toList_append,append_assoc] at hch
  have hba : ∀ t : List Char, Separated '|' ("|".toList++t) := fun t c hc =>
    (Option.some.inj hc).symm
  have hs := append_separated ha.qualified_noBar hb.qualified_noBar (hba _) (hba _) (append_cancel_left hch)
  have ht := table_injective ha hb (String.toList_injective hs.1)
  have hp : a.pathText.toList = b.pathText.toList := append_cancel_left hs.2
  rw [field,field,ht.1,ht.2,path_injective ha hb (String.toList_injective hp)]
end Place
section
/-- The base64 engine reads back what it writes, without a colon. -/
structure LawfulBase64 (p : Primitives) : Prop where
  decode : ∀ bytes, p.decode (p.encode bytes) = .ok bytes
  colon : ∀ bytes, ':' ∉ (p.encode bytes).toList
  empty : ∀ bytes, p.encode bytes = "" → bytes = []

/-- Ideal authenticated encryption: a ciphertext has a tag, opens with what it was made with, and with
no other associated data. -/
structure IdealAead (p : Primitives) : Prop where
  tagged : ∀ {key nonce aad text bytes}, p.encrypt key nonce aad text = .ok bytes → bytes ≠ []
  opens : ∀ {key nonce aad text bytes}, p.encrypt key nonce aad text = .ok bytes →
    p.decrypt key nonce aad bytes = .ok text
  binds : ∀ {key nonce aad text bytes key' nonce' aad' text'},
    p.encrypt key nonce aad text = .ok bytes → p.decrypt key' nonce' aad' bytes = .ok text' → aad' = aad

variable {p : Primitives}

/-- What an encrypted field consists of. -/
structure Encrypted (p : Primitives) (value : Json) (secret : SecretString) (aad : String)
    (field : Json) (nonce : Nonce) (ciphertext : Bytes) (resolved : String) : Prop where
  resolve : secret.resolve = .ok resolved
  encrypt : p.encrypt (p.hkdf resolved) nonce aad value.render = .ok ciphertext
  field : field = .str ("enc:v1:"++p.encode nonce.1++":"++p.encode ciphertext)

variable {ciphertext : Bytes} {value field : Json} {nonce : Nonce} {secret : SecretString} {aad : String}

lemma encryptValue_ok {entropy entropy' : Entropy}
    (h : encryptValue p value secret aad entropy = .ok (field,entropy')) :
    ∃ nonce ciphertext resolved, Encrypted p value secret aad field nonce ciphertext resolved := by
  simp only [encryptValue,deriveEncryptionKey,tryGenerate,reported,bind,StateT.bind,liftM,monadLift,
    MonadLift.monadLift,StateT.lift,pure,StateT.pure] at h
  cases hr : secret.resolve with
  | error =>
    rw [hr] at h
    cases h
  | ok resolved =>
    rw [hr] at h
    simp only [Except.map,Except.bind,Except.pure] at h
    cases hn : entropy 0 with
    | error =>
      rw [hn] at h
      cases h
    | ok nonce =>
      rw [hn] at h
      simp only at h
      cases he : p.encrypt (p.hkdf resolved) nonce aad value.render with
      | error =>
        rw [he] at h
        cases h
      | ok ciphertext =>
        rw [he] at h
        simp only [Except.mapError,Except.ok.injEq,Prod.mk.injEq] at h
        exact ⟨nonce,ciphertext,resolved,hr,he,h.1.symm⟩

lemma parseEncryptedPayload_ok {nonce ciphertext : String} (hco : ':' ∉ nonce.toList)
    (hn : nonce ≠ "") (hc : ciphertext ≠ "") :
    parseEncryptedPayload ("enc:v1:"++nonce++":"++ciphertext) = .ok (nonce,ciphertext) := by
  have hch : ("enc:v1:"++nonce++":"++ciphertext).toList =
      "enc:".toList++("v1:".toList++(nonce.toList++ ':'::ciphertext.toList)) := by
    simp
  rw [parseEncryptedPayload,hch,stripFront_append]
  simp only [stripFront_append,splitOnce_append hco,String.ofList_toList]
  rw [if_neg]
  simp [hn,hc]

lemma decryptValue_parsed (hb : LawfulBase64 p) (hne : ciphertext ≠ []) (secret : SecretString) (aad : String) :
    decryptValue p (.str ("enc:v1:"++p.encode nonce.1++":"++p.encode ciphertext)) secret aad =
      (deriveEncryptionKey p secret).bind fun k =>
        ((p.decrypt k nonce aad ciphertext).mapError decryptionFailed).bind fun plaintext =>
          reported "decrypted payload is not valid JSON: " (p.fromSlice plaintext) := by
  have hn : p.encode nonce.1 ≠ "" := by
    intro h
    have hl := nonce.2
    rw [hb.empty _ h] at hl
    cases hl
  have hp := parseEncryptedPayload_ok (hb.colon nonce.1) hn fun h => hne (hb.empty ciphertext h)
  have hc : checkNonce nonce.1 = .ok nonce := dif_pos nonce.2
  rw [decryptValue,hp]
  simp only [bind,Except.bind,hb.decode,reported,Except.mapError,hc]

variable {resolved : String}
section
variable (hb : LawfulBase64 p) (ha : IdealAead p) (h : Encrypted p value secret aad field nonce ciphertext resolved)
include hb ha h

lemma Encrypted.decrypt_same : decryptValue p field secret aad =
      reported "decrypted payload is not valid JSON: " (p.fromSlice value.render) := by
  rw [h.field,decryptValue_parsed hb (ha.tagged h.encrypt),deriveEncryptionKey,h.resolve]
  simp only [Except.map,Except.bind,ha.opens h.encrypt,Except.mapError]

lemma Encrypted.decrypt_other {aad' : String} (ho : aad' ≠ aad) (secret' : SecretString) :
    ∃ e, decryptValue p field secret' aad' = .error e := by
  rw [h.field,decryptValue_parsed hb (ha.tagged h.encrypt)]
  cases hk : deriveEncryptionKey p secret' with
  | error e => exact ⟨e,rfl⟩
  | ok k =>
    cases hop : p.decrypt k nonce aad' ciphertext with
    | error e => exact ⟨decryptionFailed e,by simp only [Except.bind,hop,Except.mapError]⟩
    | ok => exact absurd (ha.binds h.encrypt hop) ho
end
lemma applyRule_decrypt (field : Json) (secret : SecretString) (aad : String) (lt : Entropy) :
    applyRule p field (.decrypt secret) aad lt = (decryptValue p field secret aad).map fun value => (value,lt) := by
  rw [applyRule]
  cases decryptValue p field secret aad <;> rfl

end
/-- A text as bytes: for each character as many ones as its code, and a zero. -/
def unary (cs : List Char) : Bytes := cs.flatMap fun c => List.replicate c.toNat 1++[0]

def readUnary : ℕ → Bytes → List Char
  | _, [] => []
  | n, b::bs => if b = 1 then readUnary (n+1) bs else Char.ofNat n::readUnary 0 bs

lemma readUnary_ones (n co : ℕ) (bs : Bytes) : readUnary n (List.replicate co 1++bs) = readUnary (n+co) bs := by
  induction co generalizing n with
  | zero => rfl
  | succ co ih =>
    rw [replicate_succ,cons_append,readUnary,if_pos rfl,ih]
    congr 1
    omega

lemma readUnary_unary (cs : List Char) : readUnary 0 (unary cs) = cs := by
  induction cs with
  | nil => rfl
  | cons c cs ih =>
    rw [unary,flatMap_cons,append_assoc,readUnary_ones,singleton_append,readUnary,if_neg (by decide)]
    rw [Nat.zero_add,Char.ofNat_toNat]
    exact congrArg (c::·) ih

/-- A cipher that keeps the associated data in front of the text, and a reader for one value. -/
def framedPrimitives : Primitives where
  sha256 _ := ""
  hmac _ _ := .ok ""
  hkdf _ := []
  encrypt _ _ aad text := .ok (hashStr aad++unary text)
  decrypt _ _ aad bytes :=
    if (hashStr aad).isPrefixOf bytes then .ok (readUnary 0 (bytes.drop (hashStr aad).length))
    else .error "aead::Error"
  encode bytes := String.ofList (bytes.map fun b => Char.ofNat (b.toNat+256))
  decode text := .ok (text.toList.map fun c => UInt8.ofNat (c.toNat-256))
  fromSlice text := if text = (Json.str "4200").render then .ok (.str "4200") else .error "expected value"

lemma toNat_ofByte (b : UInt8) : (Char.ofNat (b.toNat+256)).toNat = b.toNat+256 := by
  have hb : b.toNat < 256 := b.toNat_lt
  have hv : (b.toNat+256).isValidChar := Or.inl (by omega)
  rw [Char.ofNat,dif_pos hv]
  simp only [Char.toNat,Char.ofNatAux]
  rfl

lemma framedPrimitives_base64 : LawfulBase64 framedPrimitives where
  decode bytes := by
    simp [framedPrimitives,Function.comp_def,toNat_ofByte]
  colon bytes := by
    intro hm
    obtain ⟨b,_,hb⟩ := mem_map.mp (show ':' ∈ bytes.map fun b => Char.ofNat (b.toNat+256) by
      simpa [framedPrimitives] using hm)
    have hco := congrArg Char.toNat hb
    rw [toNat_ofByte] at hco
    have hc : ':'.toNat = 58 := rfl
    omega
  empty bytes h := by simpa [framedPrimitives] using h

lemma framedPrimitives_aead : IdealAead framedPrimitives where
  tagged h := by
    cases h
    simp [hashStr]
  opens h := by
    cases h
    simp [framedPrimitives,readUnary_unary]
  binds {key nonce aad text bytes key' nonce' aad' text'} h ho := by
    cases h
    simp only [framedPrimitives] at ho
    split at ho
    · rename_i hf
      obtain ⟨r,hr⟩ := isPrefixOf_iff_prefix.mp hf
      exact (hashStr_tellsApart aad' aad _ _ hr).1
    · cases ho

def salaryEvent (table id : String) : Event where
  before := none
  after := some (.obj [("id",.str id),("salary",.str "4200")])
  op := .insert
  source := ⟨"staff","0/10",1⟩
  ts := 1
  schema := some "public"
  table := table
  primaryKey := some ["id"]
  snapshot := none
  transaction := none
  envelopeVersion := eventEnvelopeVersion
  beforeIsKeyOnly := false
  unavailableColumns := []
  beforeUnavailableColumns := []

def salaryPlace (table id name : String) : Place := ⟨salaryEvent table id,[.key name]⟩
def zeroEntropy : Entropy := fun _ => .ok ⟨List.replicate 12 0,rfl⟩

def encryptedSalary (place : Place) : Json := .str ("enc:v1:"++framedPrimitives.encode (List.replicate 12 0)++":"++
    framedPrimitives.encode (hashStr place.aad++unary (Json.str "4200").render))
lemma encryptedSalary_applied (place : Place) :
    applyRule framedPrimitives (.str "4200") (.encrypt ⟨.ok "key"⟩) place.aad zeroEntropy =
      .ok (encryptedSalary place,zeroEntropy) := rfl

lemma encryptedSalary_opens {place : Place} {aad : String} (h : aad = place.aad) :
    applyRule framedPrimitives (encryptedSalary place) (.decrypt ⟨.ok "key"⟩) aad zeroEntropy =
      .ok (.str "4200",zeroEntropy) := by
  obtain ⟨nonce,ciphertext,resolved,hf⟩ := encryptValue_ok (encryptedSalary_applied place)
  rw [h,applyRule_decrypt,hf.decrypt_same framedPrimitives_base64 framedPrimitives_aead]
  rfl

lemma not_natText {n : String} (h : ∃ c ∈ n.toList, ∀ d < 16, c ≠ upperDigit d) (i : UInt64) :
    n ≠ natText i.toNat := by
  rintro rfl
  obtain ⟨c,hc,hdi⟩ := h
  rw [natText,String.toList_ofList] at hc
  rcases mem_digitsInto (by decide : 1 < 10 ∧ 10 ≤ 16) hc with hn | ⟨d,hd,he⟩
  · cases hn
  · exact hdi d hd he

lemma salaryPlace_plain {table n : String} (ht : PlainName table) (hn : n ≠ "")
    (hd : '.' ∉ n.toList) (hl : ∃ c ∈ n.toList, ∀ d < 16, c ≠ upperDigit d) (id : String) :
    (salaryPlace table id n).Plain where
  schema schema hsc := by
    cases hsc
    exact ⟨by decide,by decide,by decide⟩
  table := ht
  path segment hs := by
    obtain rfl := mem_singleton.mp hs
    exact ⟨hn,hd,not_natText hl⟩

end Rustcdc
