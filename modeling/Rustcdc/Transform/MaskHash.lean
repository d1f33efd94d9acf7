import Rustcdc.Checkpoint.File
import Rustcdc.Core.Event

/-! Masking, hashing and field encryption of event payloads.  A rule is found by the dotted path of a
value: at a scalar by the path or a trailing wildcard, at an object or an array by the path only. -/
namespace Rustcdc
/-- An AES-GCM nonce. -/
abbrev Nonce := {bytes : Bytes // bytes.length = 12}

/-- What the nonce generator answers, draw by draw. -/
abbrev Entropy := ℕ → Except String Nonce

/-- The libraries the transform calls.  A failure is the text of the library's error. -/
structure Primitives where
  /-- The digest of a text, in hexadecimal. -/
  sha256 : List Char → String
  /-- The tag of a text under a key, in hexadecimal. -/
  hmac : String → List Char → Except String String
  /-- The field encryption key of a secret. -/
  hkdf : String → Bytes
  /-- AES-256-GCM with key, nonce and associated data. -/
  encrypt : Bytes → Nonce → String → List Char → Except String Bytes
  decrypt : Bytes → Nonce → String → Bytes → Except String (List Char)
  /-- Base64 with the standard alphabet. -/
  encode : Bytes → String
  decode : String → Except String Bytes
  /-- `serde_json::from_slice`. -/
  fromSlice : List Char → Except String Json

/-- A secret, by what resolving it gives. -/
structure SecretString where
  resolve : Except Error String

inductive MaskRule
  | unsaltedSha256
  | redact (placeholder : String)
  | null
  | truncate (count : ℕ)
  | passthrough
  | hmacSha256 (secret : SecretString)
  | encrypt (secret : SecretString)
  | decrypt (secret : SecretString)

def MaskRule.isPassthrough : MaskRule → Bool
  | .passthrough => true
  | _ => false

/-- The rules in the order the map is iterated, with distinct paths. -/
structure MaskHashConfig where
  maskRules : List (String × MaskRule)
  defaultRule : MaskRule

namespace MaskHashConfig
def checkRule (path : String) (rule : MaskRule) : Except Error Unit :=
  if blank path then
    .error (.configError ("mask rule path must not be empty: an empty path matches no field, so "++
      "the rule would silently do nothing"))
  else
    match rule with
    | .truncate 0 => .error (.configError ("mask rule for '"++path++"' is Truncate(0), which "++
        "produces an empty string — indistinguishable downstream from a genuinely empty column. "++
        "Use MaskRule::Redact with a marker a consumer can recognise, or MaskRule::Null, both of "++
        "which say masking happened."))
    | .redact "" => .error (.configError ("mask rule for '"++path++"' redacts to an empty string, "++
        "which is indistinguishable downstream from a genuinely empty column. Give Redact a marker "++
        "a consumer can recognise (\"***\"), or use MaskRule::Null."))
    | _ => .ok ()

def validateRules : List (String × MaskRule) → Except Error Unit
  | [] => .ok ()
  | (path,rule)::rules =>
    match checkRule path rule with
    | .error e => .error e
    | .ok () => validateRules rules

variable (c : MaskHashConfig)

def validate : Except Error Unit := validateRules (c.maskRules++[("<default_rule>",c.defaultRule)])

/-- The rule of a value: that of its path, or that of its path with the last segment as a wildcard. -/
def lookupRule (path : String) : Option MaskRule :=
  match c.maskRules.lookup path with
  | some rule => some rule
  | none =>
    match rsplitOnce '.' path.toList with
    | none => none
    | some (front,_) => c.maskRules.lookup (String.ofList front++".*")

/-- The rule of an object or an array. -/
def containerRule (path : String) : Option MaskRule :=
  if path.isEmpty then none else (c.maskRules.lookup path).filter (!·.isPassthrough)

lemma validateRules_mem {rules : List (String × MaskRule)} (h : validateRules rules = .ok ())
    {e : String × MaskRule} (hm : e ∈ rules) : checkRule e.1 e.2 = .ok () := by
  induction rules with
  | nil => cases hm
  | cons f rules ih =>
    rw [validateRules] at h
    split at h
    · cases h
    · rename_i hf
      rcases List.mem_cons.mp hm with rfl | hr
      · exact hf
      · exact ih h hr
end MaskHashConfig
/-- A transform has a configuration whose rules can do what they appear to. -/
structure MaskHashTransform where
  config : MaskHashConfig
  valid : config.validate = .ok ()

namespace MaskHashTransform
def new (config : MaskHashConfig) : Except Error MaskHashTransform :=
  match h : config.validate with
  | .error e => .error e
  | .ok () => .ok ⟨config,h⟩

variable (t : MaskHashTransform)

lemma lookup_empty : t.config.maskRules.lookup "" = none := by
  rw [List.lookup_eq_none_iff]
  intro en hen
  have hc := MaskHashConfig.validateRules_mem t.valid (List.mem_append_left _ hen)
  by_contra hem
  have hp : en.1 = "" := by simpa using hem
  have hr : ∃ e, MaskHashConfig.checkRule "" en.2 = .error e := by
    unfold MaskHashConfig.checkRule
    rw [if_pos (by decide)]
    exact ⟨_,rfl⟩
  obtain ⟨e,he⟩ := hr
  rw [hp,he] at hc
  cases hc

end MaskHashTransform
section
/-- A computation that draws nonces. -/
abbrev Walk := StateT Entropy (Except Error)

variable (p : Primitives)

/-- `Nonce::try_generate`. -/
def tryGenerate : Walk Nonce := fun entropy =>
  match entropy 0 with
  | .ok nonce => .ok (nonce,fun n => entropy (n+1))
  | .error e => .error (.transformError ("failed to draw a random AES-GCM nonce from the system "++
      "entropy source: "++e++". Refusing to encrypt: reusing a nonce under the same key leaks the "++
      "XOR of the plaintexts and the GCM authentication subkey."))

/-- The library's failure, reported with a text in front. -/
def reported {α : Type} (text : String) (result : Except String α) : Except Error α :=
  result.mapError fun e => .transformError (text++e)

def decryptionFailed (e : String) : Error :=
  .transformError ("decryption failed: "++e++". If the ciphertext is intact and the key is correct, "++
    "this means the value is being decrypted in a different context than it was encrypted in — a "++
    "different table or a different field. Ciphertexts are bound to their origin so they cannot be "++
    "relocated.")

def fieldAad (table path : String) : String := "rustcdc/v1|"++table++"|"++path
def valueAsHashInput : Json → List Char
  | .str value => value.toList
  | value => value.render
def deriveEncryptionKey (secret : SecretString) : Except Error Bytes := secret.resolve.map p.hkdf

def encryptValue (value : Json) (secret : SecretString) (aad : String) : Walk Json := do
  let key ← deriveEncryptionKey p secret
  let nonce ← tryGenerate
  let ciphertext ← reported "encryption failed: " (p.encrypt key nonce aad value.render)
  return .str ("enc:v1:"++p.encode nonce.1++":"++p.encode ciphertext)

def expectedFormat : String := "encrypted payload must match format enc:v1:<nonce>:<ciphertext>"

def parseEncryptedPayload (input : String) : Except Error (String × String) :=
  match stripFront "enc:".toList input.toList with
  | none => .error (.transformError expectedFormat)
  | some rest =>
    match stripFront "v1:".toList rest with
    | none =>
      let generation := ((splitOnce ':' rest).map (·.1)).getD rest
      .error (.transformError ("unsupported encrypted payload generation '"++
        String.ofList generation++"': this build understands only 'v1'. "++expectedFormat))
    | some rest =>
      match splitOnce ':' rest with
      | none => .error (.transformError expectedFormat)
      | some (nonce,ciphertext) =>
        if nonce.isEmpty || ciphertext.isEmpty then .error (.transformError expectedFormat)
        else .ok (String.ofList nonce,String.ofList ciphertext)

def checkNonce (bytes : Bytes) : Except Error Nonce :=
  if h : bytes.length = 12 then .ok ⟨bytes,h⟩
  else .error (.transformError ("invalid encrypted payload nonce length: "++natText bytes.length))

def decryptValue (value : Json) (secret : SecretString) (aad : String) : Except Error Json :=
  match value with
  | .str encoded => do
    let (nonceB64,ciphertextB64) ← parseEncryptedPayload encoded
    let key ← deriveEncryptionKey p secret
    let nonce ← reported "invalid encrypted payload nonce: " (p.decode nonceB64)
    let nonce ← checkNonce nonce
    let ciphertext ← reported "invalid encrypted payload ciphertext: " (p.decode ciphertextB64)
    let plaintext ← (p.decrypt key nonce aad ciphertext).mapError decryptionFailed
    reported "decrypted payload is not valid JSON: " (p.fromSlice plaintext)
  | _ => .error (.transformError "decrypt rule requires a string ciphertext payload")

def applyRule (value : Json) (rule : MaskRule) (aad : String) : Walk Json :=
  match rule with
  -- not reached: the walk leaves such a value alone
  | .passthrough => pure value
  | .unsaltedSha256 => pure (.str (p.sha256 (valueAsHashInput value)))
  | .hmacSha256 secret => do
    let resolved ← secret.resolve
    let tag ← reported "HMAC key error: " (p.hmac resolved (valueAsHashInput value))
    return .str tag
  | .redact mask => pure (.str mask)
  | .null => pure .null
  | .truncate count =>
    match value with
    | .str text => pure (.str (String.ofList (text.toList.take count)))
    | _ => pure value
  | .encrypt secret => encryptValue p value secret aad
  | .decrypt secret => decryptValue p value secret aad
end
section
variable (p : Primitives) (c : MaskHashConfig) (table : String)

/-- The path of a child, which has no dot in front at the top. -/
def childPath (path segment : String) : String :=
  if path.isEmpty then segment else path++"."++segment

def walkScalar (path : String) (value : Json) : Walk Json :=
  if path.isEmpty then pure value
  else
    let rule := (c.lookupRule path).getD c.defaultRule
    if rule.isPassthrough then pure value else applyRule p value rule (fieldAad table path)

mutual
def walkValue (path : String) : Json → Walk Json
  | .obj fields =>
    match c.containerRule path with
    | some rule => applyRule p (.obj fields) rule (fieldAad table path)
    | none => Json.obj <$> walkFields path fields
  | .arr items =>
    match c.containerRule path with
    | some rule => applyRule p (.arr items) rule (fieldAad table path)
    | none => Json.arr <$> walkItems path 0 items
  | value => walkScalar p c table path value
def walkItems (path : String) (index : ℕ) : List Json → Walk (List Json)
  | [] => pure []
  | item::items => do
    let item ← walkValue (childPath path (natText index)) item
    let items ← walkItems path (index+1) items
    return item::items
def walkFields (path : String) : List (String × Json) → Walk (List (String × Json))
  | [] => pure []
  | (key,value)::fields => do
    let value ← walkValue (childPath path key) value
    let fields ← walkFields path fields
    return (key,value)::fields
end
def applyPayload : Option Json → Walk (Option Json)
  | none => pure none
  | some value => some <$> walkValue p c table "" value

def MaskHashTransform.apply (t : MaskHashTransform) (event : Event) : Walk Event := do
  let table := event.qualifiedTableName
  let before ← applyPayload p t.config table event.before
  let after ← applyPayload p t.config table event.after
  return {event with before := before, after := after}
end
end Rustcdc
