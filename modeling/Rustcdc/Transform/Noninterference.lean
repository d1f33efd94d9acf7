import Rustcdc.Transform.MaskHash

/-! What a masked event tells of the values that the rules cover.  A wildcard rule masks the scalars one
level down and is not consulted at an object or an array, so what stands below one of those is kept. -/
namespace Rustcdc
section
variable (c : MaskHashConfig)

/-- A rule covers the child: one for its path, or the wildcard for the children of its parent. -/
def MaskHashConfig.Masked (parent path : String) : Prop :=
  (c.lookupRule path).isSome ∨ (parent ≠ "" ∧ (c.maskRules.lookup (parent++".*")).isSome)
  deriving Decidable

mutual
/-- Two values that are equal except at or below the places that a rule covers. -/
def Agree (path : String) : Json → Json → Prop
  | .obj fields, .obj fields' => AgreeFields path fields fields'
  | .arr items, .arr items' => AgreeItems path 0 items items'
  | value, value' => value = value'
def AgreeItems (path : String) (index : ℕ) : List Json → List Json → Prop
  | [], [] => True
  | item::items, item'::items' =>
    (c.Masked path (childPath path (natText index)) ∨ Agree (childPath path (natText index)) item item') ∧
    AgreeItems path (index+1) items items'
  | _, _ => False
def AgreeFields (path : String) : List (String × Json) → List (String × Json) → Prop
  | [], [] => True
  | (key,value)::fields, (key',value')::fields' =>
    key = key' ∧ (c.Masked path (childPath path key) ∨ Agree (childPath path key) value value') ∧
    AgreeFields path fields fields'
  | _, _ => False
end
def AgreePayload : Option Json → Option Json → Prop
  | none, none => True
  | some value, some value' => Agree c "" value value'
  | _, _ => False

/-- Two events that are equal except for values at or below masked places of their images. -/
structure AgreeEvents (a b : Event) : Prop where
  rest : {a with before := none, after := none} = {b with before := none, after := none}
  before : AgreePayload c a.before b.before
  after : AgreePayload c a.after b.after

def Json.isScalar : Json → Bool
  | .arr _ | .obj _ => false
  | _ => true

/-- The rule puts a constant in the place of the value. -/
def MaskRule.Conceals : MaskRule → Prop
  | .redact _ | .null => True
  | _ => False

/-- The rule a scalar at the path is put under. -/
def MaskHashConfig.scalarRule (path : String) : MaskRule :=
  if path.isEmpty then .passthrough else (c.lookupRule path).getD c.defaultRule

mutual
/-- Two values that differ only where they stand under a rule of their own, or are scalars under a rule
that conceals them. -/
def Alike (path : String) : Json → Json → Prop
  | .obj fields, .obj fields' => (c.maskRules.lookup path).isSome ∨ AlikeFields path fields fields'
  | .arr items, .arr items' => (c.maskRules.lookup path).isSome ∨ AlikeItems path 0 items items'
  | value, value' => (c.maskRules.lookup path).isSome ∨ value = value' ∨
      (value.isScalar = true ∧ value'.isScalar = true ∧ (c.scalarRule path).Conceals)
def AlikeItems (path : String) (index : ℕ) : List Json → List Json → Prop
  | [], [] => True
  | item::items, item'::items' =>
    Alike (childPath path (natText index)) item item' ∧ AlikeItems path (index+1) items items'
  | _, _ => False
def AlikeFields (path : String) : List (String × Json) → List (String × Json) → Prop
  | [], [] => True
  | (key,value)::fields, (key',value')::fields' =>
    key = key' ∧ Alike (childPath path key) value value' ∧ AlikeFields path fields fields'
  | _, _ => False
end
def AlikePayload : Option Json → Option Json → Prop
  | none, none => True
  | some value, some value' => Alike c "" value value'
  | _, _ => False
def AlikeEvents (a b : Event) : Prop := AlikePayload c a.before b.before ∧ AlikePayload c a.after b.after
end
section
variable {p : Primitives} {t : MaskHashTransform} {ta : String} {rule : MaskRule} {pa : String}

lemma MaskRule.Conceals.applyRule_eq (h : rule.Conceals) (v w : Json) (aad : String) :
    applyRule p v rule aad = applyRule p w rule aad := by
  cases rule with
  | redact | null => rfl
  | unsaltedSha256 | truncate | passthrough | hmacSha256 | encrypt | decrypt => cases h

lemma MaskRule.Conceals.not_passthrough (h : rule.Conceals) : rule.isPassthrough = false := by
  cases rule with
  | passthrough => cases h
  | _ => rfl

lemma walkValue_scalar (c : MaskHashConfig) (pa : String) {v : Json} (h : v.isScalar = true) :
    walkValue p c ta pa v = walkScalar p c ta pa v := by
  cases v with
  | arr | obj => cases h
  | null | bool | num | str => rfl
section
variable (hr : ∀ e ∈ t.config.maskRules, e.2.Conceals)
include hr

lemma lookup_conceals (h : t.config.maskRules.lookup pa = some rule) : rule.Conceals := by
  obtain ⟨b,a,he,_⟩ := List.lookup_eq_some_iff.mp h
  exact hr (pa,rule) (by simp [he])

lemma lookupRule_conceals (h : t.config.lookupRule pa = some rule) : rule.Conceals := by
  rw [MaskHashConfig.lookupRule] at h
  split at h
  · rename_i found hf
    cases h
    exact lookup_conceals hr hf
  · split at h
    · cases h
    · exact lookup_conceals hr h

/-- The value at a place with a rule of its own, whatever it is, is the one the rule puts there. -/
theorem walkValue_exact (h : t.config.maskRules.lookup pa = some rule) (v : Json) :
    walkValue p t.config ta pa v = applyRule p .null rule (fieldAad ta pa) := by
  have hc := lookup_conceals hr h
  have hp : pa.isEmpty = false := by
    rw [String.isEmpty_eq_false_iff]
    rintro rfl
    rw [t.lookup_empty] at h
    cases h
  have hco : t.config.containerRule pa = some rule := by
    rw [MaskHashConfig.containerRule,hp,h]
    simp [Option.filter,hc.not_passthrough]
  have hru : t.config.lookupRule pa = some rule := by
    rw [MaskHashConfig.lookupRule,h]
  by_cases hs : v.isScalar = true
  · rw [walkValue_scalar _ _ hs]
    simp only [walkScalar,hp,hru,Option.getD_some,hc.not_passthrough,Bool.false_eq_true,if_false]
    exact hc.applyRule_eq v .null _
  · cases v with
    | null | bool | num | str => exact absurd rfl hs
    | arr | obj =>
      rw [walkValue,hco]
      exact hc.applyRule_eq _ _ _

end
lemma walkScalar_eq (pa : String) (v : Json) : walkScalar p t.config ta pa v =
    if (t.config.scalarRule pa).isPassthrough then pure v else applyRule p v (t.config.scalarRule pa) (fieldAad ta pa) := by
  unfold walkScalar MaskHashConfig.scalarRule
  split <;> rfl

lemma containerRule_none (h : t.config.maskRules.lookup pa = none) : t.config.containerRule pa = none := by
  simp [MaskHashConfig.containerRule,h]

mutual
lemma walkValue_alike (hr : ∀ e ∈ t.config.maskRules, e.2.Conceals) (pa : String) (v w : Json)
    (ha : Alike t.config pa v w) : walkValue p t.config ta pa v = walkValue p t.config ta pa w := by
  cases he : t.config.maskRules.lookup pa with
  | some => rw [walkValue_exact hr he,walkValue_exact hr he]
  | none =>
    match v, w, ha with
    | .arr items, .arr items', ha =>
      simp only [Alike,he,Option.isSome_none,Bool.false_eq_true,false_or] at ha
      rw [walkValue,walkValue,containerRule_none he]
      simp only
      rw [walkItems_alike hr pa 0 items items' ha]
    | .obj fields, .obj fields', ha =>
      simp only [Alike,he,Option.isSome_none,Bool.false_eq_true,false_or] at ha
      rw [walkValue,walkValue,containerRule_none he]
      simp only
      rw [walkFields_alike hr pa fields fields' ha]
    | .null, w, ha | .bool _, w, ha | .num _, w, ha | .str _, w, ha
    | .arr _, .null, ha | .arr _, .bool _, ha | .arr _, .num _, ha | .arr _, .str _, ha | .arr _, .obj _, ha
    | .obj _, .null, ha | .obj _, .bool _, ha | .obj _, .num _, ha | .obj _, .str _, ha | .obj _, .arr _, ha =>
      simp only [Alike,he,Option.isSome_none,Bool.false_eq_true,false_or] at ha
      rcases ha with hs | ⟨hv,hw,hc⟩
      · rw [hs]
      · rw [walkValue_scalar _ _ hv,walkValue_scalar _ _ hw,walkScalar_eq,walkScalar_eq,
          if_neg (by simp [hc.not_passthrough]),if_neg (by simp [hc.not_passthrough])]
        exact hc.applyRule_eq _ _ _
lemma walkItems_alike (hr : ∀ e ∈ t.config.maskRules, e.2.Conceals) (pa : String) (i : ℕ) (xs ys : List Json)
    (ha : AlikeItems t.config pa i xs ys) : walkItems p t.config ta pa i xs = walkItems p t.config ta pa i ys := by
  match xs, ys, ha with
  | [], [], _ => rfl
  | x::xs, y::ys, ha =>
    rw [AlikeItems] at ha
    rw [walkItems,walkItems,walkValue_alike hr _ x y ha.1,walkItems_alike hr pa (i+1) xs ys ha.2]
lemma walkFields_alike (hr : ∀ e ∈ t.config.maskRules, e.2.Conceals) (pa : String) (xs ys : List (String × Json))
    (ha : AlikeFields t.config pa xs ys) : walkFields p t.config ta pa xs = walkFields p t.config ta pa ys := by
  match xs, ys, ha with
  | [], [], _ => rfl
  | (key,v)::xs, (key',w)::ys, ha =>
    rw [AlikeFields] at ha
    obtain ⟨rfl,hv,hre⟩ := ha
    rw [walkFields,walkFields,walkValue_alike hr _ v w hv,walkFields_alike hr pa xs ys hre]
end
lemma applyPayload_alike (hr : ∀ e ∈ t.config.maskRules, e.2.Conceals) {x y : Option Json}
    (ha : AlikePayload t.config x y) : applyPayload p t.config ta x = applyPayload p t.config ta y := by
  match x, y, ha with
  | none, none, _ => rfl
  | some v, some w, ha => rw [applyPayload,applyPayload,walkValue_alike hr "" v w ha]
end
section
/-- What a rule that conceals, or none, leaves of a value. -/
def MaskRule.leaves : MaskRule → Json → Json
  | .redact mask, _ => .str mask
  | .null, _ => .null
  | _, value => value

variable (c : MaskHashConfig)

mutual
/-- What such rules leave of a payload. -/
def leftValue (path : String) : Json → Json
  | .obj fields =>
    match c.maskRules.lookup path with
    | some rule => rule.leaves (.obj fields)
    | none => .obj (leftFields path fields)
  | .arr items =>
    match c.maskRules.lookup path with
    | some rule => rule.leaves (.arr items)
    | none => .arr (leftItems path 0 items)
  | value => (c.scalarRule path).leaves value
def leftItems (path : String) (index : ℕ) : List Json → List Json
  | [] => []
  | item::items => leftValue (childPath path (natText index)) item::leftItems path (index+1) items
def leftFields (path : String) : List (String × Json) → List (String × Json)
  | [] => []
  | (key,value)::fields => (key,leftValue (childPath path key) value)::leftFields path fields
end
variable {c} {p : Primitives} {t : MaskHashTransform} {ta : String}

lemma leaves_scalar (rule : MaskRule) {v : Json} (h : v.isScalar = true) : (rule.leaves v).isScalar = true := by
  cases rule with
  | redact | null => rfl
  | unsaltedSha256 | truncate | passthrough | hmacSha256 | encrypt | decrypt => exact h

lemma leaves_eq {rule : MaskRule} {v w : Json} (h : rule.leaves v = rule.leaves w) : v = w ∨ rule.Conceals := by
  cases rule with
  | redact | null => exact .inr trivial
  | unsaltedSha256 | truncate | passthrough | hmacSha256 | encrypt | decrypt => exact .inl h

lemma leftValue_scalar (path : String) {v : Json} (h : v.isScalar = true) :
    leftValue c path v = (c.scalarRule path).leaves v := by
  cases v with
  | arr | obj => cases h
  | null | bool | num | str => rw [leftValue] <;> simp

lemma leftValue_isScalar {path : String} (he : c.maskRules.lookup path = none) (v : Json) :
    (leftValue c path v).isScalar = v.isScalar := by
  cases v with
  | arr | obj => simp [leftValue,he,Json.isScalar]
  | null | bool | num | str => rw [leftValue_scalar path rfl]; exact leaves_scalar _ rfl

mutual
/-- What is left of two values tells them apart unless they are alike. -/
lemma alike_of_left (path : String) (v w : Json) (h : leftValue c path v = leftValue c path w) : Alike c path v w := by
  cases he : c.maskRules.lookup path with
  | some => cases v <;> cases w <;> simp [Alike,he]
  | none =>
    match v, w, h with
    | .arr items, .arr items', h =>
      simp only [leftValue,he,Json.arr.injEq] at h
      rw [Alike]
      exact .inr (alikeItems_of_left path 0 items items' h)
    | .obj fields, .obj fields', h =>
      simp only [leftValue,he,Json.obj.injEq] at h
      rw [Alike]
      exact .inr (alikeFields_of_left path fields fields' h)
    | .null, w, h | .bool _, w, h | .num _, w, h | .str _, w, h =>
      have hw : w.isScalar = true := by rw [← leftValue_isScalar he w,← h,leftValue_isScalar he]; rfl
      rw [leftValue_scalar path rfl,leftValue_scalar path hw] at h
      simp only [Alike]
      exact .inr ((leaves_eq h).imp_right fun hc => ⟨rfl,hw,hc⟩)
    | .arr _, .null, h | .arr _, .bool _, h | .arr _, .num _, h | .arr _, .str _, h
    | .obj _, .null, h | .obj _, .bool _, h | .obj _, .num _, h | .obj _, .str _, h =>
      have hs := congrArg Json.isScalar h
      rw [leftValue_isScalar he,leftValue_isScalar he] at hs
      cases hs
    | .arr _, .obj _, h | .obj _, .arr _, h =>
      simp only [leftValue,he] at h
      cases h
lemma alikeItems_of_left (path : String) (i : ℕ) (xs ys : List Json)
    (h : leftItems c path i xs = leftItems c path i ys) : AlikeItems c path i xs ys := by
  match xs, ys, h with
  | [], [], _ => trivial
  | x::xs, y::ys, h =>
    obtain ⟨hx,hxs⟩ := List.cons.inj (by simpa only [leftItems] using h)
    rw [AlikeItems]
    exact ⟨alike_of_left _ x y hx,alikeItems_of_left path (i+1) xs ys hxs⟩
lemma alikeFields_of_left (path : String) (xs ys : List (String × Json))
    (h : leftFields c path xs = leftFields c path ys) : AlikeFields c path xs ys := by
  match xs, ys, h with
  | [], [], _ => trivial
  | (key,v)::xs, (key',w)::ys, h =>
    obtain ⟨hx,hxs⟩ := List.cons.inj (by simpa only [leftFields] using h)
    obtain ⟨hk,hv⟩ := Prod.mk.inj hx
    subst hk
    rw [AlikeFields]
    exact ⟨rfl,alike_of_left _ v w hv,alikeFields_of_left path xs ys hxs⟩
end
lemma alikePayload_of_left {x y : Option Json} (h : x.map (leftValue c "") = y.map (leftValue c "")) :
    AlikePayload c x y := by
  match x, y, h with
  | none, none, _ => trivial
  | some v, some w, h => exact alike_of_left "" v w (Option.some.inj h)

/-- The rules conceal, and the default rule conceals or does nothing. -/
def Plain (t : MaskHashTransform) : Prop := (∀ e ∈ t.config.maskRules, e.2.Conceals) ∧
  (t.config.defaultRule.Conceals ∨ t.config.defaultRule = .passthrough)

lemma applyRule_leaves {rule : MaskRule} (h : rule.Conceals) (v : Json) (aad : String) :
    applyRule p v rule aad = pure (rule.leaves v) := by
  cases rule with
  | redact | null => rfl
  | unsaltedSha256 | truncate | passthrough | hmacSha256 | encrypt | decrypt => cases h

lemma MaskRule.Conceals.leaves_eq {rule : MaskRule} (h : rule.Conceals) (v w : Json) : rule.leaves v = rule.leaves w := by
  cases rule with
  | redact | null => rfl
  | unsaltedSha256 | truncate | passthrough | hmacSha256 | encrypt | decrypt => cases h

lemma Plain.scalarRule (h : Plain t) (path : String) :
    (t.config.scalarRule path).Conceals ∨ t.config.scalarRule path = .passthrough := by
  unfold MaskHashConfig.scalarRule
  split
  · exact .inr rfl
  · cases hl : t.config.lookupRule path with
    | none => exact h.2
    | some rule => exact .inl (lookupRule_conceals h.1 hl)

lemma Plain.walkScalar (h : Plain t) (path : String) (v : Json) :
    Rustcdc.walkScalar p t.config ta path v = pure ((t.config.scalarRule path).leaves v) := by
  rw [walkScalar_eq]
  rcases h.scalarRule path with hc | hc
  · rw [if_neg (by simp [hc.not_passthrough])]
    exact applyRule_leaves hc v _
  · rw [hc]
    rfl

mutual
lemma Plain.walkValue (h : Plain t) (path : String) (v : Json) :
    Rustcdc.walkValue p t.config ta path v = pure (leftValue t.config path v) := by
  match v with
  | .arr items =>
    cases he : t.config.maskRules.lookup path with
    | some rule =>
      have hc := lookup_conceals h.1 he
      rw [walkValue_exact h.1 he,applyRule_leaves hc,hc.leaves_eq .null (.arr items)]
      simp only [leftValue,he]
    | none =>
      rw [Rustcdc.walkValue,containerRule_none he,leftValue,he]
      simp only
      rw [Plain.walkItems h path 0 items]
      rfl
  | .obj fields =>
    cases he : t.config.maskRules.lookup path with
    | some rule =>
      have hc := lookup_conceals h.1 he
      rw [walkValue_exact h.1 he,applyRule_leaves hc,hc.leaves_eq .null (.obj fields)]
      simp only [leftValue,he]
    | none =>
      rw [Rustcdc.walkValue,containerRule_none he,leftValue,he]
      simp only
      rw [Plain.walkFields h path fields]
      rfl
  | .null | .bool _ | .num _ | .str _ =>
    rw [walkValue_scalar _ _ rfl,h.walkScalar,leftValue_scalar _ rfl]
lemma Plain.walkItems (h : Plain t) (path : String) (i : ℕ) (xs : List Json) :
    Rustcdc.walkItems p t.config ta path i xs = pure (leftItems t.config path i xs) := by
  match xs with
  | [] => rfl
  | x::xs =>
    rw [Rustcdc.walkItems,Plain.walkValue h _ x,Plain.walkItems h path (i+1) xs,leftItems]
    rfl
lemma Plain.walkFields (h : Plain t) (path : String) (xs : List (String × Json)) :
    Rustcdc.walkFields p t.config ta path xs = pure (leftFields t.config path xs) := by
  match xs with
  | [] => rfl
  | (key,x)::xs =>
    rw [Rustcdc.walkFields,Plain.walkValue h _ x,Plain.walkFields h path xs,leftFields]
    rfl
end
lemma Plain.apply (h : Plain t) (e : Event) : t.apply p e =
    pure {e with before := e.before.map (leftValue t.config ""), after := e.after.map (leftValue t.config "")} := by
  have hp : ∀ x : Option Json, applyPayload p t.config e.qualifiedTableName x = pure (x.map (leftValue t.config "")) := by
    intro x
    cases x with
    | none => rfl
    | some v => rw [applyPayload,h.walkValue]; rfl
  rw [MaskHashTransform.apply,hp,hp]
  rfl
end
/-- With rules that redact or null, two events that agree outside the masked places are masked alike
if they are alike for the walk, and, where the default rule redacts, nulls or does nothing, only then. -/
theorem masking_noninterference (p : Primitives) (t : MaskHashTransform)
    (hrules : ∀ entry ∈ t.config.maskRules, entry.2.Conceals) {a b : Event} (hagree : AgreeEvents t.config a b) :
    (AlikeEvents t.config a b → t.apply p a = t.apply p b) ∧
      (t.config.defaultRule.Conceals ∨ t.config.defaultRule = .passthrough →
        t.apply p a = t.apply p b → AlikeEvents t.config a b) := by
  constructor
  · intro h
    have ht : a.qualifiedTableName = b.qualifiedTableName := by
      have hs := congrArg Event.qualifiedTableName hagree.rest
      exact hs
    have hk : ∀ before after : Option Json, {a with before := before, after := after} =
        {b with before := before, after := after} := by
      intro before after
      have hs := congrArg (fun e : Event => {e with before := before, after := after}) hagree.rest
      exact hs
    rw [MaskHashTransform.apply,MaskHashTransform.apply,ht,applyPayload_alike hrules h.1,applyPayload_alike hrules h.2]
    simp only [hk]
  · intro hd h
    have hp : Plain t := ⟨hrules,hd⟩
    rw [hp.apply,hp.apply] at h
    have he := (Prod.mk.inj (Except.ok.inj (congrFun h fun _ => .error ""))).1
    exact ⟨alikePayload_of_left (congrArg Event.before he),alikePayload_of_left (congrArg Event.after he)⟩

def profileRules : MaskHashConfig := ⟨[("profile.*",.redact "***"),("email",.null)],.passthrough⟩
def profileMask : MaskHashTransform := ⟨profileRules,rfl⟩

/-- A row with a profile and an address. -/
def profileEvent (profile : Json) (email : String) : Event where
  before := none
  after := some (.obj [("email",.str email),("id",.str "7"),("profile",.obj [("home",profile)])])
  op := .insert
  source := ⟨"users","0/10",1⟩
  ts := 1
  schema := some "public"
  table := "users"
  primaryKey := none
  snapshot := none
  transaction := none
  envelopeVersion := eventEnvelopeVersion
  beforeIsKeyOnly := false
  unavailableColumns := []
  beforeUnavailableColumns := []

/-- Primitives that no rule of the sample calls. -/
def noPrimitives : Primitives where
  sha256 _ := ""
  hmac _ _ := .error ""
  hkdf _ := []
  encrypt _ _ _ _ := .error ""
  decrypt _ _ _ _ := .error ""
  encode _ := ""
  decode _ := .error ""
  fromSlice _ := .error ""

lemma profileRules_conceal : ∀ e ∈ profileRules.maskRules, e.2.Conceals := by
  intro e he
  simp only [profileRules,List.mem_cons,List.not_mem_nil,or_false] at he
  rcases he with rfl | rfl <;> exact trivial

lemma profileEvent_agree (home home' : Json) (email email' : String) :
    AgreeEvents profileRules (profileEvent home email) (profileEvent home' email') := by
  have he : profileRules.Masked "" "email" := Or.inl rfl
  have hh : profileRules.Masked "profile" "profile.home" := Or.inl rfl
  refine ⟨rfl,trivial,?_⟩
  show Agree profileRules "" (.obj _) (.obj _)
  simp only [Agree,AgreeFields,true_and,and_true]
  exact ⟨Or.inl he,Or.inr trivial,Or.inr (Or.inl hh)⟩

lemma profileEvent_alike (home home' : String) (email email' : String) :
    AlikeEvents profileRules (profileEvent (.str home) email) (profileEvent (.str home') email') := by
  refine ⟨trivial,?_⟩
  show Alike profileRules "" (.obj _) (.obj _)
  simp only [Alike,AlikeFields]
  exact .inr ⟨trivial,.inl rfl,trivial,.inr (.inl trivial),trivial,
    .inr ⟨trivial,.inr (.inr ⟨rfl,rfl,trivial⟩),trivial⟩,trivial⟩

theorem masking_noninterference_sample : (profileEvent (.str "Bern") "a@b") ≠ (profileEvent (.str "Basel") "c@d") ∧
      profileMask.apply noPrimitives (profileEvent (.str "Bern") "a@b") =
        profileMask.apply noPrimitives (profileEvent (.str "Basel") "c@d") :=
  ⟨by decide,(masking_noninterference noPrimitives profileMask profileRules_conceal
    (profileEvent_agree _ _ _ _)).1 (profileEvent_alike _ _ _ _)⟩

/-- An object below a wildcard is passed on as it is. -/
theorem nested_value_leaks : (∀ entry ∈ profileMask.config.maskRules, entry.2.Conceals) ∧
      AgreeEvents profileMask.config (profileEvent (.obj [("zip",.str "3000")]) "a@b")
        (profileEvent (.obj [("zip",.str "4000")]) "a@b") ∧
      (profileMask.apply noPrimitives (profileEvent (.obj [("zip",.str "3000")]) "a@b")
        (fun _ => .error "")).toOption.map (·.1) ≠
      (profileMask.apply noPrimitives (profileEvent (.obj [("zip",.str "4000")]) "a@b")
        (fun _ => .error "")).toOption.map (·.1) :=
  ⟨profileRules_conceal,profileEvent_agree _ _ _ _,by decide⟩
end Rustcdc
