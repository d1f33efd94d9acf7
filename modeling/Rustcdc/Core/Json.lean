import Mathlib

/-! JSON row payloads and their compact rendering.  Objects are the key-sorted maps of the
source, so a field list is canonical. -/
namespace Rustcdc
/-- The characters a rendered JSON number consists of. -/
def isNumberChar (c : Char) : Bool := c.isDigit || c = '-' || c = '+' || c = '.' || c = 'e' || c = 'E'

/-- A JSON number, as the text the serializer prints for it. -/
structure JsonNumber where
  text : List Char
  wellFormed : text ≠ [] ∧ text.all isNumberChar = true
  deriving DecidableEq

inductive Json
  | null
  | bool (value : Bool)
  | num (value : JsonNumber)
  | str (value : String)
  | arr (items : List Json)
  | obj (fields : List (String × Json))

namespace Json
mutual
def decEq : (a b : Json) → Decidable (a = b)
  | .null, .null => .isTrue rfl
  | .bool a, .bool b => decidable_of_iff (a = b) (by simp)
  | .num a, .num b => decidable_of_iff (a = b) (by simp)
  | .str a, .str b => decidable_of_iff (a = b) (by simp)
  | .arr xs, .arr ys => @decidable_of_iff _ (xs = ys) (by simp) (decEqItems xs ys)
  | .obj xs, .obj ys => @decidable_of_iff _ (xs = ys) (by simp) (decEqFields xs ys)
  | .null, .bool _ | .null, .num _ | .null, .str _ | .null, .arr _ | .null, .obj _
  | .bool _, .null | .bool _, .num _ | .bool _, .str _ | .bool _, .arr _ | .bool _, .obj _
  | .num _, .null | .num _, .bool _ | .num _, .str _ | .num _, .arr _ | .num _, .obj _
  | .str _, .null | .str _, .bool _ | .str _, .num _ | .str _, .arr _ | .str _, .obj _
  | .arr _, .null | .arr _, .bool _ | .arr _, .num _ | .arr _, .str _ | .arr _, .obj _
  | .obj _, .null | .obj _, .bool _ | .obj _, .num _ | .obj _, .str _ | .obj _, .arr _ =>
    .isFalse (by simp)
def decEqItems : (xs ys : List Json) → Decidable (xs = ys)
  | [], [] => .isTrue rfl
  | [], _::_ | _::_, [] => .isFalse (by simp)
  | x::xs, y::ys =>
    match decEq x y, decEqItems xs ys with
    | .isTrue hx, .isTrue hxs => .isTrue (by rw [hx,hxs])
    | .isFalse hx, _ => .isFalse (by simp [hx])
    | _, .isFalse hxs => .isFalse (by simp [hxs])
def decEqFields : (xs ys : List (String × Json)) → Decidable (xs = ys)
  | [], [] => .isTrue rfl
  | [], _::_ | _::_, [] => .isFalse (by simp)
  | (k,x)::xs, (l,y)::ys =>
    match (inferInstance : Decidable (k = l)), decEq x y, decEqFields xs ys with
    | .isTrue hk, .isTrue hx, .isTrue hxs => .isTrue (by rw [hk,hx,hxs])
    | .isFalse hk, _, _ => .isFalse (by simp [hk])
    | _, .isFalse hx, _ => .isFalse (by simp [hx])
    | _, _, .isFalse hxs => .isFalse (by simp [hxs])
end
instance : DecidableEq Json := decEq

/-- `Value::as_object`. -/
def asObject : Json → Option (List (String × Json))
  | .obj fields => some fields
  | _ => none

def containsKey (fields : List (String × Json)) (key : String) : Bool := fields.any (·.1 = key)

/-- `Value::get` with a column name. -/
def get (value : Json) (key : String) : Option Json := value.asObject.bind (·.lookup key)

/-- `Map::insert` on the key-sorted field list. -/
def insertField (key : String) (value : Json) : List (String × Json) → List (String × Json)
  | [] => [(key,value)]
  | (k,v)::fields =>
    if key = k then (key,value)::fields
    else if key < k then (key,value)::(k,v)::fields
    else (k,v)::insertField key value fields

lemma lookup_insertField_ne {column k : String} (hn : column ≠ k) (v : Json) (fs : List (String × Json)) :
    (insertField k v fs).lookup column = fs.lookup column := by
  induction fs with
  | nil => simp [insertField,List.lookup,beq_eq_false_iff_ne.mpr hn]
  | cons f fs ih =>
    rw [insertField]
    split
    · rename_i hk
      subst hk
      simp [List.lookup,beq_eq_false_iff_ne.mpr hn]
    · split
      · simp [List.lookup,beq_eq_false_iff_ne.mpr hn]
      · simp only [List.lookup,ih]

lemma lookup_insertField_self (k : String) (value : Json) (fs : List (String × Json)) :
    (insertField k value fs).lookup k = some value := by
  induction fs with
  | nil => simp [insertField]
  | cons f fs ih =>
    rw [insertField]
    split
    · simp
    · split
      · simp
      · rename_i hk _
        rw [List.lookup,beq_eq_false_iff_ne.mpr hk]
        exact ih

/-- The two-digit lowercase hexadecimal tail of a control-character escape. -/
def hexByte (n : ℕ) : List Char := [Nat.digitChar (n/16),Nat.digitChar (n%16)]

def escapeChar (c : Char) : List Char :=
  if c = '"' then ['\\','"']
  else if c = '\\' then ['\\','\\']
  else if c = '\x08' then ['\\','b']
  else if c = '\x0c' then ['\\','f']
  else if c = '\n' then ['\\','n']
  else if c = '\r' then ['\\','r']
  else if c = '\t' then ['\\','t']
  else if c.toNat < 32 then ['\\','u','0','0']++hexByte c.toNat
  else [c]

def renderString (s : String) : List Char := '"'::(s.toList.flatMap escapeChar++['"'])

mutual
/-- `serde_json::to_string`, as characters. -/
def render : Json → List Char
  | .null => ['n','u','l','l']
  | .bool true => ['t','r','u','e']
  | .bool false => ['f','a','l','s','e']
  | .num n => n.text
  | .str s => renderString s
  | .arr items => '['::(renderItems items++[']'])
  | .obj fields => '\x7b'::(renderFields fields++['\x7d'])
def renderItems : List Json → List Char
  | [] => []
  | [item] => render item
  | item::items => render item++ ','::renderItems items
def renderFields : List (String × Json) → List Char
  | [] => []
  | [(key,value)] => renderString key++ ':'::render value
  | (key,value)::fields => renderString key++ ':'::(render value++ ','::renderFields fields)
end
def renderLen (value : Json) : ℕ := (String.ofList value.render).utf8ByteSize
end Json
end Rustcdc
