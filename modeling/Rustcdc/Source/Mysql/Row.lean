import Rustcdc.Core.Bytes
import Rustcdc.Source.Mysql.Stream

/-! Rows as the MySQL client hands them over, and the two ways they become JSON: by value alone,
as chunk reads do, and by value and column, as the binlog decoder does. -/
namespace Rustcdc.Mysql
open List Framing

/-- The column types the conversion looks at; `character` stands for every type
`is_character_type` holds of. -/
inductive ColumnType
  | date
  | newDate
  | dateTime
  | timestamp
  | dateTime2
  | timestamp2
  | enum
  | set
  | character
  | other
  deriving DecidableEq

/-- A client value; a floating-point number is given by its text. -/
inductive MysqlValue
  | null
  | bytes (value : Bytes)
  | int (value : Int64)
  | uint (value : UInt64)
  | float (text : String)
  | double (text : String)
  | date (year : UInt16) (month day hour minute second : UInt8) (micros : UInt32)
  | time (neg : Bool) (days : UInt32) (hours minutes seconds : UInt8) (micros : UInt32)
  deriving DecidableEq

structure MysqlColumn where
  name : String
  columnType : ColumnType
  characterSet : UInt16
  isPrimaryKey : Bool

/-- Each column with its value, if the row still holds one. -/
abbrev MysqlRow := List (MysqlColumn × Option MysqlValue)

/-- A field of a format text, `{:0width}`. -/
def digits (width n : ℕ) : List Char := padZeros width (formatNat 10 n)
def signed (negative : Bool) (cs : List Char) : List Char := if negative then '-'::cs else cs
def calendarDay (year : UInt16) (month day : UInt8) : List Char :=
  digits 4 year.toNat++ '-'::(digits 2 month.toNat++ '-'::digits 2 day.toNat)
def clockTime (hour minute second : UInt8) : List Char :=
  digits 2 hour.toNat++ ':'::(digits 2 minute.toNat++ ':'::digits 2 second.toNat)

/-- Lowercase hex without a marker in front. -/
def hexEncode (bytes : Bytes) : List Char := bytes.flatMap fun byte => Json.hexByte byte.toNat
def fromUtf8 (bytes : Bytes) : Option String := String.fromUTF8? bytes.toByteArray

/-- A value rendered by itself, in the widest form. -/
def widest : MysqlValue → Json
  | .null => .null
  | .bytes value => .str ((fromUtf8 value).getD (String.ofList (hexEncode value)))
  | .int value => .str (String.ofList (signed (value.toInt < 0) (digits 0 value.toInt.natAbs)))
  | .uint value => .str (String.ofList (digits 0 value.toNat))
  | .float text => .str text
  | .double text => .str text
  | .date year month day hour minute second micros =>
    .str (String.ofList (calendarDay year month day++ 'T'::
      (clockTime hour minute second++ '.'::digits 6 micros.toNat)))
  | .time neg days hours minutes seconds micros =>
    .str (String.ofList (signed neg (digits 0 days.toNat++ ':'::
      (clockTime hours minutes seconds++ '.'::digits 6 micros.toNat))))

def mysqlValueToJsonTyped (value : MysqlValue) (columnType : Option ColumnType) : Json :=
  match value with
  | .date year month day hour minute second micros =>
    match columnType with
    | some .date | some .newDate => .str (String.ofList (calendarDay year month day))
    | some .dateTime | some .timestamp | some .dateTime2 | some .timestamp2 =>
      if micros = 0 then
        .str (String.ofList (calendarDay year month day++ 'T'::clockTime hour minute second))
      else widest value
    | _ => widest value
  | _ => widest value

def mysqlValueToJson (value : MysqlValue) : Json := mysqlValueToJsonTyped value none

/-- MySQL's collation id for the `binary` character set. -/
def mysqlBinaryCharset : UInt16 := 63

def isBinaryColumn (columnType : ColumnType) (charset : UInt16) : Bool :=
  columnType = .character && charset = mysqlBinaryCharset

def mysqlValueToJsonForColumn (value : MysqlValue) (columnType : ColumnType) (charset : UInt16) : Json :=
  match value with
  | .bytes bytes =>
    if isBinaryColumn columnType charset then .str (String.ofList (hexEncode bytes))
    else mysqlValueToJsonTyped value (some columnType)
  | _ => mysqlValueToJsonTyped value (some columnType)

/-- The labels of the ENUM columns and of the SET columns, each in table order. -/
structure EnumSetLabels where
  enums : List (List String)
  sets : List (List String)

namespace EnumSetLabels
def isEmpty (labels : EnumSetLabels) : Bool := labels.enums.isEmpty && labels.sets.isEmpty

variable (labels : EnumSetLabels)

/-- Variants are numbered from one; zero is the invalid value. -/
def enumLabel (enumIndex : ℕ) (ordinal : UInt64) : Option String := (labels.enums[enumIndex]?).bind fun variants =>
    if ordinal = 0 then some "" else variants[ordinal.toNat-1]?

def setLabels (setIndex : ℕ) (mask : UInt64) : Option String := (labels.sets[setIndex]?).map fun variants =>
    ",".intercalate ((variants.zipIdx.filter fun entry =>
      mask &&& (1 <<< UInt64.ofNat entry.2) ≠ 0).map (·.1))
end EnumSetLabels
/-- `u64::try_from` of a signed number. -/
def unsignedOf (value : Int64) : Option UInt64 :=
  if value.toInt < 0 then none else some (UInt64.ofNat value.toInt.toNat)

def numericValue : MysqlValue → Option UInt64
  | .int value => unsignedOf value
  | .uint value => some value
  | .bytes bytes =>
    (fromUtf8 bytes).bind fun text => (parseU64 (trim text.toList)).map UInt64.ofNat
  | _ => none

/-- Up to eight bytes, least significant first. -/
def bitmaskOf : Bytes → UInt64
  | [] => 0
  | byte::bytes => byte.toUInt64 ||| (bitmaskOf bytes <<< 8)

def bitmaskValue : MysqlValue → Option UInt64
  | .int value => unsignedOf value
  | .uint value => some value
  | .bytes bytes => if bytes.isEmpty || 8 < bytes.length then none else some (bitmaskOf bytes)
  | _ => none

/-- A resolved label, else the value by its type, else null. -/
def labelOr (label : Option String) (value : Option MysqlValue) (columnType : ColumnType) : Json :=
  ((label.map Json.str).or (value.map (mysqlValueToJsonTyped · (some columnType)))).getD .null
section
/-- The value of one column as the row's own metadata has it. -/
def columnJson (column : MysqlColumn) (value : Option MysqlValue) : Json :=
  (value.map (mysqlValueToJsonForColumn · column.columnType column.characterSet)).getD .null

/-- The fields of a row; ENUM and SET columns each have a running index into their labels. -/
def labelledFields (labels : EnumSetLabels) : ℕ → ℕ → MysqlRow → List (String × Json)
  | _, _, [] => []
  | enumIndex, setIndex, (column,value)::row =>
    match column.columnType with
    | .enum =>
      (column.name,labelOr ((value.bind numericValue).bind (labels.enumLabel enumIndex)) value .enum)::
        labelledFields labels (enumIndex+1) setIndex row
    | .set =>
      (column.name,labelOr ((value.bind bitmaskValue).bind (labels.setLabels setIndex)) value .set)::
        labelledFields labels enumIndex (setIndex+1) row
    | _ => (column.name,columnJson column value)::labelledFields labels enumIndex setIndex row

/-- The object a map holds after the fields are inserted in order. -/
def objectOf (fields : List (String × Json)) : Json :=
  .obj (fields.foldl (fun map field => Json.insertField field.1 field.2 map) [])

variable (row : MysqlRow)

/-- `mysql_row_to_json` of the binlog decoder. -/
def mysqlRowToJson : Json := objectOf (row.map fun cell => (cell.1.name,columnJson cell.1 cell.2))

def mysqlRowToJsonWithLabels (labels : EnumSetLabels) : Json :=
  if labels.isEmpty then mysqlRowToJson row else objectOf (labelledFields labels 0 0 row)

/-- `mysql_row_to_json` of the chunk reader. -/
def chunkRowToJson : Json := objectOf (row.map fun cell => (cell.1.name,(cell.2.map mysqlValueToJson).getD .null))

def primaryKeyColumnsFromRow : Option (List String) :=
  let keys := (row.filter (·.1.isPrimaryKey)).map (·.1.name)
  if keys.isEmpty then none else some keys

def decodeRowChange (database table : String) (labels : EnumSetLabels)
    (before after : Option MysqlRow) : MysqlRowChange where
  schema := some database
  table := table
  primaryKey := (before.bind primaryKeyColumnsFromRow).or (after.bind primaryKeyColumnsFromRow)
  before := before.map (mysqlRowToJsonWithLabels · labels)
  after := after.map (mysqlRowToJsonWithLabels · labels)
end
section
/-- The column of a row that an object built from it shows under the name: the last one. -/
def cellNamed (name : String) : MysqlRow → Option (MysqlColumn × Option MysqlValue)
  | [] => none
  | cell::row => (cellNamed name row).or (if cell.1.name = name then some cell else none)

lemma lookup_objectOf_from (na : String) (fs map : List (String × Json)) :
    (fs.foldl (fun map f => Json.insertField f.1 f.2 map) map).lookup na =
      ((objectOf fs).get na).or (map.lookup na) := by
  induction fs using List.reverseRecOn generalizing map with
  | nil => simp [objectOf,Json.get,Json.asObject]
  | append_singleton fs f ih =>
    simp only [objectOf,Json.get,Json.asObject,Option.bind_some,foldl_append,foldl_cons,foldl_nil] at ih ⊢
    by_cases hn : na = f.1
    · subst hn
      rw [Json.lookup_insertField_self,Json.lookup_insertField_self]
      rfl
    · rw [Json.lookup_insertField_ne hn,Json.lookup_insertField_ne hn]
      exact ih map

lemma get_objectOf_cons (na : String) (f : String × Json) (fs : List (String × Json)) :
    (objectOf (f::fs)).get na = ((objectOf fs).get na).or (if f.1 = na then some f.2 else none) := by
  have h := lookup_objectOf_from na fs [f]
  have ho : [f].lookup na = if f.1 = na then some f.2 else none := by
    by_cases hn : f.1 = na
    · simp [List.lookup,hn]
    · rw [if_neg hn,List.lookup,beq_eq_false_iff_ne.mpr (Ne.symm hn)]
      rfl
  rw [ho] at h
  exact h

/-- An object built column by column shows, under each name, the last column of that name. -/
theorem get_objectOf_map (f : MysqlColumn → Option MysqlValue → Json) (na : String) (row : MysqlRow) :
    (objectOf (row.map fun cell => (cell.1.name,f cell.1 cell.2))).get na =
      (cellNamed na row).map fun cell => f cell.1 cell.2 := by
  induction row with
  | nil => rfl
  | cons cell row ih =>
    rw [map_cons,get_objectOf_cons,ih,cellNamed]
    cases cellNamed na row with
    | some => rfl
    | none => split <;> rfl

variable {l : EnumSetLabels} {row : MysqlRow} {n : String}
section
variable (hp : ∀ cell ∈ cellNamed n row, cell.1.columnType ≠ .enum ∧ cell.1.columnType ≠ .set)
include hp

/-- ENUM and SET columns are the only ones whose place in the row matters. -/
theorem get_labelledFields (enumIndex setIndex : ℕ) : (objectOf (labelledFields l enumIndex setIndex row)).get n =
      (cellNamed n row).map fun cell => columnJson cell.1 cell.2 := by
  induction row generalizing enumIndex setIndex with
  | nil => rfl
  | cons cell row ih =>
    obtain ⟨c,v⟩ := cell
    rw [cellNamed] at hp ⊢
    cases hf : cellNamed n row with
    | some =>
      rw [hf] at hp ih
      have ht := ih hp
      rw [labelledFields]
      split <;> rw [get_objectOf_cons,ht] <;> rfl
    | none =>
      rw [hf] at hp ih
      have ht := ih (by simp)
      by_cases hn : c.name = n
      · rw [if_pos hn] at hp ⊢
        obtain ⟨he,hs⟩ := hp (c,v) rfl
        rw [labelledFields]
        split
        · exact absurd ‹_› he
        · exact absurd ‹_› hs
        · rw [get_objectOf_cons,ht,if_pos hn]
          rfl
      · rw [if_neg hn]
        rw [labelledFields]
        split <;> rw [get_objectOf_cons,ht,if_neg hn] <;> rfl

lemma get_mysqlRowToJsonWithLabels : (mysqlRowToJsonWithLabels row l).get n =
      (cellNamed n row).map fun cell => columnJson cell.1 cell.2 := by
  rw [mysqlRowToJsonWithLabels]
  split
  · exact get_objectOf_map columnJson n row
  · exact get_labelledFields hp 0 0
end
lemma get_chunkRowToJson (n : String) (row : MysqlRow) : (chunkRowToJson row).get n =
      (cellNamed n row).map fun cell => (cell.2.map mysqlValueToJson).getD .null :=
  get_objectOf_map (fun _ v => (v.map mysqlValueToJson).getD .null) n row
end
/-- The value looks the same with and without the column's metadata: no label stands for it, the
bytes of a binary column are no text, and a date has all the parts of its widest form. -/
def Plain (column : MysqlColumn) (value : Option MysqlValue) : Prop :=
  column.columnType ≠ .enum ∧ column.columnType ≠ .set ∧
    match value with
    | some (.bytes bytes) =>
      isBinaryColumn column.columnType column.characterSet → fromUtf8 bytes = none
    | some (.date _ _ _ _ _ _ micros) =>
      column.columnType = .character ∨ column.columnType = .other ∨
        (column.columnType ≠ .date ∧ column.columnType ≠ .newDate ∧ micros ≠ 0)
    | _ => True

instance (column : MysqlColumn) (value : Option MysqlValue) : Decidable (Plain column value) := by
  unfold Plain
  split <;> infer_instance

lemma columnJson_plain {c : MysqlColumn} {v : Option MysqlValue}
    (h : Plain c v) : columnJson c v = (v.map mysqlValueToJson).getD .null := by
  obtain ⟨he,hs,hv⟩ := h
  cases v with
  | none => rfl
  | some v =>
    cases v with
    | bytes =>
      dsimp only at hv
      by_cases hb : isBinaryColumn c.columnType c.characterSet = true
      · simp [columnJson,mysqlValueToJsonForColumn,mysqlValueToJson,mysqlValueToJsonTyped,widest,hb,hv hb]
      · simp [columnJson,mysqlValueToJsonForColumn,mysqlValueToJson,mysqlValueToJsonTyped,hb]
    | date =>
      dsimp only at hv
      cases hc : c.columnType <;>
        simp_all [columnJson,mysqlValueToJsonForColumn,mysqlValueToJson,mysqlValueToJsonTyped]
    | null | int | uint | float | double | time =>
      rfl
section
/-- A character that is no digit, so that a field of digits ends at it. -/
def EndsDigits (stop : Char) : Prop := stop ≠ '0' ∧ ∀ d < 16, stop ≠ upperDigit d

instance (stop : Char) : Decidable (EndsDigits stop) := by
  unfold EndsDigits
  infer_instance

lemma EndsDigits.not_mem {stop : Char} (h : EndsDigits stop) (w n : ℕ) : stop ∉ digits w n := by
  intro hm
  rcases mem_append.mp hm with hz | hdi
  · exact h.1 (eq_of_mem_replicate hz)
  · rcases mem_digitsInto (by norm_num) hdi with hn | ⟨d,hd,rfl⟩
    · cases hn
    · exact h.2 d hd rfl

lemma digits_injective {width a b : ℕ} (ha : a < 2^64) (hb : b < 2^64)
    (h : digits width a = digits width b) : a = b := by
  have hr : ∀ n < 2^64, fromStrRadix 10 (2^64) (digits width n) = .ok n := fun n hn =>
    fromStrRadix_pad (by norm_num) width (by omega) hn
  have ho : (Except.ok a : Except String ℕ) = .ok b := by rw [← hr a ha,h,hr b hb]
  exact Except.ok.inj ho

variable {r s : List Char}

lemma digits_tellsApart {stop : Char} (hst : EndsDigits stop) {width a b : ℕ} (ha : a < 2^64)
    (hb : b < 2^64) (h : digits width a++stop::r = digits width b++stop::s) :
    a = b ∧ r = s := by
  have hs : some (digits width a,r) = some (digits width b,s) := by
    rw [← splitOnce_append (hst.not_mem width a),h,splitOnce_append (hst.not_mem width b)]
  obtain ⟨hd,hr⟩ := Prod.mk.inj (Option.some.inj hs)
  exact ⟨digits_injective ha hb hd,hr⟩

lemma byteDigits_tellsApart {stop : Char} (hst : EndsDigits stop) {width : ℕ} {a b : UInt8}
    (h : digits width a.toNat++stop::r = digits width b.toNat++stop::s) : a = b ∧ r = s := by
  have ha := a.toNat_lt
  have hb := b.toNat_lt
  obtain ⟨he,hr⟩ := digits_tellsApart hst (by omega) (by omega) h
  exact ⟨UInt8.toNat_inj.mp he,hr⟩

lemma signed_injective {p q : Bool} {xs ys : List Char} (hx : '-' ∉ xs) (hy : '-' ∉ ys)
    (h : signed p xs = signed q ys) : p = q ∧ xs = ys := by
  cases p <;> cases q <;> dsimp only [signed] at h
  · exact ⟨rfl,h⟩
  · subst h
    simp at hx
  · subst h
    simp at hy
  · exact ⟨rfl,tail_eq_of_cons_eq h⟩

lemma calendarDay_tellsApart {y y' : UInt16} {m m' d d' : UInt8}
    (h : calendarDay y m d++ 'T'::r = calendarDay y' m' d'++ 'T'::s) :
    y = y' ∧ m = m' ∧ d = d' ∧ r = s := by
  simp only [calendarDay,append_assoc,cons_append] at h
  obtain ⟨hy,ha⟩ := digits_tellsApart (by decide) (by have := y.toNat_lt; omega) (by have := y'.toNat_lt; omega) h
  obtain ⟨hm,ha⟩ := byteDigits_tellsApart (by decide) ha
  obtain ⟨hd,hr⟩ := byteDigits_tellsApart (by decide) ha
  exact ⟨UInt16.toNat_inj.mp hy,hm,hd,hr⟩

lemma clockTime_tellsApart {a a' b b' c c' : UInt8} (h : clockTime a b c++ '.'::r = clockTime a' b' c'++ '.'::s) :
    a = a' ∧ b = b' ∧ c = c' ∧ r = s := by
  simp only [clockTime,append_assoc,cons_append] at h
  obtain ⟨ha,haf⟩ := byteDigits_tellsApart (by decide) h
  obtain ⟨hb,haf⟩ := byteDigits_tellsApart (by decide) haf
  obtain ⟨hc,hr⟩ := byteDigits_tellsApart (by decide) haf
  exact ⟨ha,hb,hc,hr⟩

lemma hexByte_tellsApart (a b : UInt8) : TellsApart (fun byte : UInt8 => Json.hexByte byte.toNat) a b := by
  refine TellsApart.of_length rfl fun h => ?_
  have hr : ∀ n < 16, Json.hexValue (Nat.digitChar n) = n := by decide
  obtain ⟨hh,ht⟩ := List.cons.inj h
  have hl := head_eq_of_cons_eq ht
  have ha := a.toNat_lt
  have hb := b.toNat_lt
  have hd : a.toNat/16 = b.toNat/16 := by
    rw [← hr (a.toNat/16) (by omega),hh,hr (b.toNat/16) (by omega)]
  have hm : a.toNat%16 = b.toNat%16 := by
    rw [← hr (a.toNat%16) (by omega),hl,hr (b.toNat%16) (by omega)]
  exact UInt8.toNat_inj.mp (by omega)

lemma hexEncode_injective : Function.Injective hexEncode :=
  flatMap_injective hexByte_tellsApart fun _ => cons_ne_nil _ _

lemma fromUtf8_injective {a b : Bytes} {s : String} (ha : fromUtf8 a = some s)
    (hb : fromUtf8 b = some s) : a = b := by
  have hby : ∀ {bs : Bytes}, fromUtf8 bs = some s → s.toByteArray = bs.toByteArray := by
    intro bs h
    unfold fromUtf8 String.fromUTF8? at h
    split at h
    · rw [← Option.some.inj h]
      rfl
    · cases h
  have he : a.toByteArray = b.toByteArray := (hby ha).symm.trans (hby hb)
  have hl := congrArg (fun bs : ByteArray => bs.data.toList) he
  simpa using hl

/-- Two values a column can hold side by side: of one kind, and bytes that are both text or both
not. -/
def Alike : MysqlValue → MysqlValue → Prop
  | .bytes a, .bytes b => (fromUtf8 a).isSome = (fromUtf8 b).isSome
  | .int _, .int _ | .uint _, .uint _ | .float _, .float _ | .double _, .double _
  | .date .., .date .. | .time .., .time .. => True
  | _, _ => False

lemma bytes_widest_injective {a b : Bytes} (hal : (fromUtf8 a).isSome = (fromUtf8 b).isSome)
    (h : widest (.bytes a) = widest (.bytes b)) : a = b := by
  have ht := Json.str.inj h
  cases ha : fromUtf8 a with
  | some s =>
    cases hb : fromUtf8 b with
    | some t =>
      rw [ha,hb] at ht
      have hs : s = t := ht
      exact fromUtf8_injective ha (hs ▸ hb)
    | none => simp [ha,hb] at hal
  | none =>
    cases hb : fromUtf8 b with
    | some => simp [ha,hb] at hal
    | none =>
      rw [ha,hb] at ht
      exact hexEncode_injective (String.ofList_injective ht)

lemma date_widest_injective {y y' : UInt16} {m m' d d' h h' i i' s s' : UInt8} {u u' : UInt32}
    (he : widest (.date y m d h i s u) = widest (.date y' m' d' h' i' s' u')) :
    MysqlValue.date y m d h i s u = .date y' m' d' h' i' s' u' := by
  obtain ⟨rfl,rfl,rfl,hc⟩ := calendarDay_tellsApart (String.ofList_injective (Json.str.inj he))
  obtain ⟨rfl,rfl,rfl,hm⟩ := clockTime_tellsApart hc
  have hu := digits_injective (by have := u.toNat_lt; omega) (by have := u'.toNat_lt; omega) hm
  rw [UInt32.toNat_inj.mp hu]

lemma time_widest_injective {n n' : Bool} {d d' : UInt32} {h h' i i' s s' : UInt8}
    {u u' : UInt32} (he : widest (.time n d h i s u) = widest (.time n' d' h' i' s' u')) :
    MysqlValue.time n d h i s u = .time n' d' h' i' s' u' := by
  have hm : ∀ (d : UInt32) (h i s : UInt8) (u : UInt32),
      '-' ∉ digits 0 d.toNat++ ':'::(clockTime h i s++ '.'::digits 6 u.toNat) := by
    intro d h i s u
    have hf : ∀ width n, '-' ∉ digits width n := fun width n =>
      EndsDigits.not_mem (by decide) width n
    simp [clockTime,hf]
  obtain ⟨rfl,hda⟩ := signed_injective (hm _ _ _ _ _) (hm _ _ _ _ _) (String.ofList_injective (Json.str.inj he))
  obtain ⟨hd,hc⟩ := digits_tellsApart (by decide) (by have := d.toNat_lt; omega) (by have := d'.toNat_lt; omega) hda
  obtain ⟨rfl,rfl,rfl,hmi⟩ := clockTime_tellsApart hc
  have hu := digits_injective (by have := u.toNat_lt; omega) (by have := u'.toNat_lt; omega) hmi
  rw [UInt32.toNat_inj.mp hd,UInt32.toNat_inj.mp hu]

lemma int_widest_injective {a b : Int64} (h : widest (.int a) = widest (.int b)) : a = b := by
  have hm : ∀ n, '-' ∉ digits 0 n := EndsDigits.not_mem (by decide) 0
  obtain ⟨hs,hd⟩ := signed_injective (hm _) (hm _) (String.ofList_injective (Json.str.inj h))
  have hb : ∀ n : Int64, n.toInt.natAbs < 2^64 := fun n => by
    have := n.toInt_lt
    have := n.le_toInt
    omega
  have ha := digits_injective (hb a) (hb b) hd
  have hn : a.toInt < 0 ↔ b.toInt < 0 := by simpa using hs
  exact Int64.toInt_inj.mp (by omega)

/-- Rendered by themselves, different values of one kind look different. -/
theorem widest_injective {v w : MysqlValue} (ha : Alike v w) (h : widest v = widest w) : v = w := by
  cases v with
  | null => cases w <;> cases ha
  | bytes =>
    cases w with
    | bytes => rw [bytes_widest_injective ha h]
    | _ => cases ha
  | int =>
    cases w with
    | int => rw [int_widest_injective h]
    | _ => cases ha
  | uint a =>
    cases w with
    | uint b =>
      have hd := digits_injective a.toNat_lt b.toNat_lt (String.ofList_injective (Json.str.inj h))
      rw [UInt64.toNat_inj.mp hd]
    | _ => cases ha
  | float =>
    cases w with
    | float => rw [Json.str.inj h]
    | _ => cases ha
  | double =>
    cases w with
    | double => rw [Json.str.inj h]
    | _ => cases ha
  | date =>
    cases w with
    | date => exact date_widest_injective h
    | _ => cases ha
  | time =>
    cases w with
    | time => exact time_widest_injective h
    | _ => cases ha

lemma mysqlValueToJson_eq (value : MysqlValue) : mysqlValueToJson value = widest value := by
  cases value <;> rfl
end
end Rustcdc.Mysql
