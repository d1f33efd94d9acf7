import Rustcdc.Core.Basic
import Rustcdc.Lib.Paging

/-! The key values a SQL Server snapshot pages by: written by the server as JSON, read back, kept as the
cursor and sent as parameters of the next query. -/
namespace Rustcdc.Sqlserver
open List Paging

/-- A value of a key column as the server writes it: a bit, an exact number by its digits and scale, or
a text (strings, dates and identifiers). -/
inductive KeyValue
  | bit (flag : Bool)
  | number (digits : ℤ) (scale : ℕ)
  | text (value : String)

/-- The doubles of the JSON reader: for a number's text, and for a 64-bit integer. -/
structure Doubles where
  parse : ℤ → ℕ → ℚ
  ofInt : ℤ → ℚ

/-- A JSON number as the reader holds it: a 64-bit integer or a double. -/
inductive Number
  | int (value : ℤ)
  | float (value : ℚ)

inductive CursorJson
  | null
  | bool (flag : Bool)
  | number (value : Number)
  | string (text : String)
  | nested

/-- A number without a fraction that fits `i64` or `u64` stays an integer, any other is a double. -/
def KeyValue.toJson (doubles : Doubles) : KeyValue → CursorJson
  | .bit flag => .bool flag
  | .number digits scale =>
    if scale = 0 ∧ -2^63 ≤ digits ∧ digits < 2^64 then .number (.int digits)
    else .number (.float (doubles.parse digits scale))
  | .text value => .string value

inductive CursorParam
  | bool (flag : Bool)
  | int (value : ℤ)
  | float (value : ℚ)
  | text (value : String)

/-- The incremental snapshot's conversion. -/
def jsonValueToCursorParam (doubles : Doubles) : CursorJson → Except Error CursorParam
  | .null => .error (.checkpointError "sqlserver incremental snapshot cursor does not support NULL pk values")
  | .bool flag => .ok (.bool flag)
  | .number (.int value) =>
    .ok (if value < 2^63 then .int value else .float (doubles.ofInt value))
  | .number (.float value) => .ok (.float value)
  | .string text => .ok (.text text)
  | .nested => .error (.checkpointError "sqlserver incremental snapshot: only scalar pk values are supported")

/-- The bulk snapshot's conversion. -/
def sqlserverJsonValueToParam : CursorJson → Except Error CursorParam
  | .null => .error (.checkpointError "sqlserver snapshot cursor does not support NULL primary key values")
  | .bool flag => .ok (.bool flag)
  | .number (.int value) =>
    if value < 2^63 then .ok (.int value)
    else .error (.checkpointError "sqlserver snapshot cursor integer exceeds i64")
  | .number (.float value) => .ok (.float value)
  | .string text => .ok (.text text)
  | .nested => .error (.checkpointError "sqlserver snapshot cursor only supports scalar PK values")

def KeyValue.Denotes : KeyValue → CursorParam → Prop
  | .bit flag, .bool sent => sent = flag
  | .number digits scale, .int sent => (sent : ℚ) = digits/10^scale
  | .number digits scale, .float sent => sent = digits/10^scale
  | .text value, .text sent => sent = value
  | _, _ => False

/-- The two snapshots convert the cursor each in its own way. -/
inductive Conversion
  | incremental | bulk
  deriving DecidableEq

def Conversion.convert (doubles : Doubles) : Conversion → CursorJson → Except Error CursorParam
  | .incremental => jsonValueToCursorParam doubles
  | .bulk => sqlserverJsonValueToParam

/-- A number is a 64-bit signed integer, an unsigned one that the incremental snapshot sends as an exact
double, or has an exact double itself. -/
def KeyValue.Exact (doubles : Doubles) (path : Conversion) : KeyValue → Prop
  | .number digits scale =>
    if scale = 0 ∧ -2^63 ≤ digits ∧ digits < 2^64 then
      digits < 2^63 ∨ path = .incremental ∧ doubles.ofInt digits = digits
    else doubles.parse digits scale = digits/10^scale
  | _ => True

/-- The parameters of the query behind a row: its key written, read and converted. -/
def cursorParams (doubles : Doubles) (path : Conversion) (key : List KeyValue) : Except Error (List CursorParam) :=
  key.mapM fun value => path.convert doubles (value.toJson doubles)

variable {doubles : Doubles} {path : Conversion}

/-- A value is sent as it is exactly under the condition. -/
lemma converted_iff {v : KeyValue} :
    (∃ param, path.convert doubles (v.toJson doubles) = .ok param ∧ v.Denotes param) ↔ v.Exact doubles path := by
  cases v with
  | bit flag | text v => cases path <;> exact iff_of_true ⟨_,rfl,rfl⟩ trivial
  | number ds scale =>
    rw [KeyValue.Exact,KeyValue.toJson]
    by_cases hi : scale = 0 ∧ -2^63 ≤ ds ∧ ds < 2^64
    · rw [if_pos hi,if_pos hi]
      obtain ⟨rfl,-⟩ := hi
      by_cases hl : ds < 2^63
      · refine iff_of_true ⟨.int ds,?_,by simp [KeyValue.Denotes]⟩ (.inl hl)
        cases path
        · rw [Conversion.convert,jsonValueToCursorParam,if_pos hl]
        · rw [Conversion.convert,sqlserverJsonValueToParam,if_pos hl]
      · rw [or_iff_right hl]
        cases path
        · rw [Conversion.convert,jsonValueToCursorParam,if_neg hl]
          simp [KeyValue.Denotes]
        · rw [Conversion.convert,sqlserverJsonValueToParam,if_neg hl]
          simp
    · rw [if_neg hi,if_neg hi]
      cases path <;> simp [Conversion.convert,jsonValueToCursorParam,sqlserverJsonValueToParam,KeyValue.Denotes]

lemma cursorParams_iff {vs : List KeyValue} :
    (∃ params, cursorParams doubles path vs = .ok params ∧ List.Forall₂ KeyValue.Denotes vs params) ↔
      ∀ v ∈ vs, v.Exact doubles path := by
  induction vs with
  | nil => exact iff_of_true ⟨[],rfl,.nil⟩ (by simp)
  | cons v vs ih =>
    rw [forall_mem_cons,← converted_iff,← ih]
    unfold cursorParams
    rw [mapM_cons]
    constructor
    · rintro ⟨params,hp,hd⟩
      obtain ⟨p,hv,hr⟩ := except_bind_ok hp
      obtain ⟨ps,hps,hr⟩ := except_bind_ok hr
      cases hr
      cases hd with
      | cons hd hds => exact ⟨⟨p,hv,hd⟩,ps,hps,hds⟩
    · rintro ⟨⟨p,hv,hd⟩,ps,hps,hds⟩
      refine ⟨p::ps,?_,.cons hd hds⟩
      rw [hv,hps]
      rfl
section
variable {ρ : Type} [LinearOrder (List KeyValue)]

/-- The rows of the next query; `read` is how the server takes the parameters. -/
def nextRows (doubles : Doubles) (path : Conversion) (read : List CursorParam → List KeyValue)
    (key : ρ → List KeyValue) (rows : List ρ) (limit : ℕ) : Option (List KeyValue) → List ρ
  | none => page key rows limit none
  | some cursor =>
    match cursorParams doubles path cursor with
    | .error _ => []
    | .ok params => page key rows limit (some (read params))

/-- The cursor of a row denotes its key exactly if each number in it is a 64-bit signed integer, or is
sent as a double that is this number; and if so for all rows, the queries read every row once and in
order. -/
theorem key_cursors_exact (doubles : Doubles) (path : Conversion) {read : List CursorParam → List KeyValue}
    {key : ρ → List KeyValue}
    (hread : ∀ row params, List.Forall₂ KeyValue.Denotes (key row) params → read params = key row) :
    (∀ row, (∃ params, cursorParams doubles path (key row) = .ok params ∧
      List.Forall₂ KeyValue.Denotes (key row) params) ↔ ∀ value ∈ key row, value.Exact doubles path) ∧
    ((∀ row, ∀ value ∈ key row, value.Exact doubles path) →
      ∀ rows limit n, (rows.map key).Pairwise (· < ·) → 0 < limit → rows.length ≤ n →
        (pages key (nextRows doubles path read key rows limit) n none).flatten = rows) := by
  refine ⟨fun row => cursorParams_iff,fun he rows limit n hs hl hn => ?_⟩
  have hp : pages key (nextRows doubles path read key rows limit) n none =
      pages key (page key rows limit) n none := by
    refine pages_congr (fun row => ?_) n rfl
    obtain ⟨params,hp,hd⟩ := cursorParams_iff.mpr (he row)
    rw [nextRows,hp,← hread row params hd]
  have ha : rows.filter (past key none) = rows := filter_eq_self.mpr fun _ _ => rfl
  rw [hp,flatten_pages hs hl (by rw [ha]; exact hn),ha]
end
/-- The double nearest to a positive fraction, of two the even one. -/
def nearest (n d : ℕ) : ℚ :=
  -- the quotient with some bits to spare, cut to 53
  let shift := Nat.log2 d+54
  let quotient := n*2^shift/d
  let cut := Nat.log2 quotient-52
  let kept := quotient/2^cut
  let rest := quotient%2^cut
  let up := 2^(cut-1) < rest ∨ rest = 2^(cut-1) ∧ (n*2^shift%d ≠ 0 ∨ kept%2 = 1)
  ((if up then kept+1 else kept)*2^cut : ℕ)/2^shift

def nearestInt (n : ℕ) : ℕ := (nearest n 1).num.natAbs

/-- The doubles of `serde_json` as it is built here: the leading digits that fit `u64` as a double, times
or over a power of ten, each step rounded. -/
def jsonDoubles : Doubles where
  parse digits scale :=
    let dropped := ((List.range 39).find? fun k => digits.natAbs/10^k < 2^64).getD 0
    let significand := nearestInt (digits.natAbs/10^dropped)
    let value := if scale ≤ dropped then nearest (significand*nearestInt (10^(dropped-scale))) 1
      else nearest significand (nearestInt (10^(scale-dropped)))
    if digits < 0 then -value else value
  ofInt value := nearest value.toNat 1

/-- Bits before numbers before texts. -/
def KeyValue.place : KeyValue → ℕ ×ₗ (ℤ ×ₗ (ℕ ×ₗ String))
  | .bit flag => toLex (0,toLex (if flag then 1 else 0,toLex (0,"")))
  | .number digits scale => toLex (1,toLex (digits,toLex (scale,"")))
  | .text value => toLex (2,toLex (0,toLex (0,value)))

lemma KeyValue.place_injective : Function.Injective KeyValue.place := by
  intro a b h
  cases a <;> cases b <;> simp_all [KeyValue.place]
  split_ifs at h <;> simp_all

/-- An order of the keys. -/
@[reducible] def keyOrder : LinearOrder (List KeyValue) :=
  LinearOrder.lift' (fun key : List KeyValue => key.map KeyValue.place)
    (List.map_injective_iff.mpr KeyValue.place_injective)

/-- Two rows with a `bigint` and a text for their key. -/
def orderKey (later : Bool) : List KeyValue := [.number (if later then 8 else 7) 0,.text "a"]

/-- The server takes a parameter for the value it denotes. -/
def readParams (params : List CursorParam) : List KeyValue := params.map fun
  | .bool flag => .bit flag
  | .int value => .number value 0
  | .float value => .number value.floor 0
  | .text value => .text value

lemma readParams_orderKey (row : Bool) (params : List CursorParam)
    (h : List.Forall₂ KeyValue.Denotes (orderKey row) params) : readParams params = orderKey row := by
  cases h with
  | @cons _ first _ _ hf hr =>
    cases hr with
    | @cons _ second _ _ hs hn =>
      cases hn
      cases second with
      | text value =>
        obtain rfl : value = "a" := hs
        cases first with
        | int value =>
          have hv : (value : ℚ) = ((if row then 8 else 7 : ℤ) : ℚ) := by simpa [KeyValue.Denotes] using hf
          rw [Int.cast_injective hv]
          rfl
        | float value =>
          have hv : value = ((if row then 8 else 7 : ℤ) : ℚ) := by simpa [KeyValue.Denotes] using hf
          have hfl : value.floor = if row then 8 else 7 := by rw [hv,Rat.floor_intCast]
          simp [readParams,orderKey,hfl]
        | bool | text => cases hf
      | bool | int | float => cases hs

/-- The second page is asked for from behind the first row. -/
theorem key_cursors_exact_sample :
    letI := keyOrder
    (pages orderKey (nextRows jsonDoubles .bulk readParams orderKey [false,true] 1) 2 none) = [[false],[true]] ∧
      (pages orderKey (nextRows jsonDoubles .bulk readParams orderKey [false,true] 1) 2 none).flatten =
        [false,true] := by
  let _ := keyOrder
  have hlt : orderKey false < orderKey true := by decide +kernel
  have he : ∀ row, ∀ value ∈ orderKey row, value.Exact jsonDoubles .bulk := by
    intro row
    cases row <;> simp [orderKey,KeyValue.Exact]
  have h := (key_cursors_exact jsonDoubles .bulk readParams_orderKey).2 he [false,true] 1 2 (by simpa using hlt)
    (by decide) (by decide)
  exact ⟨by decide +kernel,h⟩

/-- The cursor of `9007199254740993.0` is the number after it, which the next query skips; for an integer
past `i64` the bulk snapshot has no cursor. -/
theorem long_number_rounded :
    (∃ param, jsonValueToCursorParam jsonDoubles ((KeyValue.number 90071992547409930 1).toJson jsonDoubles) =
        .ok param ∧ sqlserverJsonValueToParam ((KeyValue.number 90071992547409930 1).toJson jsonDoubles) =
        .ok param ∧ ¬ (KeyValue.number 90071992547409930 1).Denotes param ∧
        (KeyValue.number 90071992547409940 1).Denotes param) ∧
      ∃ e, sqlserverJsonValueToParam ((KeyValue.number (2^63) 0).toJson jsonDoubles) = .error e := by
  have hp : jsonDoubles.parse 90071992547409930 1 = 9007199254740994 := by decide +kernel
  refine ⟨⟨.float 9007199254740994,?_,?_,?_,?_⟩,_,rfl⟩
  · simp [KeyValue.toJson,jsonValueToCursorParam,hp]
  · simp [KeyValue.toJson,sqlserverJsonValueToParam,hp]
  · rw [KeyValue.Denotes]
    norm_num
  · rw [KeyValue.Denotes]
    norm_num
end Rustcdc.Sqlserver
