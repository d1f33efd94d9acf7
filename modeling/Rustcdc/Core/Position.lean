import Rustcdc.Core.Basic

/-! Source positions and the texts that carry them: PostgreSQL LSNs as `HEX/HEX` and MySQL
binlog coordinates as `<file>:<pos>[#gtid=<gtid>]`. -/
namespace Rustcdc
/-- The value of a digit character, either case. -/
def digitValue (c : Char) : ℕ :=
  let n := c.toNat
  if 48 ≤ n ∧ n ≤ 57 then n-48
  else if 65 ≤ n ∧ n ≤ 90 then n-55
  else if 97 ≤ n ∧ n ≤ 122 then n-87
  else 99

/-- The digit loop of `from_str_radix` on an unsigned type with values below `bound`. -/
def parseDigits (radix bound : ℕ) : ℕ → List Char → Except String ℕ
  | result, [] => .ok result
  | result, c::cs =>
    if radix ≤ digitValue c then .error "invalid digit found in string"
    else if bound ≤ result*radix+digitValue c then
      .error "number too large to fit in target type"
    else parseDigits radix bound (result*radix+digitValue c) cs

def fromStrRadix (radix bound : ℕ) : List Char → Except String ℕ
  | [] => .error "cannot parse integer from empty string"
  | ['+'] | ['-'] => .error "invalid digit found in string"
  | '+'::cs => parseDigits radix bound 0 cs
  | cs => parseDigits radix bound 0 cs

def upperDigit (n : ℕ) : Char := (Nat.digitChar n).toUpper

/-- Digits of `n`, most significant first, in front of `acc`. -/
def digitsInto (radix : ℕ) : ℕ → ℕ → List Char → List Char
  | 0, _, acc => acc
  | fuel+1, n, acc =>
    if n < radix then upperDigit n::acc
    else digitsInto radix fuel (n/radix) (upperDigit (n%radix)::acc)

/-- A machine integer has at most twenty digits in either radix used here. -/
def formatNat (radix n : ℕ) : List Char := digitsInto radix 20 n []
def padZeros (width : ℕ) (cs : List Char) : List Char := List.replicate (width-cs.length) '0'++cs

/-- `strip_prefix`. -/
def stripFront (front cs : List Char) : Option (List Char) :=
  if front.isPrefixOf cs then some (cs.drop front.length) else none
lemma stripFront_append (xs ys : List Char) : stripFront xs (xs++ys) = some ys := by
  simp [stripFront]

/-- `str::split`. -/
def splitOn (sep : Char) : List Char → List (List Char)
  | [] => [[]]
  | c::cs =>
    if c = sep then []::splitOn sep cs
    else
      match splitOn sep cs with
      | [] => [[c]]
      | part::parts => (c::part)::parts

/-- Split at the first occurrence of a character. -/
def splitOnce (sep : Char) : List Char → Option (List Char × List Char)
  | [] => none
  | c::cs => if c = sep then some ([],cs) else (splitOnce sep cs).map fun r => (c::r.1,r.2)

def splitOnceText (sep : List Char) : List Char → Option (List Char × List Char)
  | [] => if sep.isEmpty then some ([],[]) else none
  | c::cs =>
    if sep.isPrefixOf (c::cs) then some ([],(c::cs).drop sep.length)
    else (splitOnceText sep cs).map fun r => (c::r.1,r.2)

/-- `format!("{:X}/{:08X}", lsn >> 32, lsn as u32)`. -/
def formatPgLsn (lsn : UInt64) : String :=
  String.ofList (formatNat 16 (lsn.toNat/2^32)++ '/'::padZeros 8 (formatNat 16 (lsn.toNat%2^32)))

def parsePostgresLsn (value : String) : Except Error UInt64 :=
  match splitOnce '/' value.toList with
  | none => .error (.checkpointError ("invalid postgres LSN offset '"++value++"'; expected HEX/HEX"))
  | some (high,low) =>
    match fromStrRadix 16 (2^64) high with
    | .error e => .error (.checkpointError ("invalid postgres LSN high bits in '"++value++"': "++e))
    | .ok high =>
      match fromStrRadix 16 (2^64) low with
      | .error e => .error (.checkpointError ("invalid postgres LSN low bits in '"++value++"': "++e))
      | .ok low => .ok ((UInt64.ofNat high <<< 32) ||| UInt64.ofNat low)

def gtidMarker : List Char := "#gtid=".toList
def formatMysqlSourceOffset (binlogFile : String) (binlogPos : UInt32) (gtid : String) : String :=
  if gtid.isEmpty then binlogFile++":"++String.ofList (formatNat 10 binlogPos.toNat)
  else binlogFile++":"++String.ofList (formatNat 10 binlogPos.toNat)++"#gtid="++gtid

def parseMysqlStreamOffset (value : String) : Except Error (String × UInt32 × String) :=
  match splitOnce ':' value.toList with
  | none => .error (.checkpointError ("invalid mysql offset '"++value++
        "'; expected <binlog_file>:<binlog_pos>[#gtid=<gtid>]"))
  | some (file,rest) =>
    let parts := (splitOnceText gtidMarker rest).getD (rest,[])
    match fromStrRadix 10 (2^32) parts.1 with
    | .error e => .error (.checkpointError ("invalid mysql binlog position in '"++value++"': "++e))
    | .ok pos => .ok (String.ofList file,UInt32.ofNat pos,String.ofList parts.2)

lemma digitValue_upperDigit {n : ℕ} (h : n < 16) : digitValue (upperDigit n) = n := by
  interval_cases n <;> decide
lemma upperDigit_ne {n : ℕ} (h : n < 16) :
    upperDigit n ≠ '+' ∧ upperDigit n ≠ '-' ∧ upperDigit n ≠ '/' ∧ upperDigit n ≠ '#' := by
  interval_cases n <;> decide
section
variable {r b : ℕ} (hradix : 1 < r ∧ r ≤ 16)
include hradix

lemma mem_digitsInto {c : Char} {k n : ℕ} {acc : List Char}
    (h : c ∈ digitsInto r k n acc) : c ∈ acc ∨ ∃ d < 16, c = upperDigit d := by
  induction k generalizing n acc with
  | zero => exact .inl h
  | succ k ih =>
    rw [digitsInto] at h
    split_ifs at h with hn
    · rcases List.mem_cons.mp h with rfl | h
      · exact .inr ⟨n,by omega,rfl⟩
      · exact .inl h
    · rcases ih h with h | h
      · rcases List.mem_cons.mp h with rfl | h
        · exact .inr ⟨n%r,by have := Nat.mod_lt n (show 0 < r by omega); omega,rfl⟩
        · exact .inl h
      · exact .inr h

omit hradix in
lemma digitsInto_ne_nil (k n : ℕ) (acc : List Char) : digitsInto r (k+1) n acc ≠ [] := by
  induction k generalizing n acc with
  | zero =>
    rw [digitsInto]
    split <;> simp [digitsInto]
  | succ k ih =>
    rw [digitsInto]
    split
    · simp
    · exact ih _ _

lemma parseDigits_digitsInto {fuel n : ℕ} (acc : List Char) (hf : n < r^fuel) (hb : n < b) :
    parseDigits r b 0 (digitsInto r fuel n acc) = parseDigits r b n acc := by
  induction fuel generalizing n acc with
  | zero =>
    have hn : n = 0 := by simpa using hf
    simp [digitsInto,hn]
  | succ fuel ih =>
    rw [digitsInto]
    split_ifs with hn
    · have hd := digitValue_upperDigit (n := n) (by omega)
      rw [parseDigits,hd,if_neg (by omega),if_neg (by omega)]
      simp
    · have hm := Nat.mod_lt n (show 0 < r by omega)
      have hd := digitValue_upperDigit (n := n%r) (by omega)
      have hdi : n/r < r^fuel := by
        rw [Nat.div_lt_iff_lt_mul (by omega),← pow_succ]
        exact hf
      have hr : n/r*r+n%r = n := Nat.div_add_mod' n r
      rw [ih _ hdi (lt_of_le_of_lt (Nat.div_le_self n r) hb),parseDigits,hd,if_neg (by omega),hr,if_neg (by omega)]
end
lemma parseDigits_zeros {radix bo : ℕ} (hradix : 0 < radix) (hb : 0 < bo) (k : ℕ) (cs : List Char) :
    parseDigits radix bo 0 (List.replicate k '0'++cs) = parseDigits radix bo 0 cs := by
  have hd : digitValue '0' = 0 := by decide
  induction k with
  | zero => rfl
  | succ k ih =>
    rw [List.replicate_succ,List.cons_append,parseDigits,hd,if_neg (by omega),if_neg (by omega)]
    simpa using ih

lemma fromStrRadix_eq {radix bo : ℕ} {cs : List Char} (hn : cs ≠ []) (hs : ∀ c ∈ cs, c ≠ '+' ∧ c ≠ '-') :
    fromStrRadix radix bo cs = parseDigits radix bo 0 cs := by
  cases cs with
  | nil => exact absurd rfl hn
  | cons c =>
    unfold fromStrRadix
    split <;> simp_all

variable {xs : List Char} {sep : Char}

lemma splitOnce_append (h : sep ∉ xs) (ys : List Char) : splitOnce sep (xs++sep::ys) = some (xs,ys) := by
  induction xs with
  | nil => simp [splitOnce]
  | cons x xs ih =>
    have hx : x ≠ sep := by rintro rfl; simp at h
    have hxs : sep ∉ xs := fun hm => h (by simp [hm])
    simp [splitOnce,hx,ih hxs]

/-- `rsplit_once`: split at the last occurrence of a character. -/
def rsplitOnce (sep : Char) (cs : List Char) : Option (List Char × List Char) :=
  (splitOnce sep cs.reverse).map fun parts => (parts.2.reverse,parts.1.reverse)

lemma rsplitOnce_append {ys : List Char} (h : sep ∉ ys) (xs : List Char) :
    rsplitOnce sep (xs++sep::ys) = some (xs,ys) := by
  have hse : sep ∉ ys.reverse := by simpa using h
  have hs := splitOnce_append hse xs.reverse
  simp [rsplitOnce,hs]

lemma splitOnce_none (h : sep ∉ xs) : splitOnce sep xs = none := by
  induction xs with
  | nil => rfl
  | cons x xs ih =>
    rw [List.mem_cons,not_or] at h
    rw [splitOnce,if_neg (Ne.symm h.1),ih h.2]
    rfl

lemma splitOnceText_append {c : Char} {sep : List Char} (h : c ∉ xs) (ys : List Char) :
    splitOnceText (c::sep) (xs++(c::sep)++ys) = some (xs,ys) := by
  induction xs with
  | nil => simp [splitOnceText]
  | cons x xs ih =>
    have hx : c ≠ x := by rintro rfl; simp at h
    have hxs : c ∉ xs := fun hm => h (by simp [hm])
    simpa [splitOnceText,hx] using ih hxs

lemma splitOnceText_none {c : Char} {sep : List Char} (h : c ∉ xs) : splitOnceText (c::sep) xs = none := by
  induction xs with
  | nil => simp [splitOnceText]
  | cons x xs ih =>
    have hx : c ≠ x := by rintro rfl; simp at h
    have hxs : c ∉ xs := fun hm => h (by simp [hm])
    simp [splitOnceText,hx,ih hxs]
section
variable {r : ℕ} (h : 1 < r ∧ r ≤ 16)
include h

lemma formatNat_chars (n : ℕ) : ∀ c ∈ formatNat r n, c ≠ '+' ∧ c ≠ '-' ∧ c ≠ '/' ∧ c ≠ '#' := by
  intro c hc
  rcases mem_digitsInto h hc with hc | ⟨d,hd,rfl⟩
  · simp at hc
  · exact upperDigit_ne hd

lemma fromStrRadix_pad (w : ℕ) {bo n : ℕ} (hf : n < r^20) (hb : n < bo) :
    fromStrRadix r bo (padZeros w (formatNat r n)) = .ok n := by
  have hch := formatNat_chars h n
  rw [fromStrRadix_eq,padZeros,parseDigits_zeros (by omega) (by omega),formatNat,
    parseDigits_digitsInto h [] hf hb,parseDigits]
  · simp [padZeros,formatNat,digitsInto_ne_nil]
  · intro c hc
    rcases List.mem_append.mp hc with hc | hc
    · obtain rfl := List.eq_of_mem_replicate hc
      decide
    · exact ⟨(hch c hc).1,(hch c hc).2.1⟩

lemma fromStrRadix_format {bo n : ℕ} (hf : n < r^20) (hb : n < bo) : fromStrRadix r bo (formatNat r n) = .ok n := by
  simpa [padZeros] using fromStrRadix_pad h 0 hf hb
end
lemma parsePostgresLsn_format (lsn : UInt64) : parsePostgresLsn (formatPgLsn lsn) = .ok lsn := by
  have hlt := lsn.toNat_lt
  have hl : lsn.toNat%2^32 < 2^32 := Nat.mod_lt _ (by norm_num)
  have hs : '/' ∉ formatNat 16 (lsn.toNat/2^32) := fun h => (formatNat_chars (by norm_num) _ _ h).2.2.1 rfl
  have hp : fromStrRadix 16 (2^64) (formatNat 16 (lsn.toNat/2^32)) = .ok (lsn.toNat/2^32) :=
    fromStrRadix_format (by norm_num) (by omega) (by omega)
  have hpa : fromStrRadix 16 (2^64) (padZeros 8 (formatNat 16 (lsn.toNat%2^32))) = .ok (lsn.toNat%2^32) :=
    fromStrRadix_pad (by norm_num) 8 (by omega) (by omega)
  rw [parsePostgresLsn,formatPgLsn,String.toList_ofList,splitOnce_append hs]
  simp only [hp,hpa]
  congr 1
  apply UInt64.toNat_inj.mp
  rw [UInt64.toNat_or,UInt64.toNat_shiftLeft,UInt64.toNat_ofNat_of_lt' (by simp only [UInt64.size]; omega),
    UInt64.toNat_ofNat_of_lt' (by simp only [UInt64.size]; omega)]
  have hsh : (lsn.toNat/2^32) <<< ((32 : UInt64).toNat%64)%2^64 = (lsn.toNat/2^32) <<< 32 := by
    apply Nat.mod_eq_of_lt
    have hv : (32 : UInt64).toNat%64 = 32 := by decide
    rw [hv,Nat.shiftLeft_eq]
    omega
  rw [hsh,← Nat.shiftLeft_add_eq_or_of_lt hl,Nat.shiftLeft_eq]
  omega

/-- What the connector prints as a binlog coordinate is read back as the same coordinate, for
a file name without a colon. -/
theorem parseMysqlStreamOffset_format {bf : String} (hf : ':' ∉ bf.toList) (bp : UInt32) (g : String) :
    parseMysqlStreamOffset (formatMysqlSourceOffset bf bp g) = .ok (bf,bp,g) := by
  have hl := bp.toNat_lt
  have hp : fromStrRadix 10 (2^32) (formatNat 10 bp.toNat) = .ok bp.toNat :=
    fromStrRadix_format (by norm_num) (by omega) hl
  have hh : '#' ∉ formatNat 10 bp.toNat := fun h => (formatNat_chars (by norm_num) _ _ h).2.2.2 rfl
  by_cases hg : g.isEmpty = true
  · have he : g = "" := by simpa using hg
    have hn : splitOnceText gtidMarker (formatNat 10 bp.toNat) = none := splitOnceText_none (c := '#') hh
    have ht : (formatMysqlSourceOffset bf bp g).toList = bf.toList++ ':'::formatNat 10 bp.toNat := by
      simp [formatMysqlSourceOffset,hg]
    rw [parseMysqlStreamOffset,ht,splitOnce_append hf]
    simp only [hn,Option.getD_none,hp]
    simp [he]
  · have hs : splitOnceText gtidMarker (formatNat 10 bp.toNat++gtidMarker++g.toList) =
          some (formatNat 10 bp.toNat,g.toList) :=
      splitOnceText_append (c := '#') hh g.toList
    have ht : (formatMysqlSourceOffset bf bp g).toList =
        bf.toList++ ':'::(formatNat 10 bp.toNat++gtidMarker++g.toList) := by
      simp [formatMysqlSourceOffset,hg,gtidMarker]
    rw [parseMysqlStreamOffset,ht,splitOnce_append hf]
    simp only [hs,Option.getD_some,hp]
    simp
end Rustcdc
