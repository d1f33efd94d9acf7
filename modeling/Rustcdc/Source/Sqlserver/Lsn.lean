import Rustcdc.Source.Sqlserver.Stream
import Rustcdc.Source.Mysql.GtidSet
import Rustcdc.Lib.Digits

/-! The texts of LSNs and cursors.  A text is read back as the number it was made of, and texts compare
as their numbers. -/
namespace Rustcdc.Sqlserver
open List SqlServerCdcCursor
open Digits (fixed)

/-- The number of LSNs: ten bytes. -/
def lsnBound : ℕ := 16^20

variable {lsn n bound : ℕ}

lemma lsnBytesToHex_eq (hl : lsn < lsnBound) : lsnBytesToHex lsn = String.ofList ('0':: 'x'::fixed 16 20 lsn) := by
  have hd : List.replicate (20-(Nat.toDigits 16 lsn).length) '0'++Nat.toDigits 16 lsn =
      fixed 16 20 lsn := Digits.replicate_toDigits (by decide) hl
  rw [lsnBytesToHex,padZeros,hd]

lemma toList_lsnBytesToHex (hl : lsn < lsnBound) : (lsnBytesToHex lsn).toList = '0':: 'x'::fixed 16 20 lsn := by
  rw [lsnBytesToHex_eq hl,String.toList_ofList]
lemma lsnBytesToHex_lt {a b : ℕ} (h : a < b) (hb : b < lsnBound) : lsnBytesToHex a < lsnBytesToHex b := by
  rw [String.lt_iff,toList_lsnBytesToHex (h.trans hb),toList_lsnBytesToHex hb]
  simpa [cons_lt_cons_iff] using Digits.fixed_lt (by decide) (by decide) h hb

lemma lsnBytesToHex_le_iff {a b : ℕ} (ha : a < lsnBound) (hb : b < lsnBound) :
    lsnBytesToHex a ≤ lsnBytesToHex b ↔ a ≤ b := by
  constructor
  · intro hl
    by_contra hg
    exact hl (lsnBytesToHex_lt (not_le.mp hg) ha)
  · intro hl
    rcases Nat.lt_or_eq_of_le hl with hlt | rfl
    · exact String.lt_asymm (lsnBytesToHex_lt hlt hb)
    · exact String.lt_irrefl _

lemma fromStrRadix_byte : ∀ a < 16, ∀ b < 16,
    fromStrRadix 16 256 [Nat.digitChar a,Nat.digitChar b] = .ok (a*16+b) := by decide

lemma readBytes_fixed (ps : ℕ) (hn : n < 16^(2*ps)) : ∃ bs, readBytes (bytePairs (fixed 16 (2*ps) n)) = .ok bs ∧
      ∀ high, bs.foldl (fun lsn byte => lsn*256+byte) high = high*16^(2*ps)+n := by
  induction ps generalizing n with
  | zero => exact ⟨[],rfl,fun high => by simp at hn; simp [hn]⟩
  | succ ps ih =>
    generalize hp : 16^(2*ps) = power at ih
    have hpo : 0 < power := by
      rw [← hp]
      exact Nat.pow_pos (by decide)
    have hfu : 16^(2*(ps+1)) = 256*power := by
      rw [Nat.mul_succ,Nat.pow_add,hp]
      omega
    have hne : 16^(2*ps+1) = 16*power := by
      rw [Nat.pow_succ,hp]
      omega
    rw [hfu] at hn
    have hl : n%(16*power)%power = n%power := Nat.mod_mod_of_dvd n (Dvd.intro_left 16 rfl)
    obtain ⟨bs,hb,hfo⟩ := ih (Nat.mod_lt n hpo)
    have hf : n/(16*power) < 16 := by
      rw [Nat.div_lt_iff_lt_mul (by omega)]
      omega
    have hs : n%(16*power)/power < 16 := by
      rw [Nat.div_lt_iff_lt_mul hpo]
      exact Nat.mod_lt n (by omega)
    have hv : (n/(16*power)*16+n%(16*power)/power)*power+n%power = n := by
      have h₁ := Nat.div_add_mod n (16*power)
      have h₂ := Nat.div_add_mod (n%(16*power)) power
      rw [hl] at h₂
      calc (n/(16*power)*16+n%(16*power)/power)*power+n%power
          = 16*power*(n/(16*power))+(power*(n%(16*power)/power)+n%power) := by ring
        _ = n := by rw [h₂,h₁]
    refine ⟨(n/(16*power)*16+n%(16*power)/power)::bs,?_,fun high => ?_⟩
    · rw [Nat.mul_succ,fixed,fixed,hne,hp,hl,bytePairs,readBytes,fromStrRadix_byte _ hf _ hs,hb]
      rfl
    · rw [foldl_cons,hfo,hfu]
      calc (high*256+(n/(16*power)*16+n%(16*power)/power))*power+n%power
          = high*(256*power)+((n/(16*power)*16+n%(16*power)/power)*power+n%power) := by ring
        _ = high*(256*power)+n := by rw [hv]

lemma lsnHexToBytes_hex (hl : lsn < lsnBound) : lsnHexToBytes (lsnBytesToHex lsn) = .ok lsn := by
  obtain ⟨bs,hb,hf⟩ := readBytes_fixed 10 hl
  rw [lsnHexToBytes,toList_lsnBytesToHex hl]
  simp only [Digits.length_fixed,ne_eq,not_true_eq_false,if_false]
  rw [hb]
  have hv := hf 0
  rw [Nat.zero_mul,Nat.zero_add] at hv
  exact congrArg Except.ok hv

lemma colon_not_mem_hex (lsn : ℕ) : ':' ∉ (lsnBytesToHex lsn).toList := by
  have ha : ∀ d < 16, ':' ≠ Nat.digitChar d := by decide
  rw [lsnBytesToHex,String.toList_ofList,padZeros]
  intro hm
  have hdi : ':' ∈ Nat.toDigits 16 lsn := by simpa using hm
  obtain ⟨d,hd,he⟩ := Digits.mem_toDigits (by decide) hdi
  exact ha d hd he

lemma decode_hex (lsn : ℕ) : decode (lsnBytesToHex lsn) = none := by
  rw [decode,Mysql.splitOn_eq_single (colon_not_mem_hex lsn)]

lemma toOption_eq_some {ε α : Type} {x : Except ε α} {a : α} (h : x.toOption = some a) : x = .ok a := by
  cases x with
  | error => cases h
  | ok => rw [Option.some.inj h]

variable {cs : List Char} {cursor : SqlServerCdcCursor} {operation : ℤ}

lemma fromStrRadix_lt {radix : ℕ} (hb : 0 < bound) (h : fromStrRadix radix bound cs = .ok n) : n < bound := by
  unfold fromStrRadix at h
  split at h
  · cases h
  · cases h
  · cases h
  · exact Mysql.parseDigits_lt hb h
  · exact Mysql.parseDigits_lt hb h

lemma readBytes_lt {pieces : List (List Char)} {bs : List ℕ} (h : readBytes pieces = .ok bs) (high : ℕ) :
    bs.foldl (fun lsn byte => lsn*256+byte) high < (high+1)*256^pieces.length := by
  induction pieces generalizing bs high with
  | nil =>
    cases h
    simp
  | cons piece pieces ih =>
    rw [readBytes] at h
    cases hp : fromStrRadix 16 256 piece with
    | error => simp [hp] at h
    | ok byte =>
      simp only [hp] at h
      obtain ⟨r,hr,rfl⟩ := except_map_ok h
      have hb : byte < 256 := fromStrRadix_lt (by decide) hp
      have hl := ih hr (high*256+byte)
      calc (byte::r).foldl (fun lsn byte => lsn*256+byte) high
          = r.foldl (fun lsn byte => lsn*256+byte) (high*256+byte) := rfl
        _ < (high*256+byte+1)*256^pieces.length := hl
        _ ≤ ((high+1)*256)*256^pieces.length := Nat.mul_le_mul_right _ (by omega)
        _ = (high+1)*256^(piece::pieces).length := by rw [length_cons,Nat.pow_succ]; ring

lemma length_bytePairs : (cs : List Char) → (bytePairs cs).length = cs.length/2
  | [] => by simp [bytePairs]
  | [_] => by simp [bytePairs]
  | _::_::cs => by
    rw [bytePairs,length_cons,length_bytePairs cs,length_cons,length_cons]
    omega

lemma lsnHexToBytes_lt {t : String} (h : lsnHexToBytes t = .ok lsn) : lsn < lsnBound := by
  unfold lsnHexToBytes at h
  extract_lets value at h
  by_cases hl : value.length = 20
  · rw [if_neg (not_not.mpr hl)] at h
    obtain ⟨_,hb,rfl⟩ := except_map_ok h
    have hlt := readBytes_lt hb 0
    rw [length_bytePairs,hl] at hlt
    exact hlt
  · rw [if_pos hl] at h
    cases h

/-- Only a number of ten bytes has a text that is read as an LSN. -/
theorem lsnHexToBytes_hex_eq {r : ℕ} (h : lsnHexToBytes (lsnBytesToHex lsn) = .ok r) : lsn < lsnBound ∧ r = lsn := by
  by_cases hls : lsn < lsnBound
  · rw [lsnHexToBytes_hex hls] at h
    exact ⟨hls,(Except.ok.inj h).symm⟩
  · -- the text is too long
    have hl : 20 < (Nat.toDigits 16 lsn).length := by
      by_contra hs
      have hsm := Digits.lt_pow_length_toDigits (show 1 < 16 by decide) lsn
      have hle : 16^(Nat.toDigits 16 lsn).length ≤ lsnBound := Nat.pow_le_pow_right (by decide) (not_lt.mp hs)
      omega
    rw [lsnHexToBytes,lsnBytesToHex,String.toList_ofList] at h
    have hlo : (padZeros 20 (Nat.toDigits 16 lsn)).length ≠ 20 := by
      simp only [padZeros,length_append,length_replicate]
      omega
    simp [hlo] at h

lemma lsnFromSourceOffset_hex {r : ℕ} (h : lsnFromSourceOffset (lsnBytesToHex lsn) = some r) : r = lsn := by
  rw [lsnFromSourceOffset,splitOnce_none (colon_not_mem_hex lsn)] at h
  exact (lsnHexToBytes_hex_eq (toOption_eq_some h)).2

/-- A cursor whose parts fit their types. -/
structure CursorFits (cursor : SqlServerCdcCursor) : Prop where
  lsn : cursor.lsn < lsnBound
  seqval : cursor.seqval < lsnBound
  operation : -2^31 ≤ cursor.operation ∧ cursor.operation < 2^31

lemma parseDigits_append {radix : ℕ} (xs ys : List Char) (r : ℕ) (h : parseDigits radix bound r xs = .ok n) :
    parseDigits radix bound r (xs++ys) = parseDigits radix bound n ys := by
  induction xs generalizing r with
  | nil => rw [nil_append,Except.ok.inj h]
  | cons c xs ih =>
    rw [cons_append,parseDigits]
    rw [parseDigits] at h
    split at h
    · cases h
    · rw [if_neg (by assumption)]
      split at h
      · cases h
      · rw [if_neg (by assumption)]
        exact ih _ h

lemma parseDigits_toDigits (hn : n < bound) : parseDigits 10 bound 0 (Nat.toDigits 10 n) = .ok n := by
  have hdi : ∀ d < 10, digitValue (Nat.digitChar d) = d := by decide
  have ho : ∀ high d, d < 10 → high*10+d < bound → parseDigits 10 bound high [Nat.digitChar d] = .ok (high*10+d) := by
    intro high d hd hl
    rw [parseDigits,hdi d hd,if_neg (by omega),if_neg (by omega)]
    rfl
  induction n using Nat.strongRecOn with
  | ind n ih =>
    by_cases hs : n < 10
    · rw [Nat.toDigits_of_lt_base hs,ho 0 n hs (by omega),Nat.zero_mul,Nat.zero_add]
    · rw [Nat.toDigits_of_base_le (by decide) (by omega),parseDigits_append _ _ 0 (ih (n/10) (by omega) (by omega)),
        ho _ _ (Nat.mod_lt n (by decide)) (by omega)]
      congr 1
      omega

lemma not_mem_toDigits {c : Char} (hc : c.isDigit = false) (n : ℕ) : c ∉ Nat.toDigits 10 n := by
  intro hm
  have hd := Nat.isDigit_of_mem_toDigits (by decide) (by decide) hm
  rw [hc] at hd
  cases hd

lemma fromStrRadix_toDigits (hn : n < bound) : fromStrRadix 10 bound (Nat.toDigits 10 n) = .ok n := by
  rw [fromStrRadix_eq Nat.toDigits_ne_nil,parseDigits_toDigits hn]
  intro c hc
  constructor
  · rintro rfl
    exact not_mem_toDigits rfl n hc
  · rintro rfl
    exact not_mem_toDigits rfl n hc

lemma parseI32_toString (ho : -2^31 ≤ operation ∧ operation < 2^31) :
    parseI32 (toString operation).toList = some operation ∧ ':' ∉ (toString operation).toList := by
  cases operation with
  | ofNat n =>
    have ht : (toString (Int.ofNat n)).toList = Nat.toDigits 10 n := Nat.toList_repr
    have hn : n < 2^31 := by
      have hl := ho.2
      rw [Int.ofNat_eq_natCast] at hl
      omega
    rw [ht]
    refine ⟨?_,not_mem_toDigits rfl n⟩
    unfold parseI32
    split
    · rename_i c cs he
      exact absurd (he ▸ mem_cons_self) (not_mem_toDigits (c := '-') rfl n)
    · rw [fromStrRadix_toDigits hn]
      rfl
  | negSucc n =>
    have ht : (toString (Int.negSucc n)).toList = '-'::Nat.toDigits 10 (n+1) := by
      show ("-"++Nat.repr (n+1)).toList = _
      rw [String.toList_append,Nat.toList_repr]
      rfl
    have hn : n+1 < 2^31+1 := by
      have hle := ho.1
      rw [Int.negSucc_eq] at hle
      omega
    rw [ht]
    refine ⟨?_,by simpa using not_mem_toDigits rfl (n+1)⟩
    obtain ⟨c,cs,hd⟩ := exists_cons_of_ne_nil (Nat.toDigits_ne_nil (n := n+1) (b := 10))
    rw [hd,parseI32,← hd,parseDigits_toDigits hn]
    rfl

lemma decode_encode (hf : CursorFits cursor) : decode cursor.encode = some cursor := by
  obtain ⟨hp,hc⟩ := parseI32_toString hf.operation
  have hs : splitOn ':' cursor.encode.toList = [(lsnBytesToHex cursor.lsn).toList,
      (lsnBytesToHex cursor.seqval).toList,(toString cursor.operation).toList] := by
    have ht : cursor.encode.toList = (lsnBytesToHex cursor.lsn).toList++ ':'::
        ((lsnBytesToHex cursor.seqval).toList++ ':'::(toString cursor.operation).toList) := by
      simp [encode]
    rw [ht,Mysql.splitOn_append (colon_not_mem_hex _),
      Mysql.splitOn_append (colon_not_mem_hex _),Mysql.splitOn_eq_single hc]
  unfold decode
  rw [hs]
  simp only [String.ofList_toList,hp,lsnHexToBytes_hex hf.lsn,lsnHexToBytes_hex hf.seqval]
  rfl

lemma parseI32_fits (h : parseI32 cs = some operation) : -2^31 ≤ operation ∧ operation < 2^31 := by
  unfold parseI32 at h
  split at h
  · obtain ⟨n,hn,rfl⟩ := Option.map_eq_some_iff.mp h
    have hl := Mysql.parseDigits_lt (by decide) (toOption_eq_some hn)
    omega
  · obtain ⟨n,hn,rfl⟩ := Option.map_eq_some_iff.mp h
    have hl := fromStrRadix_lt (by decide) (toOption_eq_some hn)
    omega

lemma decode_fits {o : String} (h : decode o = some cursor) : CursorFits cursor := by
  unfold decode at h
  split at h
  · split at h
    · rename_i ho hl hs
      cases h
      exact ⟨lsnHexToBytes_lt (toOption_eq_some hl),lsnHexToBytes_lt (toOption_eq_some hs),parseI32_fits ho⟩
    · cases h
  · cases h
end Rustcdc.Sqlserver
