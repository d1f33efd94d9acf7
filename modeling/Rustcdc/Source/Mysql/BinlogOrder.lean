import Rustcdc.Checkpoint.Progress
import Rustcdc.Source.Handoff

/-! The order of binlog coordinates.  The server numbers its files; the handoff compares their names,
the checkpoint guard the numbers in them. -/
namespace Rustcdc.Mysql
open List FileCheckpoint

/-- A coordinate as a server writes it: its files are counted by an unsigned 64-bit number. -/
structure BinlogCoordinate where
  sequence : ℕ
  position : UInt32
  fits : sequence < 2^64

namespace BinlogCoordinate
/-- The number in the name of the file, in six digits or more. -/
def digits (c : BinlogCoordinate) : List Char := padZeros 6 (formatNat 10 c.sequence)
def file (base : String) (c : BinlogCoordinate) : String := binlogName base 6 c.sequence

/-- The place in the order of writing. -/
def place (c : BinlogCoordinate) : ℕ ×ₗ ℕ := toLex (c.sequence,c.position.toNat)

def offset (sourceType base : String) (c : BinlogCoordinate) : Offset :=
  .mysql sourceType sourceType (c.file base) c.position "" none

variable {base : String} {a b : BinlogCoordinate}

lemma digitsInto_eq {k n : ℕ} (hn : n < 10^(k+1)) (acc : List Char) :
    digitsInto 10 (k+1) n acc = Nat.toDigits 10 n++acc := by
  have hd : ∀ d < 10, upperDigit d = Nat.digitChar d := by decide
  induction k generalizing n acc with
  | zero =>
    have hz : n < 10 := by simpa using hn
    rw [digitsInto,if_pos hz,Nat.toDigits_of_lt_base hz,hd n hz,singleton_append]
  | succ k ih =>
    rw [digitsInto]
    split_ifs with hs
    · rw [Nat.toDigits_of_lt_base hs,hd n hs,singleton_append]
    · have hdi : n/10 < 10^(k+1) := by
        rw [Nat.div_lt_iff_lt_mul (by decide),← Nat.pow_succ]
        exact hn
      rw [ih hdi,Nat.toDigits_of_base_le (n := n) (by decide) (by omega),hd _ (Nat.mod_lt n (by decide)),
        append_assoc,singleton_append]

lemma digits_eq (c : BinlogCoordinate) :
    c.sequence < 10^c.digits.length ∧ c.digits = Digits.fixed 10 c.digits.length c.sequence := by
  have hf : formatNat 10 c.sequence = Nat.toDigits 10 c.sequence := by
    have hfi := c.fits
    rw [formatNat,digitsInto_eq (by omega),append_nil]
  have hl : c.digits.length = 6-(Nat.toDigits 10 c.sequence).length+(Nat.toDigits 10 c.sequence).length := by
    rw [digits,padZeros,hf,length_append,length_replicate]
  have hlt : c.sequence < 10^c.digits.length :=
    (Digits.lt_pow_length_toDigits (by decide) _).trans_le (Nat.pow_le_pow_right (by decide) (by omega))
  refine ⟨hlt,?_⟩
  obtain ⟨width,hw⟩ : ∃ width, c.digits.length = width+1 := ⟨c.digits.length-1,by omega⟩
  have hr := Digits.replicate_toDigits (by decide) (hw ▸ hlt)
  rw [hw,← hr,digits,padZeros,hf]
  congr 2
  omega

lemma append_lt_append_left_iff (fr : List Char) {xs ys : List Char} : fr++xs < fr++ys ↔ xs < ys := by
  induction fr with
  | nil => rfl
  | cons c fr ih => simp [ih]

lemma file_lt_iff (base : String) : a.file base < b.file base ↔ a.digits < b.digits := by
  rw [String.lt_iff,file,file,binlogName,binlogName,String.toList_ofList,String.toList_ofList,
    append_lt_append_left_iff,cons_lt_cons_iff]
  simp [digits]

/-- The numbers compare as texts as they do as numbers. -/
def Alike (a b : BinlogCoordinate) : Prop :=
  (a.sequence < b.sequence → a.digits < b.digits) ∧ (b.sequence < a.sequence → b.digits < a.digits)

lemma digits_lt (hw : a.digits.length = b.digits.length) (hl : a.sequence < b.sequence) : a.digits < b.digits := by
  rw [a.digits_eq.2,b.digits_eq.2,hw]
  exact Digits.fixed_lt (by decide) (by decide) hl b.digits_eq.1

lemma alike_of_length (hw : a.digits.length = b.digits.length) : Alike a b := ⟨digits_lt hw,digits_lt hw.symm⟩

lemma place_lt : a.place < b.place ↔
    a.sequence < b.sequence ∨ a.sequence = b.sequence ∧ a.position.toNat < b.position.toNat :=
  Prod.Lex.toLex_lt_toLex

/-- Then the names compare as the files were written. -/
theorem compareBinlogPosition_eq (h : Alike a b) :
    compareBinlogPosition (a.file base) a.position (b.file base) b.position = cmp a.place b.place := by
  rcases lt_trichotomy a.sequence b.sequence with hl | he | hg
  · have hf := (file_lt_iff base).mpr (h.1 hl)
    rw [compareBinlogPosition,if_neg fun he => String.lt_irrefl _ (he ▸ hf),if_pos hf,eq_comm,cmp_eq_lt_iff,place_lt]
    exact .inl hl
  · have hf : a.file base = b.file base := by rw [file,file,he]
    rw [compareBinlogPosition,if_pos hf,← cmp_eq_compare]
    rcases lt_trichotomy a.position.toNat b.position.toNat with h | h | h
    · rw [(cmp_eq_lt_iff _ _).mpr h,(cmp_eq_lt_iff _ _).mpr (place_lt.mpr (.inr ⟨he,h⟩))]
    · rw [place,place,he,h,cmp_self_eq_eq,cmp_self_eq_eq]
    · rw [(cmp_eq_gt_iff _ _).mpr h,(cmp_eq_gt_iff _ _).mpr (place_lt.mpr (.inr ⟨he.symm,h⟩))]
  · have hf := (file_lt_iff base).mpr (h.2 hg)
    rw [compareBinlogPosition,if_neg fun he => String.lt_irrefl _ (he ▸ hf),
      if_neg (String.lt_asymm hf),eq_comm,cmp_eq_gt_iff,place_lt]
    exact .inl hg

lemma isLE_compareBinlogPosition (h : Alike a b) :
    (compareBinlogPosition (a.file base) a.position (b.file base) b.position).isLE = true ↔ a.place ≤ b.place := by
  rw [compareBinlogPosition_eq h]
  rcases lt_trichotomy a.place b.place with h | h | h
  · simp [(cmp_eq_lt_iff _ _).mpr h,h.le]
  · simp [h,cmp_self_eq_eq]
  · simp [(cmp_eq_gt_iff _ _).mpr h,h]

lemma file_ne (base : String) (hl : a.sequence < b.sequence) : a.file base ≠ b.file base := by
  intro he
  have hd : a.digits = b.digits := by
    have hc := congrArg String.toList he
    simpa [file,binlogName,digits] using hc
  exact absurd (digits_lt (congrArg List.length hd) hl) (hd ▸ List.lt_irrefl _)

/-- A comparison of the names that is right tells how the numbers compare as texts. -/
lemma alike_of_compare
    (h : compareBinlogPosition (a.file base) a.position (b.file base) b.position = cmp a.place b.place) :
    Alike a b := by
  constructor
  · intro hl
    rw [(cmp_eq_lt_iff _ _).mpr (place_lt.mpr (.inl hl)),compareBinlogPosition,if_neg (file_ne base hl)] at h
    by_contra hn
    rw [if_neg fun hf => hn ((file_lt_iff base).mp hf)] at h
    cases h
  · intro hg
    rw [(cmp_eq_gt_iff _ _).mpr (place_lt.mpr (.inl hg)),compareBinlogPosition,
      if_neg fun he => file_ne base hg he.symm] at h
    by_contra hn
    rw [if_pos] at h
    · cases h
    · exact (lt_or_gt_of_ne (file_ne base hg)).resolve_left fun hf => hn ((file_lt_iff base).mp hf)

lemma parseMysqlSourceOffset_of_stream {v file g : String} {p : UInt32}
    (h : parseMysqlStreamOffset v = .ok (file,p,g)) :
    parseMysqlSourceOffset v = some (file,p) := by
  rw [parseMysqlStreamOffset] at h
  rw [parseMysqlSourceOffset]
  cases hs : splitOnce ':' v.toList with
  | none => simp [hs] at h
  | some ps =>
    simp only [hs] at h ⊢
    cases hp : fromStrRadix 10 (2^32) ((splitOnceText gtidMarker ps.2).getD (ps.2,[])).1 with
    | error =>
      rw [hp] at h
      cases h
    | ok =>
      simp only [hp] at h ⊢
      cases h
      rfl

lemma colon_not_mem_file (hb : ':' ∉ base.toList) (c : BinlogCoordinate) : ':' ∉ (c.file base).toList := by
  have hd : ':' ∉ padZeros 6 (formatNat 10 c.sequence) := not_mem_padZeros (by decide) 6 _
  simp [file,binlogName,hb,hd]

/-- Two coordinates have one order, that of the server, of the handoff's gap check and overlap test, and
of the checkpoint guard, if and only if the numbers of their files compare alike as texts and as
numbers; they do if they have equally many digits. -/
theorem one_binlog_order {sourceType : String} (hmysql : sourceType = "mysql" ∨ sourceType = "mariadb")
    (enc : Encoders) (base : String) (hbase : ':' ∉ base.toList) (a b : BinlogCoordinate) :
    (compareBinlogPosition (a.file base) a.position (b.file base) b.position = cmp a.place b.place ∧
      (MysqlHandoff.hasNoGap ⟨b.file base,b.position,a.file base,a.position⟩ = true ↔ a.place ≤ b.place) ∧
      (∀ (event : Event) (gtid file : String) (position : UInt32),
        event.source.offset = formatMysqlSourceOffset (a.file base) a.position gtid →
          (MysqlHandoff.isOverlap ⟨b.file base,b.position,file,position⟩ event = true ↔ a.place ≤ b.place)) ∧
      (streamPositionRegression sourceType ((a.offset sourceType base).payload enc)
        ((b.offset sourceType base).payload enc) = none ↔ a.place ≤ b.place) ↔ Alike a b) ∧
    (a.digits.length = b.digits.length → Alike a b) := by
  refine ⟨⟨fun h => alike_of_compare h.1,fun h => ?_⟩,alike_of_length⟩
  refine ⟨compareBinlogPosition_eq h,isLE_compareBinlogPosition h,?_,?_⟩
  · intro event gtid file position ho
    have hp := parseMysqlSourceOffset_of_stream
      (parseMysqlStreamOffset_format (colon_not_mem_file hbase a) a.position gtid)
    rw [MysqlHandoff.isOverlap,ho,hp]
    exact isLE_compareBinlogPosition h
  · exact Placed.regression_none (.binlog hmysql base 6 a.fits a.position none)
      (.binlog hmysql base 6 b.fits b.position none)

theorem one_binlog_order_sample :
    let snapshot : BinlogCoordinate := ⟨1000000,4,by decide⟩
    let stream : BinlogCoordinate := ⟨100000,700,by decide⟩
    MysqlHandoff.hasNoGap ⟨snapshot.file "mysql-bin",snapshot.position,stream.file "mysql-bin",
      stream.position⟩ = true := by
  intro snapshot stream
  have h := one_binlog_order (.inl rfl) plainEncoders "mysql-bin" (by decide) stream snapshot
  exact (h.1.mpr ⟨fun _ => by decide +kernel,fun hl => absurd hl (by decide)⟩).2.1.mpr (by decide)

/-- After file 999999 a stream that starts past the snapshot passes the gap check. -/
theorem seventh_digit_hides_gap :
    let snapshot : BinlogCoordinate := ⟨999999,4,by decide⟩
    let stream : BinlogCoordinate := ⟨1000000,4,by decide⟩
    snapshot.place < stream.place ∧
      MysqlHandoff.hasNoGap ⟨snapshot.file "mysql-bin",snapshot.position,stream.file "mysql-bin",
        stream.position⟩ = true ∧
      streamPositionRegression "mysql" ((stream.offset "mysql" "mysql-bin").payload plainEncoders)
        ((snapshot.offset "mysql" "mysql-bin").payload plainEncoders) ≠ none := by
  intro snapshot stream
  exact ⟨by decide,by decide +kernel,by decide +kernel⟩
end BinlogCoordinate
end Rustcdc.Mysql
