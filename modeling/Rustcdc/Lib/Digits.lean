import Mathlib

/-! Numbers as texts of a fixed width.  Such texts compare as the numbers do. -/
namespace Digits
open Nat
variable {base : ℕ}

/-- The digits of a number, most significant first, at a given width. -/
def fixed (base : ℕ) : ℕ → ℕ → List Char
  | 0, _ => []
  | width+1, n => digitChar (n/base^width)::fixed base width (n%base^width)

@[simp] lemma length_fixed (width n : ℕ) : (fixed base width n).length = width := by
  induction width generalizing n with
  | zero => rfl
  | succ width ih => simp [fixed,ih]

lemma fixed_zero (width : ℕ) : fixed base width 0 = List.replicate width '0' := by
  induction width with
  | zero => rfl
  | succ width ih =>
    rw [fixed,Nat.zero_div,Nat.zero_mod,ih,List.replicate_succ]
    rfl

variable {width n : ℕ}

lemma fixed_succ (hb : 0 < base) (hn : n < base^(width+1)) :
    fixed base (width+1) n = fixed base width (n/base)++[digitChar (n%base)] := by
  induction width generalizing n with
  | zero =>
    rw [zero_add,pow_one] at hn
    simp [fixed,mod_eq_of_lt hn]
  | succ width ih =>
    have hp : 0 < base^(width+1) := Nat.pow_pos hb
    have hh : n/base^(width+1) = n/base/base^width := by
      rw [Nat.div_div_eq_div_mul,Nat.pow_succ',Nat.mul_comm]
    have hlo : n%base^(width+1)/base = n/base%base^width := by
      rw [Nat.pow_succ',Nat.mod_mul_right_div_self]
    have hl : n%base^(width+1)%base = n%base := mod_mod_of_dvd n (Dvd.intro_left (base^width) (pow_succ ..).symm)
    rw [fixed,ih (mod_lt n hp),hlo,hl,hh]
    rfl

lemma digitChar_lt {a b : ℕ} (h : a < b) (hb : b < 16) : digitChar a < digitChar b := by
  interval_cases b <;> interval_cases a <;> decide

/-- Zeros in front of a number's digits give its text of a width. -/
theorem replicate_toDigits (hb : 1 < base) (hn : n < base^(width+1)) :
    List.replicate (width+1-(toDigits base n).length) '0'++toDigits base n = fixed base (width+1) n := by
  induction width generalizing n with
  | zero =>
    rw [zero_add,pow_one] at hn
    rw [toDigits_of_lt_base hn]
    simp [fixed]
  | succ width ih =>
    rw [fixed_succ (by omega) hn]
    by_cases hs : n < base
    · rw [toDigits_of_lt_base hs,div_eq_of_lt hs,fixed_zero,mod_eq_of_lt hs]
      simp
    · have hd : n/base < base^(width+1) := by
        rw [div_lt_iff_lt_mul (by omega),← pow_succ]
        exact hn
      rw [toDigits_of_base_le hb (by omega),← ih hd,List.length_append,List.append_assoc]
      simp

lemma lt_pow_length_toDigits (hb : 1 < base) (n : ℕ) : n < base^(toDigits base n).length := by
  induction n using Nat.strongRecOn with
  | ind n ih =>
    by_cases hs : n < base
    · simpa [toDigits_of_lt_base hs] using hs
    · have hl : n/base < n := div_lt_self (by omega) hb
      rw [toDigits_of_base_le hb (by omega),List.length_append,List.length_singleton,pow_succ]
      exact (div_lt_iff_lt_mul (by omega)).mp (ih _ hl)

lemma fixed_lt (hb : 0 < base) (hs : base ≤ 16) {m : ℕ} (hmn : m < n)
    (hn : n < base^width) : fixed base width m < fixed base width n := by
  induction width generalizing m n with
  | zero =>
    rw [pow_zero] at hn
    omega
  | succ width ih =>
    have hp : 0 < base^width := Nat.pow_pos hb
    have hh : m/base^width ≤ n/base^width := Nat.div_le_div_right hmn.le
    have hd : n/base^width < 16 := by
      have hl : n/base^width < base := by
        rw [Nat.div_lt_iff_lt_mul hp,← Nat.pow_succ']
        exact hn
      omega
    rw [fixed,fixed,List.cons_lt_cons_iff]
    rcases lt_or_eq_of_le hh with hl | he
    · exact Or.inl (digitChar_lt hl hd)
    · have hm := div_add_mod m (base^width)
      have hn' := div_add_mod n (base^width)
      rw [he] at hm
      exact Or.inr ⟨by rw [he],ih (by omega) (mod_lt n hp)⟩

lemma mem_toDigits (hb : 1 < base) {c : Char} (hc : c ∈ toDigits base n) : ∃ d < base, c = digitChar d := by
  induction n using Nat.strongRecOn with
  | ind n ih =>
    by_cases hs : n < base
    · rw [toDigits_of_lt_base hs,List.mem_singleton] at hc
      exact ⟨n,hs,hc⟩
    · rw [toDigits_of_base_le hb (by omega),List.mem_append,List.mem_singleton] at hc
      rcases hc with hf | hl
      · exact ih _ (div_lt_self (by omega) hb) hf
      · exact ⟨_,mod_lt n (by omega),hl⟩
end Digits
