import Mathlib

/-! Texts as the standard library reads them: white space and what trimming leaves, letter case. -/
namespace Rustcdc
open List

/-- `char::is_whitespace`. -/
def isWhitespace (c : Char) : Bool :=
  let n := c.toNat
  (9 ≤ n && n ≤ 13) || n = 0x20 || n = 0x85 || n = 0xa0 || n = 0x1680 ||
    (0x2000 ≤ n && n ≤ 0x200a) || n = 0x2028 || n = 0x2029 || n = 0x202f || n = 0x205f || n = 0x3000

/-- `s.trim().is_empty()`. -/
def blank (s : String) : Bool := s.toList.all isWhitespace

/-- `str::trim`. -/
def trim (cs : List Char) : List Char := ((cs.dropWhile isWhitespace).reverse.dropWhile isWhitespace).reverse

/-- `to_ascii_lowercase`. -/
def toAsciiLowercase (cs : List Char) : List Char := cs.map Char.toLower

/-- `str::eq_ignore_ascii_case`. -/
def eqIgnoreAsciiCase (a b : String) : Bool := a.toList.map Char.toLower = b.toList.map Char.toLower

variable {cs : List Char}

lemma mem_trim {c : Char} (h : c ∈ trim cs) : c ∈ cs := by
  have hb := mem_reverse.mp h
  have hf := mem_reverse.mp ((dropWhile_sublist _).mem hb)
  exact (dropWhile_sublist _).mem hf

/-- A text without white space at either end. -/
structure Trimmed (cs : List Char) : Prop where
  first : ∀ c ∈ cs.head?, isWhitespace c = false
  last : ∀ c ∈ cs.getLast?, isWhitespace c = false

variable {p : Char → Bool}

lemma dropWhile_eq_self (h : ∀ c ∈ cs.head?, p c = false) : cs.dropWhile p = cs := by
  cases cs with
  | nil => rfl
  | cons c => rw [dropWhile_cons,h c rfl]; rfl

lemma Trimmed.trim (h : Trimmed cs) : trim cs = cs := by
  unfold Rustcdc.trim
  rw [dropWhile_eq_self h.first,dropWhile_eq_self,reverse_reverse]
  rw [List.head?_reverse]
  exact h.last

lemma head?_dropWhile : ∀ c ∈ (cs.dropWhile p).head?, p c = false := by
  induction cs with
  | nil => simp
  | cons c cs ih =>
    rw [dropWhile_cons]
    split_ifs with hc
    · exact ih
    · intro c' hc'
      rw [← Option.some.inj hc']
      exact eq_false_of_ne_true hc

lemma trimmed_trim (cs : List Char) : Trimmed (trim cs) := by
  refine ⟨fun c hc => ?_,fun c hc => ?_⟩
  · -- what is dropped at the end leaves the first character in place
    obtain ⟨dropped,hd⟩ : trim cs <+: cs.dropWhile isWhitespace := rdropWhile_prefix _ _
    have hf : c ∈ (cs.dropWhile isWhitespace).head? := by
      rw [← hd,List.head?_append,Option.mem_def.mp hc]
      rfl
    exact head?_dropWhile c hf
  · unfold trim at hc
    rw [List.getLast?_reverse] at hc
    exact head?_dropWhile c hc

lemma trimmed_of_forall (h : ∀ c ∈ cs, isWhitespace c = false) : Trimmed cs :=
  ⟨fun c hc => h c (mem_of_head? hc),fun c hc => h c (mem_of_getLast? hc)⟩

lemma Trimmed.append {ds : List Char} (hcs : Trimmed cs) (hd : Trimmed ds) (hcs' : cs ≠ [])
    (hd' : ds ≠ []) : Trimmed (cs++ds) := by
  refine ⟨fun c hc => ?_,fun c hc => ?_⟩
  · rw [List.head?_append_of_ne_nil _ hcs'] at hc
    exact hcs.first c hc
  · rw [List.getLast?_append_of_ne_nil _ hd'] at hc
    exact hd.last c hc
end Rustcdc
