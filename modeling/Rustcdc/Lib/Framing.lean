import Mathlib

/-! Encodings that tell two values apart whatever follows them, so that fields written one after
the other can be taken apart again. -/
namespace Framing
open List
variable {α β γ : Type*}

/-- The encodings of the two values differ within themselves: what is written behind them cannot
make up for it. -/
def TellsApart (enc : α → List γ) (a b : α) : Prop := ∀ r s, enc a++r = enc b++s → a = b ∧ r = s

variable {enc f : α → List γ}

lemma TellsApart.eq {a b : α} (h : TellsApart enc a b) (he : enc a = enc b) : a = b := (h [] [] (by rw [he])).1

/-- A reader that takes the encoding off the front of anything. -/
theorem TellsApart.of_reader (re : List γ → Option (α × List γ))
    (hr : ∀ a r, re (enc a++r) = some (a,r)) (a b : α) : TellsApart enc a b := by
  intro r s h
  have hs := hr a r
  rw [h,hr] at hs
  exact ⟨(Prod.mk.inj (Option.some.inj hs)).1.symm,(Prod.mk.inj (Option.some.inj hs)).2.symm⟩

/-- Encodings of one length. -/
theorem TellsApart.of_length {a b : α} (hl : (enc a).length = (enc b).length) (hi : enc a = enc b → a = b) :
    TellsApart enc a b := by
  intro r s h
  obtain ⟨he,hr⟩ := append_inj h hl
  exact ⟨hi he,hr⟩

variable {co : ℕ → List γ}

/-- A field behind its length. -/
theorem TellsApart.sized {a b : α} (hc : TellsApart co (f a).length (f b).length) (hi : f a = f b → a = b) :
    TellsApart (fun x => co (f x).length++f x) a b := by
  intro r s h
  simp only [append_assoc] at h
  obtain ⟨hl,h⟩ := hc _ _ h
  obtain ⟨hf,hr⟩ := append_inj h hl
  exact ⟨hi hf,hr⟩

/-- Lists of one length, item by item. -/
theorem TellsApart.flatMap {xs ys : List α} (hl : xs.length = ys.length)
    (hi : ∀ x ∈ xs, ∀ y ∈ ys, TellsApart f x y) : TellsApart (List.flatMap f) xs ys := by
  induction xs generalizing ys with
  | nil =>
    intro r s h
    obtain rfl : ys = [] := eq_nil_of_length_eq_zero hl.symm
    exact ⟨rfl,h⟩
  | cons x xs ih =>
    cases ys with
    | nil => cases hl
    | cons y =>
      intro r s h
      simp only [flatMap_cons,append_assoc] at h
      obtain ⟨hh,h⟩ := hi x mem_cons_self y mem_cons_self _ _ h
      obtain ⟨ht,h⟩ := ih (Nat.succ.inj hl) (fun x hx y hy =>
        hi x (mem_cons_of_mem _ hx) y (mem_cons_of_mem _ hy)) _ _ h
      exact ⟨by rw [hh,ht],h⟩

/-- A list behind its length. -/
theorem TellsApart.counted {xs ys : List α} (hc : TellsApart co xs.length ys.length)
    (hi : ∀ x ∈ xs, ∀ y ∈ ys, TellsApart f x y) :
    TellsApart (fun xs => co xs.length++xs.flatMap f) xs ys := by
  intro r s h
  simp only [append_assoc] at h
  obtain ⟨hl,h⟩ := hc _ _ h
  exact TellsApart.flatMap hl hi _ _ h

/-- A list before a symbol that no item begins with. -/
theorem TellsApart.terminated {stop : γ} (hf : ∀ x y, TellsApart f x y)
    (hh : ∀ x, ∃ c cs, f x = c::cs ∧ c ≠ stop) (xs ys : List α) :
    TellsApart (fun xs => xs.flatMap f++[stop]) xs ys := by
  induction xs generalizing ys with
  | nil =>
    intro r s h
    cases ys with
    | nil => exact ⟨rfl,append_cancel_left h⟩
    | cons y =>
      obtain ⟨c,cs,hy,hn⟩ := hh y
      simp only [flatMap_nil,nil_append,flatMap_cons,hy,cons_append,List.cons.injEq] at h
      exact absurd h.1.symm hn
  | cons x xs ih =>
    intro r s h
    cases ys with
    | nil =>
      obtain ⟨c,cs,hx,hn⟩ := hh x
      simp only [flatMap_nil,nil_append,flatMap_cons,hx,cons_append,List.cons.injEq] at h
      exact absurd h.1 hn
    | cons y ys =>
      simp only [flatMap_cons,append_assoc] at h
      obtain ⟨hh,h⟩ := hf x y _ _ h
      obtain ⟨ht,h⟩ := ih ys r s (by simpa only [append_assoc] using h)
      exact ⟨by rw [hh,ht],h⟩

/-- A list with nothing behind it, of items that are not empty. -/
theorem flatMap_injective (hf : ∀ x y, TellsApart f x y) (hn : ∀ x, f x ≠ []) :
    Function.Injective (List.flatMap f) := by
  intro xs ys h
  induction xs generalizing ys with
  | nil =>
    cases ys with
    | nil => rfl
    | cons y => exact absurd (append_eq_nil_iff.mp h.symm).1 (hn y)
  | cons x xs ih =>
    cases ys with
    | nil => exact absurd (append_eq_nil_iff.mp h).1 (hn x)
    | cons y =>
      obtain ⟨hh,h⟩ := hf x y _ _ h
      rw [hh,ih h]
section
variable {sep : γ}

def Separated (sep : γ) (cs : List γ) : Prop := ∀ c ∈ cs.head?, c = sep

lemma append_separated {xs ys r s : List γ} (hx : sep ∉ xs) (hy : sep ∉ ys)
    (hr : Separated sep r) (hs : Separated sep s) (h : xs++r = ys++s) : xs = ys ∧ r = s := by
  induction xs generalizing ys with
  | nil =>
    cases ys with
    | nil => exact ⟨rfl,h⟩
    | cons y =>
      rw [nil_append] at h
      exact absurd (hr y (by rw [h]; rfl)) fun he => hy (he ▸ mem_cons_self)
  | cons x xs ih =>
    cases ys with
    | nil =>
      rw [nil_append] at h
      exact absurd (hs x (by rw [← h]; rfl)) fun he => hx (he ▸ mem_cons_self)
    | cons =>
      obtain ⟨rfl,ht⟩ := List.cons.inj h
      obtain ⟨rfl,hre⟩ := ih (fun hm => hx (mem_cons_of_mem _ hm)) (fun hm => hy (mem_cons_of_mem _ hm)) ht
      exact ⟨rfl,hre⟩

/-- The items, each with the separator in front. -/
def led (sep : γ) (items : List (List γ)) : List γ := items.flatMap (sep::·)

lemma led_separated (xs : List (List γ)) : Separated sep (led sep xs) := by
  cases xs with
  | nil =>
    intro c hc
    cases hc
  | cons =>
    intro c hc
    exact (Option.some.inj hc).symm

lemma led_injective {xs ys : List (List γ)} (hx : ∀ x ∈ xs, sep ∉ x) (hy : ∀ y ∈ ys, sep ∉ y)
    (h : led sep xs = led sep ys) : xs = ys := by
  induction xs generalizing ys with
  | nil =>
    cases ys with
    | nil => rfl
    | cons => cases h
  | cons x xs ih =>
    cases ys with
    | nil => cases h
    | cons y ys =>
      obtain ⟨hx,hxs⟩ := forall_mem_cons.mp hx
      obtain ⟨hy,hys⟩ := forall_mem_cons.mp hy
      have hr : x++led sep xs = y++led sep ys := (List.cons.inj h).2
      obtain ⟨rfl,ht⟩ := append_separated hx hy (led_separated xs) (led_separated ys) hr
      rw [ih hxs hys ht]
end
section
variable {sep : γ}

/-- The lines, each with the separator behind it. -/
def terminated (sep : γ) (lines : List (List γ)) : List γ := lines.flatMap (·++[sep])

@[simp] lemma terminated_append (xs ys : List (List γ)) :
    terminated sep (xs++ys) = terminated sep xs++terminated sep ys := by
  simp [terminated]
@[simp] lemma terminated_singleton (l : List γ) : terminated sep [l] = l++[sep] := by
  simp [terminated]

variable [DecidableEq γ]

/-- The complete lines of a text, behind the part of a line read so far. -/
def linesInto (sep : γ) (line : List γ) : List γ → List (List γ)
  | [] => []
  | c::cs => if c = sep then line::linesInto sep [] cs else linesInto sep (line++[c]) cs
def linesOf (sep : γ) (text : List γ) : List (List γ) := linesInto sep [] text

lemma linesInto_append {l r : List γ} (hr : sep ∉ r) (text : List γ) :
    linesInto sep l (r++sep::text) = (l++r)::linesInto sep [] text := by
  induction r generalizing l with
  | nil => simp [linesInto]
  | cons c r ih =>
    have hc : c ≠ sep := fun h => hr (h ▸ mem_cons_self)
    rw [cons_append,linesInto,if_neg hc,ih fun h => hr (mem_cons_of_mem _ h)]
    simp

lemma linesOf_terminated {lines : List (List γ)} (h : ∀ l ∈ lines, sep ∉ l) :
    linesOf sep (terminated sep lines) = lines := by
  induction lines with
  | nil => rfl
  | cons l lines ih =>
    obtain ⟨hli,hl⟩ := forall_mem_cons.mp h
    have hc : terminated sep (l::lines) = l++sep::terminated sep lines := by
      simp [terminated]
    rw [hc,linesOf,linesInto_append hli,nil_append]
    exact congrArg (l::·) (ih hl)
end
end Framing
