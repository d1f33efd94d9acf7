import Rustcdc.Core.Json
import Rustcdc.Lib.Framing

/-! Different JSON values have different texts. -/
namespace Rustcdc.Json
open List Framing

def hexValue (c : Char) : ℕ := if c.isDigit then c.toNat-48 else c.toNat-87

/-- Read one character of a rendered string. -/
def unescape : List Char → Option (Char × List Char)
  | '\\':: 'u'::_::_::h::l::r => some (Char.ofNat (16*hexValue h+hexValue l),r)
  | '\\'::c::r =>
    some (if c = 'b' then '\x08' else if c = 'f' then '\x0c' else if c = 'n' then '\n'
      else if c = 'r' then '\r' else if c = 't' then '\t' else c,r)
  | c::r => some (c,r)
  | [] => none

lemma unescape_escapeChar (c : Char) (r : List Char) : unescape (escapeChar c++r) = some (c,r) := by
  unfold escapeChar
  split_ifs with h1 h2 h3 h4 h5 h6 h7 h8
  · subst h1; rfl
  · subst h2; rfl
  · subst h3; rfl
  · subst h4; rfl
  · subst h5; rfl
  · subst h6; rfl
  · subst h7; rfl
  · have hh : ∀ n < 32, Char.ofNat (16*hexValue (Nat.digitChar (n/16))+
        hexValue (Nat.digitChar (n%16))) = Char.ofNat n := by decide
    simp [hexByte,unescape,hh c.toNat h8]
  · unfold unescape
    split <;> simp_all

lemma escapeChar_head (c : Char) : ∃ d ds, escapeChar c = d::ds ∧ d ≠ '"' := by
  unfold escapeChar
  split_ifs with h1
  all_goals exact ⟨_,_,rfl,by simp_all⟩

lemma renderString_tellsApart (s t : String) : TellsApart renderString s t := by
  intro r r' h
  have hc := TellsApart.terminated (TellsApart.of_reader unescape unescape_escapeChar)
    escapeChar_head s.toList t.toList
  simp only [renderString,cons_append,List.cons.injEq,true_and] at h
  obtain ⟨hl,hr⟩ := hc r r' h
  exact ⟨String.toList_inj.mp hl,hr⟩

/-- What follows a value does not continue a number. -/
def Stops (r : List Char) : Prop := ∀ c ∈ r.head?, isNumberChar c = false
lemma stops_cons {c : Char} (h : isNumberChar c = false) (r : List Char) : Stops (c::r) := by
  intro d hd
  rwa [← Option.some.inj hd]

lemma takeWhile_number {n : JsonNumber} {r : List Char} (hr : Stops r) :
    (n.text++r).takeWhile isNumberChar = n.text := by
  have ha := all_eq_true.mp n.wellFormed.2
  rw [takeWhile_append_of_pos ha]
  cases r with
  | nil => simp
  | cons c => rw [takeWhile_cons_of_neg (by simp [hr c rfl]),append_nil]

/-- The kinds of value a reader distinguishes by their first character. -/
def kind : Json → ℕ
  | .null => 0
  | .bool true => 1
  | .bool false => 2
  | .num _ => 3
  | .str _ => 4
  | .arr _ => 5
  | .obj _ => 6

def kindOf (c : Char) : ℕ :=
  if c = 'n' then 0 else if c = 't' then 1 else if c = 'f' then 2 else if c = '"' then 4
  else if c = '[' then 5 else if c = '\x7b' then 6 else 3

lemma render_head (v : Json) : ∃ c cs, v.render = c::cs ∧ kindOf c = v.kind ∧ c ≠ ']' := by
  cases v with
  | null => exact ⟨_,_,rfl,by decide,by decide⟩
  | bool va => cases va <;> exact ⟨_,_,rfl,by decide,by decide⟩
  | num n =>
    obtain ⟨c,cs,ht⟩ := exists_cons_of_ne_nil n.wellFormed.1
    have hn : isNumberChar c = true := all_eq_true.mp n.wellFormed.2 c (ht ▸ mem_cons_self)
    have ho : ∀ d, isNumberChar d = false → c ≠ d := by
      rintro d hd rfl
      rw [hn] at hd
      cases hd
    refine ⟨c,cs,ht,?_,ho _ (by decide)⟩
    simp only [kindOf,kind]
    rw [if_neg (ho _ (by decide)),if_neg (ho _ (by decide)),if_neg (ho _ (by decide)),
      if_neg (ho _ (by decide)),if_neg (ho _ (by decide)),if_neg (ho _ (by decide))]
  | str | arr | obj => exact ⟨_,_,rfl,rfl,by decide⟩

lemma kind_eq {v w : Json} {r s : List Char} (h : v.render++r = w.render++s) : v.kind = w.kind := by
  obtain ⟨c,cs,hv,hk,_⟩ := v.render_head
  obtain ⟨d,ds,hw,hk',_⟩ := w.render_head
  rw [hv,hw,cons_append,cons_append] at h
  rw [← hk,← hk',(List.cons.inj h).1]

/-- What is written behind the first item. -/
def itemsTail : List Json → List Char
  | [] => []
  | items => ','::renderItems items

lemma renderItems_cons (x : Json) (items : List Json) : renderItems (x::items) = x.render++itemsTail items := by
  cases items with
  | nil => simp [renderItems,itemsTail]
  | cons => rfl

def fieldsTail : List (String × Json) → List Char
  | [] => []
  | fields => ','::renderFields fields

lemma renderFields_cons (k : String) (v : Json) (fs : List (String × Json)) :
    renderFields ((k,v)::fs) = renderString k++ ':'::(v.render++fieldsTail fs) := by
  cases fs with
  | nil => simp [renderFields,fieldsTail]
  | cons => rfl

lemma itemsTail_stops (xs : List Json) (r : List Char) : Stops (itemsTail xs++ ']'::r) := by
  cases xs <;> exact stops_cons (by decide) _
lemma fieldsTail_stops (fs : List (String × Json)) (r : List Char) : Stops (fieldsTail fs++ '\x7d'::r) := by
  cases fs <;> exact stops_cons (by decide) _

mutual
/-- A rendered value can be told apart from any other, as long as no number runs on. -/
theorem render_tells (v w : Json) {r s : List Char} (hr : Stops r) (hs : Stops s)
    (h : v.render++r = w.render++s) : v = w ∧ r = s := by
  have hk := kind_eq h
  match v, w, hk with
  | .null, .null, _ => exact ⟨rfl,append_cancel_left h⟩
  | .bool true, .bool true, _ => exact ⟨rfl,append_cancel_left h⟩
  | .bool false, .bool false, _ => exact ⟨rfl,append_cancel_left h⟩
  | .num m, .num n, _ =>
    have ht : m.text = n.text := by
      have hsa : m.text++r = n.text++s := h
      have hrea := @takeWhile_number m r hr
      rwa [hsa,takeWhile_number hs,eq_comm] at hrea
    have hm : m = n := by
      cases m
      cases n
      simp_all
    subst hm
    exact ⟨rfl,append_cancel_left h⟩
  | .str a, .str b, _ =>
    obtain ⟨rfl,hre⟩ := renderString_tellsApart a b r s h
    exact ⟨rfl,hre⟩
  | .arr xs, .arr ys, _ =>
    simp only [render,cons_append,append_assoc,nil_append,List.cons.injEq,true_and] at h
    obtain ⟨rfl,hre⟩ := renderItems_tells xs ys h
    exact ⟨rfl,hre⟩
  | .obj xs, .obj ys, _ =>
    simp only [render,cons_append,append_assoc,nil_append,List.cons.injEq,true_and] at h
    obtain ⟨rfl,hre⟩ := renderFields_tells xs ys h
    exact ⟨rfl,hre⟩

lemma renderItems_tells (xs ys : List Json) {r s : List Char}
    (h : renderItems xs++ ']'::r = renderItems ys++ ']'::s) : xs = ys ∧ r = s := by
  match xs, ys with
  | [], [] => exact ⟨rfl,(List.cons.inj h).2⟩
  | [], y::ys =>
    obtain ⟨c,cs,hy,_,hn⟩ := y.render_head
    rw [renderItems_cons,hy] at h
    exact absurd (List.cons.inj h).1.symm hn
  | x::xs, [] =>
    obtain ⟨c,cs,hx,_,hn⟩ := x.render_head
    rw [renderItems_cons,hx] at h
    exact absurd (List.cons.inj h).1 hn
  | x::xs, y::ys =>
    rw [renderItems_cons,renderItems_cons,append_assoc,append_assoc] at h
    obtain ⟨hf,ht⟩ := render_tells x y (itemsTail_stops xs r) (itemsTail_stops ys s) h
    match xs, ys with
    | [], [] => exact ⟨by rw [hf],(List.cons.inj ht).2⟩
    | [], _::_ => exact absurd (List.cons.inj ht).1 (by decide)
    | _::_, [] => exact absurd (List.cons.inj ht).1 (by decide)
    | x'::xs, y'::ys =>
      obtain ⟨hre,hr⟩ := renderItems_tells (x'::xs) (y'::ys) (List.cons.inj ht).2
      exact ⟨by rw [hf,hre],hr⟩

lemma renderFields_tells (xs ys : List (String × Json)) {r s : List Char}
    (h : renderFields xs++ '\x7d'::r = renderFields ys++ '\x7d'::s) : xs = ys ∧ r = s := by
  match xs, ys with
  | [], [] => exact ⟨rfl,(List.cons.inj h).2⟩
  | [], (key,value)::ys =>
    rw [renderFields_cons] at h
    exact absurd (List.cons.inj h).1 (by decide)
  | (key,value)::xs, [] =>
    rw [renderFields_cons] at h
    exact absurd (List.cons.inj h).1 (by decide)
  | (key,x)::xs, (key',y)::ys =>
    rw [renderFields_cons,renderFields_cons,append_assoc,append_assoc] at h
    obtain ⟨hk,hv⟩ := renderString_tellsApart key key' _ _ h
    simp only [cons_append,append_assoc,List.cons.injEq,true_and] at hv
    obtain ⟨hf,ht⟩ := render_tells x y (fieldsTail_stops xs r) (fieldsTail_stops ys s) hv
    match xs, ys with
    | [], [] => exact ⟨by rw [hk,hf],(List.cons.inj ht).2⟩
    | [], _::_ => exact absurd (List.cons.inj ht).1 (by decide)
    | _::_, [] => exact absurd (List.cons.inj ht).1 (by decide)
    | x'::xs, y'::ys =>
      obtain ⟨hre,hr⟩ := renderFields_tells (x'::xs) (y'::ys) (List.cons.inj ht).2
      exact ⟨by rw [hk,hf,hre],hr⟩
end
lemma render_injective : Function.Injective render := fun v w h =>
  (render_tells v w (r := []) (s := []) (by simp [Stops]) (by simp [Stops]) (by rw [h])).1
end Rustcdc.Json
