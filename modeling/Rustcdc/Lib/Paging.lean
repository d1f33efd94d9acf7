import Mathlib

/-! Reading a list in pages, each taken from behind the last item of the page before. -/
namespace Paging
open List
variable {β κ : Type*} [LinearOrder κ] (key : β → κ)

/-- Past the place a reader has come to. -/
def past (cursor : Option κ) (item : β) : Bool :=
  match cursor with
  | none => true
  | some cursor => cursor < key item
def page (items : List β) (limit : ℕ) (cursor : Option κ) : List β := (items.filter (past key cursor)).take limit

/-- The pages up to the first empty one. -/
def pages (fetch : Option κ → List β) : ℕ → Option κ → List (List β)
  | 0, _ => []
  | n+1, cursor =>
    match fetch cursor with
    | [] => []
    | item::items =>
      (item::items)::pages fetch n (some (key ((item::items).getLast (List.cons_ne_nil _ _))))

variable {key} {rest : List β} {cursor : Option κ} {limit : ℕ}
omit [LinearOrder κ] in
lemma pages_congr {fetch fetch' : Option κ → List β} (h : ∀ x, fetch (some (key x)) = fetch' (some (key x))) (n : ℕ)
    (hc : fetch cursor = fetch' cursor) :
    pages key fetch n cursor = pages key fetch' n cursor := by
  induction n generalizing cursor with
  | zero => rfl
  | succ n ih =>
    rw [pages,pages,hc]
    cases fetch' cursor with
    | nil => rfl
    | cons => exact congrArg _ (ih (h _))

variable {xs : List β}

lemma filter_past_last {fr : List β} {l : β} (hs : (xs.map key).Pairwise (· < ·)) (hsp : xs = fr++l::rest) :
    xs.filter (past key (some (key l))) = rest := by
  subst hsp
  rw [map_append,map_cons,pairwise_append,pairwise_cons] at hs
  obtain ⟨_,⟨hr,_⟩,hf⟩ := hs
  rw [filter_append,filter_cons_of_neg (by simp [past])]
  have hn : fr.filter (past key (some (key l))) = [] := by
    rw [filter_eq_nil_iff]
    intro x hi
    have hl := hf (key x) (mem_map_of_mem hi) (key l) (by simp)
    simpa [past] using hl.le
  have ha : rest.filter (past key (some (key l))) = rest := by
    rw [filter_eq_self]
    intro x hi
    simpa [past] using hr (key x) (mem_map_of_mem hi)
  rw [hn,ha,nil_append]

lemma pairwise_filter (h : (xs.map key).Pairwise (· < ·)) (keep : β → Bool) :
    ((xs.filter keep).map key).Pairwise (· < ·) := by
  rw [pairwise_map] at h ⊢
  exact h.filter keep

lemma filter_past_page (hso : (xs.map key).Pairwise (· < ·)) {x : β} (hp : page key xs limit cursor = x::rest) :
    xs.filter (past key (some (key ((x::rest).getLast (cons_ne_nil _ _))))) =
      (xs.filter (past key cursor)).drop limit := by
  generalize hla : (x::rest).getLast (cons_ne_nil _ _) = last
  have hf : x::rest = (x::rest).dropLast++[last] := by
    rw [← hla,dropLast_append_getLast]
  have hs : xs.filter (past key cursor) = (x::rest).dropLast++last::(xs.filter (past key cursor)).drop limit := by
    calc xs.filter (past key cursor) = x::rest++(xs.filter (past key cursor)).drop limit := by
          rw [← hp,page,take_append_drop]
      _ = (x::rest).dropLast++[last]++(xs.filter (past key cursor)).drop limit := by
          rw [← hf]
      _ = _ := by rw [append_assoc,singleton_append]
  have hl : past key cursor last = true := by
    have hm : last ∈ xs.filter (past key cursor) := hs ▸ by simp
    exact (mem_filter.mp hm).2
  -- behind the last item is behind the old cursor as well
  have hn : (xs.filter (past key cursor)).filter (past key (some (key last))) =
      xs.filter (past key (some (key last))) := by
    rw [filter_filter]
    refine filter_congr fun other _ => ?_
    cases hpa : past key (some (key last)) other with
    | false => rfl
    | true =>
      cases cursor with
      | none => rfl
      | some cursor =>
        have hlt : cursor < key last := by simpa [past] using hl
        have hlt' : key last < key other := by simpa [past] using hpa
        simpa [past] using hlt.trans hlt'
  rw [← hn]
  exact filter_past_last (pairwise_filter hso _) hs

lemma mem_take_of_le_getLast (hs : (xs.map key).Pairwise (· < ·)) {l x : β}
    (hl : (xs.take limit).getLast? = some l) (hi : x ∈ xs)
    (hle : key x ≤ key l) : x ∈ xs.take limit := by
  rw [← take_append_drop limit xs,mem_append] at hi
  rcases hi with hk | hc
  · exact hk
  · rw [pairwise_map,← take_append_drop limit xs,pairwise_append] at hs
    have hlt := hs.2.2 l (mem_of_getLast? hl) x hc
    exact absurd hle (not_le.mpr hlt)

/-- The pages are the items, each once and in order. -/
theorem flatten_pages (hs : (xs.map key).Pairwise (· < ·)) (hl : 0 < limit) {n : ℕ}
    (hn : (xs.filter (past key cursor)).length ≤ n) :
    (pages key (page key xs limit) n cursor).flatten = xs.filter (past key cursor) := by
  induction n generalizing cursor with
  | zero =>
    rw [eq_nil_of_length_eq_zero (Nat.le_zero.mp hn)]
    rfl
  | succ n ih =>
    rw [pages]
    cases hp : page key xs limit cursor with
    | nil =>
      rcases take_eq_nil_iff.mp hp with hz | hno
      · omega
      · rw [hno]
        rfl
    | cons x rest =>
      have hle := filter_past_page hs hp
      have hsp : x::rest++(xs.filter (past key cursor)).drop limit = xs.filter (past key cursor) := by
        rw [← hp,page,take_append_drop]
      have hsh : (xs.filter (past key (some (key ((x::rest).getLast (cons_ne_nil _ _)))))).length ≤ n := by
        rw [hle,length_drop]
        omega
      rw [flatten_cons,ih hsh,hle,hsp]
end Paging
