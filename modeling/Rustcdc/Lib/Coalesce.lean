import Mathlib

/-! Coalescing a sequence of named items: each name keeps the place of its first item and the last
item that has it.  When that leaves the effect of the items alone, and what it removes. -/
namespace Coalesce
open List
variable {α F : Type*} [DecidableEq F] (name : α → Option F)

/-- The last item with the name, after `x`. -/
def latest (f : F) : α → List α → α
  | x, [] => x
  | x, y::ys => if name y = some f then latest f y ys else latest f x ys

/-- The items without the name. -/
def others (f : F) (xs : List α) : List α := xs.filter fun x => name x ≠ some f
lemma length_others_le (f : F) (xs : List α) : (others name f xs).length ≤ xs.length := length_filter_le _ _

variable {name} in
lemma others_eq_self {f : F} {xs : List α} (h : ∀ x ∈ xs, name x ≠ some f) : others name f xs = xs :=
  filter_eq_self.mpr fun x hx => by simpa using h x hx

def coalesce : List α → List α
  | [] => []
  | x::xs =>
    match name x with
    | none => x::coalesce xs
    | some f => latest name f x xs::coalesce (others name f xs)
termination_by xs => xs.length
decreasing_by
  · simp
  · exact Nat.lt_succ_of_le (length_others_le name f xs)

/-- Items left out of a sequence, each on account of a later one. -/
inductive Thins (R : α → α → Prop) : List α → List α → Prop
  | nil : Thins R [] []
  | keep (x : α) {xs ys : List α} (h : Thins R xs ys) : Thins R (x::xs) (x::ys)
  | drop (x : α) {xs ys : List α} (hlater : ∃ y ∈ xs, R x y) (h : Thins R xs ys) : Thins R (x::xs) ys

variable {R : α → α → Prop}

lemma Thins.mono {S : α → α → Prop} {xs ys : List α} (h : Thins R xs ys)
    (hr : ∀ pre x post y, xs = pre++x::post → y ∈ post → R x y → S x y) : Thins S xs ys := by
  induction h with
  | nil => exact .nil
  | keep x _ ih =>
    refine .keep x (ih fun pre z post y hs => ?_)
    exact hr (x::pre) z post y (by rw [hs,cons_append])
  | @drop x xs ys hl _ ih =>
    obtain ⟨y,hy,hx⟩ := hl
    refine .drop x ⟨y,hy,hr [] x xs y rfl hy hx⟩ (ih fun pre z post y hs => ?_)
    exact hr (x::pre) z post y (by rw [hs,cons_append])

lemma Thins.refl (xs : List α) : Thins R xs xs := by
  induction xs with
  | nil => exact .nil
  | cons x xs ih => exact .keep x ih

lemma Thins.append {xs ys : List α} (h : Thins R xs ys) (r : List α) : Thins R (xs++r) (ys++r) := by
  induction h with
  | nil => exact Thins.refl r
  | keep x _ ih => exact .keep x ih
  | drop x hl _ ih =>
    obtain ⟨y,hy,hx⟩ := hl
    exact .drop x ⟨y,mem_append_left _ hy,hx⟩ ih

lemma latest_cases (f : F) (x : α) (xs : List α) : (∀ y ∈ xs, name y ≠ some f) ∧ latest name f x xs = x ∨
      ∃ mid y post, xs = mid++y::post ∧ name y = some f ∧ (∀ z ∈ post, name z ≠ some f) ∧ latest name f x xs = y := by
  induction xs generalizing x with
  | nil => exact .inl ⟨by simp,rfl⟩
  | cons y ys ih =>
    rw [latest]
    by_cases hy : name y = some f
    · rw [if_pos hy]
      right
      rcases ih y with ⟨hn,hl⟩ | ⟨mid,z,post,rfl,hz,hp,hl⟩
      · exact ⟨[],y,ys,rfl,hy,hn,hl⟩
      · exact ⟨y::mid,z,post,rfl,hz,hp,hl⟩
    · rw [if_neg hy]
      rcases ih x with ⟨hn,hl⟩ | ⟨mid,z,post,rfl,hz,hp,hl⟩
      · refine .inl ⟨fun z hz => ?_,hl⟩
        rcases mem_cons.mp hz with rfl | hz
        · exact hy
        · exact hn z hz
      · exact .inr ⟨y::mid,z,post,rfl,hz,hp,hl⟩

variable {name}
section
variable {S : Type*}

/-- What the items make of a state, one after the other. -/
def replay (act : α → S → S) (xs : List α) (s : S) : S := xs.foldl (fun s x => act x s) s

variable {act : α → S → S}

@[simp] lemma replay_cons (x : α) (xs : List α) (s : S) : replay act (x::xs) s = replay act xs (act x s) := rfl
@[simp] lemma replay_append (xs ys : List α) (s : S) :
    replay act (xs++ys) s = replay act ys (replay act xs s) := foldl_append

/-- Of two items with one name the later undoes the earlier, and it passes over what lies between
them under other names. -/
def Separable (name : α → Option F) (act : α → S → S) (xs : List α) : Prop :=
  ∀ pre x mid y post, xs = pre++x::(mid++y::post) → name x = name y → name x ≠ none →
    (∀ s, act y (act x s) = act y s) ∧ ∀ m ∈ mid, name m ≠ name y → ∀ s, act y (act m s) = act m (act y s)

variable {xs : List α}

omit [DecidableEq F] in
lemma Separable.tail {x : α} (h : Separable name act (x::xs)) : Separable name act xs := fun pre y mid z post hs =>
  h (x::pre) y mid z post (by rw [hs,cons_append])

omit [DecidableEq F] in
lemma Separable.filter (h : Separable name act xs) (keep : α → Bool) : Separable name act (xs.filter keep) := by
  intro pre x mid y post hs hn hso
  obtain ⟨pre',r,rfl,rfl,hr⟩ := filter_eq_append_iff.mp hs
  obtain ⟨skipped,r',rfl,_,_,hr'⟩ := filter_eq_cons_iff.mp hr
  obtain ⟨mid',r'',rfl,rfl,ht⟩ := filter_eq_append_iff.mp hr'
  obtain ⟨skipped',post',rfl,_,_,_⟩ := filter_eq_cons_iff.mp ht
  obtain ⟨hu,hp⟩ := h (pre'++skipped) x (mid'++skipped') y post' (by simp) hn hso
  exact ⟨hu,fun m hm => hp m (mem_append_left _ (mem_of_mem_filter hm))⟩

/-- An item goes in front of those before it, if it undoes the ones of its name and passes over the
others. -/
theorem replay_forward {f : F} {y : α} (hu : ∀ x ∈ xs, name x = some f → ∀ s, act y (act x s) = act y s)
    (hp : ∀ x ∈ xs, name x ≠ some f → ∀ s, act y (act x s) = act x (act y s)) (s : S) :
    replay act (xs++[y]) s = replay act (y::others name f xs) s := by
  induction xs generalizing s with
  | nil => rfl
  | cons x xs ih =>
    rw [cons_append,replay_cons,ih (fun z hz => hu z (mem_cons_of_mem _ hz))
      (fun z hz => hp z (mem_cons_of_mem _ hz)),replay_cons,replay_cons]
    by_cases hx : name x = some f
    · rw [hu x mem_cons_self hx,others,others,filter_cons_of_neg (by simp [hx])]
    · rw [hp x mem_cons_self hx,others,others,filter_cons_of_pos (by simp [hx]),replay_cons]

/-- Items between which nothing interferes have the effect of their coalesced sequence. -/
theorem replay_coalesce (h : Separable name act xs) (s : S) : replay act (coalesce name xs) s = replay act xs s := by
  fun_induction coalesce name xs generalizing s with
  | case1 => rfl
  | case2 x xs hx ih =>
    exact ih h.tail _
  | case3 x xs f hx ih =>
    rw [replay_cons,ih (h.tail.filter _)]
    rcases latest_cases name f x xs with ⟨hno,hl⟩ | ⟨mid,y,post,rfl,hy,hpo,hl⟩
    · rw [hl,others_eq_self hno,replay_cons]
    · have hot : others name f (mid++y::post) = others name f (x::mid)++post := by
        rw [others,others,filter_append,filter_cons_of_neg (by simp [hy]),filter_cons_of_neg (by simp [hx])]
        exact congrArg _ (others_eq_self hpo)
      -- the last item of the name undoes the others of it, and passes over what is between them
      have hu : ∀ z ∈ x::mid, name z = some f → ∀ s, act y (act z s) = act y s := by
        intro z hz hn
        obtain ⟨pre,between,hs⟩ := append_of_mem hz
        refine (h pre z between y post ?_ (hn.trans hy.symm) (by simp [hn])).1
        rw [← cons_append,hs,append_assoc,cons_append]
      have hp : ∀ z ∈ x::mid, name z ≠ some f → ∀ s, act y (act z s) = act z (act y s) := by
        intro z hz ho
        rcases mem_cons.mp hz with rfl | hz
        · exact absurd hx ho
        · exact (h [] x mid y post rfl (hx.trans hy.symm) (by simp [hx])).2 z hz (hy ▸ ho)
      have hf := replay_forward hu hp s
      rw [replay_cons] at hf
      rw [hl,hot,replay_append,← hf,← replay_append,append_assoc]
      rfl
end
/-- The names of two items agree, so that the later one stands for both. -/
def Replaced (name : α → Option F) (x y : α) : Prop := name x = name y ∧ name x ≠ none

lemma thins_others {f : F} {xs kept : List α} (h : Thins (Replaced name) (others name f xs) kept)
    {mid post : List α} {y : α} (hs : xs = mid++y::post) (hy : name y = some f)
    (hpo : ∀ z ∈ post, name z ≠ some f) :
    ∃ kept', Thins (Replaced name) xs kept' ∧ kept'.Perm (y::kept) := by
  induction mid generalizing xs kept with
  | nil =>
    subst hs
    have ho : others name f (y::post) = post := by
      rw [others,filter_cons_of_neg (by simp [hy])]
      exact others_eq_self hpo
    rw [nil_append,ho] at h
    exact ⟨y::kept,.keep y h,.refl _⟩
  | cons z mid ih =>
    subst hs
    by_cases hz : name z = some f
    · have ho : others name f (z::mid++y::post) = others name f (mid++y::post) := filter_cons_of_neg (by simp [hz])
      rw [ho] at h
      obtain ⟨kept',ht,hp⟩ := ih h rfl
      exact ⟨kept',.drop z ⟨y,by simp,hz.trans hy.symm,by simp [hz]⟩ ht,hp⟩
    · have ho : others name f (z::mid++y::post) = z::others name f (mid++y::post) := filter_cons_of_pos (by simp [hz])
      rw [ho] at h
      cases h with
      | keep _ hr =>
        obtain ⟨kept',ht,hp⟩ := ih hr rfl
        exact ⟨z::kept',.keep z ht,(hp.cons z).trans (.swap y z _)⟩
      | drop _ hl hr =>
        obtain ⟨kept',ht,hp⟩ := ih hr rfl
        obtain ⟨w,hw,hzw⟩ := hl
        exact ⟨kept',.drop z ⟨w,mem_of_mem_filter hw,hzw⟩ ht,hp⟩

/-- Coalescing removes an item only on account of a later one of its name. -/
theorem coalesce_thins (xs : List α) : ∃ kept, Thins (Replaced name) xs kept ∧ (coalesce name xs).Perm kept := by
  fun_induction coalesce name xs with
  | case1 => exact ⟨[],.nil,.refl _⟩
  | case2 x xs hx ih =>
    obtain ⟨kept,ht,hp⟩ := ih
    exact ⟨x::kept,.keep x ht,hp.cons x⟩
  | case3 x xs f hx ih =>
    obtain ⟨kept,ht,hp⟩ := ih
    rcases latest_cases name f x xs with ⟨hn,hl⟩ | ⟨mid,y,post,hs,hy,hpo,hl⟩
    · rw [others_eq_self hn] at ht
      rw [hl]
      exact ⟨x::kept,.keep x ht,hp.cons x⟩
    · obtain ⟨kept',ht',hp'⟩ := thins_others ht hs hy hpo
      refine ⟨kept',.drop x ⟨y,by simp [hs],hx.trans hy.symm,by simp [hx]⟩ ht',?_⟩
      rw [hl]
      exact (hp.cons y).trans hp'.symm
section
/-- The name has a place already. -/
def known (name : α → Option F) (xs : List α) (x : α) : Bool := (name x).isSome && xs.any (name · = name x)

variable {xs : List α} {x : α}

lemma known_eq_true : known name xs x = true ↔ name x ≠ none ∧ ∃ y ∈ xs, name y = name x := by
  simp [known,Option.isSome_iff_ne_none]

lemma known_eq_false : known name xs x = false ↔ (name x ≠ none → ∀ y ∈ xs, name y ≠ name x) := by
  rw [← Bool.not_eq_true,known_eq_true]
  push Not
  rfl

/-- An item takes the place of the one with its name, or a new place at the end. -/
def place (name : α → Option F) (xs : List α) (x : α) : List α :=
  if known name xs x then xs.map fun y => if name y = name x then x else y
  else xs++[x]

/-- The item that ends up where `x` is. -/
def refresh (name : α → Option F) (later : List α) (x : α) : α :=
  match name x with
  | none => x
  | some f => latest name f x later

lemma refresh_cons_of_ne {y : α} (hne : name x = none ∨ name y ≠ name x) (lt : List α) :
    refresh name (y::lt) x = refresh name lt x := by
  unfold refresh
  cases hx : name x with
  | none => rfl
  | some =>
    dsimp only
    rw [latest,if_neg]
    rcases hne with hn | hne
    · cases hx.symm.trans hn
    · rwa [hx] at hne

lemma refresh_cons_of_eq {y : α} (hs : name x ≠ none) (hn : name y = name x)
    (lt : List α) : refresh name (y::lt) x = refresh name lt y := by
  unfold refresh
  rw [hn]
  cases hx : name x with
  | none => exact absurd hx hs
  | some =>
    dsimp only
    rw [latest,if_pos (hn.trans hx)]

lemma latest_filter {f : F} {keep : α → Bool} (h : ∀ x ∈ xs, name x = some f → keep x = true) (x : α) :
    latest name f x (xs.filter keep) = latest name f x xs := by
  induction xs generalizing x with
  | nil => rfl
  | cons y ys ih =>
    have hr := fun z => ih (fun w hw => h w (mem_cons_of_mem _ hw)) z
    by_cases hy : name y = some f
    · rw [filter_cons_of_pos (h y mem_cons_self hy),latest,latest,if_pos hy,if_pos hy,hr]
    · rw [latest,if_neg hy]
      cases hk : keep y with
      | true => rw [filter_cons_of_pos hk,latest,if_neg hy,hr]
      | false => rw [filter_cons_of_neg (by simp [hk]),hr]

lemma known_replaced (xs : List α) (x z : α) :
    known name (xs.map fun y => if name y = name x then x else y) z = known name xs z := by
  have hn : ∀ y ∈ xs, name (if name y = name x then x else y) = name y := by
    intro y _
    by_cases h : name y = name x
    · rw [if_pos h,h]
    · rw [if_neg h]
  unfold known
  rw [any_map]
  congr 1
  rw [Bool.eq_iff_iff,any_eq_true,any_eq_true]
  exact exists_congr fun y => and_congr_right fun hy => by rw [Function.comp_apply,hn y hy]

lemma known_append_singleton (xs : List α) (x z : α) :
    known name (xs++[x]) z = (known name xs z || known name [x] z) := by
  unfold known
  rw [any_append,Bool.and_or_distrib_left]

lemma known_unnamed (hx : name x = none) (z : α) : known name [x] z = false := known_eq_false.mpr fun hz y hy => by
    rw [mem_singleton.mp hy,hx]
    exact Ne.symm hz

lemma known_named {f : F} (hx : name x = some f) (z : α) : known name [x] z = decide (name z = some f) := by
  rw [Bool.eq_iff_iff,known_eq_true,decide_eq_true_iff]
  constructor
  · rintro ⟨_,y,hy,hn⟩
    rw [← hn,mem_singleton.mp hy,hx]
  · intro hz
    exact ⟨by simp [hz],x,mem_singleton.mpr rfl,hx.trans hz.symm⟩

/-- Placing the items one by one coalesces them. -/
theorem foldl_place (xs lt : List α) : lt.foldl (place name) xs =
    xs.map (refresh name lt)++coalesce name (lt.filter (!known name xs ·)) := by
  induction lt generalizing xs with
  | nil =>
    have hs : ∀ x ∈ xs, refresh name [] x = x := by
      intro x _
      unfold refresh
      cases name x <;> rfl
    rw [foldl_nil,filter_nil,coalesce,append_nil,map_congr_left hs,map_id']
  | cons y lt ih =>
    rw [foldl_cons,ih,place]
    cases hk : known name xs y with
    | true =>
      have hso := (known_eq_true.mp hk).1
      rw [if_pos rfl,filter_cons_of_neg (by simp [hk]),map_map]
      refine congrArg₂ _ (map_congr_left fun x _ => ?_) (congrArg _ (filter_congr ?_))
      · by_cases hn : name x = name y
        · rw [Function.comp_apply,if_pos hn,refresh_cons_of_eq (hn ▸ hso) hn.symm]
        · rw [Function.comp_apply,if_neg hn,refresh_cons_of_ne (.inr (Ne.symm hn))]
      · intro z _
        rw [known_replaced]
    | false =>
      have hf := known_eq_false.mp hk
      rw [if_neg (by simp),filter_cons_of_pos (by simp [hk]),map_append,append_assoc]
      refine congrArg₂ _ (map_congr_left fun x hx => ?_) ?_
      · refine (refresh_cons_of_ne ?_ lt).symm
        by_cases hno : name x = none
        · exact .inl hno
        · exact .inr fun hn => hf (hn ▸ hno) x hx hn.symm
      · rw [coalesce,map_singleton,singleton_append]
        cases hy : name y with
        | none =>
          refine congrArg₂ _ (by rw [refresh,hy]) (congrArg _ (filter_congr fun z _ => ?_))
          rw [known_append_singleton,known_unnamed hy,Bool.or_false]
        | some f =>
          have hr : ∀ z ∈ lt, name z = some f → (!known name xs z) = true := by
            intro z _ hz
            have hz' : known name xs z = false := known_eq_false.mpr fun _ x hx hxz =>
              hf (by simp [hy]) x hx (by rw [hxz,hz,hy])
            rw [hz',Bool.not_false]
          refine congrArg₂ _ ?_ (congrArg _ ?_)
          · rw [refresh,hy]
            exact (latest_filter hr y).symm
          · rw [others,filter_filter]
            refine filter_congr fun z _ => ?_
            rw [known_append_singleton,known_named hy,Bool.not_or,Bool.and_comm,decide_not]
end
end Coalesce
