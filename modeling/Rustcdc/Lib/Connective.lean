import Mathlib

/-! Conditions as they are written: words, `AND`, `OR` and parentheses, where `AND` binds before `OR`
and parentheses before both.  Truth has three values, the third being unknown. -/
namespace Connective
open List

abbrev Truth := Option Bool

namespace Truth
def and : Truth → Truth → Truth
  | some false, _ => some false
  | some true, b => b
  | none, some false => some false
  | none, _ => none

def or : Truth → Truth → Truth
  | some true, _ => some true
  | some false, b => b
  | none, some true => some true
  | none, _ => none

lemma and_assoc (a b c : Truth) : and (and a b) c = and a (and b c) := by
  rcases a with _ | (_ | _) <;> rcases b with _ | (_ | _) <;> rcases c with _ | (_ | _) <;> rfl
lemma or_assoc (a b c : Truth) : or (or a b) c = or a (or b c) := by
  rcases a with _ | (_ | _) <;> rcases b with _ | (_ | _) <;> rcases c with _ | (_ | _) <;> rfl
@[simp] lemma and_true (a : Truth) : and a (some true) = a := by
  rcases a with _ | (_ | _) <;> rfl
@[simp] lemma or_false (a : Truth) : or a (some false) = a := by
  rcases a with _ | (_ | _) <;> rfl

@[simp] lemma some_and_some (a b : Bool) : and (some a) (some b) = some (a && b) := by
  cases a <;> rfl
@[simp] lemma some_or_some (a b : Bool) : or (some a) (some b) = some (a || b) := by
  cases a <;> rfl
lemma and_eq_true {a b : Truth} : and a b = some true ↔ a = some true ∧ b = some true := by
  rcases a with _ | (_ | _) <;> rcases b with _ | (_ | _) <;> simp [and]
def all (values : List Truth) : Truth := values.foldr and (some true)
def any (values : List Truth) : Truth := values.foldr or (some false)

lemma all_append (xs ys : List Truth) : all (xs++ys) = and (all xs) (all ys) := by
  induction xs with
  | nil => rfl
  | cons x xs ih =>
    change and x (all (xs++ys)) = and (and x (all xs)) (all ys)
    rw [ih,and_assoc]

lemma any_append (xs ys : List Truth) : any (xs++ys) = or (any xs) (any ys) := by
  induction xs with
  | nil => rfl
  | cons x xs ih =>
    change or x (any (xs++ys)) = or (or x (any xs)) (any ys)
    rw [ih,or_assoc]

lemma all_some (vs : List Bool) : all (vs.map some) = some (vs.all id) := by
  induction vs with
  | nil => rfl
  | cons v vs ih =>
    change and (some v) (all (vs.map some)) = _
    rw [ih,some_and_some]
    rfl

lemma any_some (vs : List Bool) : any (vs.map some) = some (vs.any id) := by
  induction vs with
  | nil => rfl
  | cons v vs ih =>
    change or (some v) (any (vs.map some)) = _
    rw [ih,some_or_some]
    rfl
end Truth
/-- A text whose parentheses are matched. -/
inductive Tree (α : Type)
  | and | or
  | word (w : α)
  | group (body : List (Tree α))

variable {α : Type}

def Tree.isAnd : Tree α → Bool
  | .and => true
  | _ => false
def Tree.isOr : Tree α → Bool
  | .or => true
  | _ => false

variable (leaf : List (Tree α) → Truth)

/-- What stands between two connectives: one group, or what the reader makes of it. -/
def part : List (Tree α × Truth) → Truth
  | [(.group _,value)] => value
  | items => leaf (items.map Prod.fst)

variable (items : List (Tree α × Truth))

def conjunction : Truth := .all ((items.splitOnP fun item => item.1.isAnd).map (part leaf))
def disjunction : Truth := .any ((items.splitOnP fun item => item.1.isOr).map (conjunction leaf))

mutual
/-- A group has the value of what it encloses. -/
def Tree.value : Tree α → Truth
  | .group body => disjunction leaf (values body)
  | _ => none
def values : List (Tree α) → List (Tree α × Truth)
  | [] => []
  | tree::trees => (tree,tree.value)::values trees
end
def truth (trees : List (Tree α)) : Truth := disjunction leaf (values leaf trees)

lemma values_append (xs ys : List (Tree α)) : values leaf (xs++ys) = values leaf xs++values leaf ys := by
  induction xs with
  | nil => rw [nil_append,values,nil_append]
  | cons x xs ih => rw [cons_append,values,values,ih,cons_append]

lemma values_fst (xs : List (Tree α)) : (values leaf xs).map Prod.fst = xs := by
  induction xs with
  | nil => rw [values,map_nil]
  | cons x xs ih => rw [values,map_cons,ih]

/-- No `OR` outside parentheses. -/
def NoOr (trees : List (Tree α)) : Prop := ∀ tree ∈ trees, tree.isOr = false
def NoAnd (trees : List (Tree α)) : Prop := ∀ tree ∈ trees, tree.isAnd = false

variable {t : List (Tree α)}

lemma NoOr.values (h : NoOr t) : ∀ item ∈ values leaf t, item.1.isOr = false := by
  intro item hi
  refine h item.1 ?_
  rw [← values_fst leaf t]
  exact mem_map_of_mem hi

lemma NoAnd.values (h : NoAnd t) : ∀ item ∈ values leaf t, item.1.isAnd = false := by
  intro item hi
  refine h item.1 ?_
  rw [← values_fst leaf t]
  exact mem_map_of_mem hi

lemma truth_or (xs ys : List (Tree α)) : truth leaf (xs++.or::ys) = (truth leaf xs).or (truth leaf ys) := by
  rw [truth,values_append,values,disjunction,splitOnP_append_cons _ _ rfl,map_append,Truth.any_append]
  rfl

variable {texts : List (List (Tree α))} {xs : List (Tree α)}

lemma truth_of_noOr (h : NoOr xs) : truth leaf xs = conjunction leaf (values leaf xs) := by
  rw [truth,disjunction,splitOnP_eq_singleton (h.values leaf)]
  exact Truth.or_false _

lemma truth_and {ys : List (Tree α)} (hx : NoOr xs) (hy : NoOr ys) :
    truth leaf (xs++.and::ys) = (truth leaf xs).and (truth leaf ys) := by
  have hb : NoOr (xs++.and::ys) := by
    intro tree ht
    rcases mem_append.mp ht with ht | ht
    · exact hx tree ht
    · rcases mem_cons.mp ht with rfl | ht
      · rfl
      · exact hy tree ht
  rw [truth_of_noOr leaf hb,truth_of_noOr leaf hx,truth_of_noOr leaf hy,values_append,values,
    conjunction,splitOnP_append_cons _ _ rfl,map_append,Truth.all_append]
  rfl

lemma truth_of_part (ho : NoOr xs) (hand : NoAnd xs) : truth leaf xs = part leaf (values leaf xs) := by
  rw [truth_of_noOr leaf ho,conjunction,splitOnP_eq_singleton (hand.values leaf)]
  exact Truth.and_true _
lemma truth_group (body : List (Tree α)) : truth leaf [.group body] = truth leaf body := by
  rw [truth_of_part leaf (by simp [NoOr,Tree.isOr]) (by simp [NoAnd,Tree.isAnd]),values,values,part,Tree.value,truth]

/-- A text without connectives is the reader's own, unless it is a group. -/
theorem truth_leaf (ho : NoOr xs) (hand : NoAnd xs) (hg : ∀ body, xs ≠ [.group body]) : truth leaf xs = leaf xs := by
  rw [truth_of_part leaf ho hand]
  unfold part
  split
  · rename_i body value hi
    have hx := values_fst leaf xs
    rw [hi] at hx
    exact absurd hx.symm (hg body)
  · rw [values_fst]

/-- The texts with a connective between them. -/
def join (connective : Tree α) : List (List (Tree α)) → List (Tree α)
  | [] => []
  | [text] => text
  | text::next::texts => text++connective::join connective (next::texts)

lemma truth_join_or (h : texts ≠ []) : truth leaf (join .or texts) = .any (texts.map (truth leaf)) := by
  fun_induction join (Tree.or : Tree α) texts with
  | case1 => exact absurd rfl h
  | case2 => exact (Truth.or_false _).symm
  | case3 te n texts ih =>
    rw [truth_or,ih (by simp)]
    rfl

lemma noOr_join_and (h : ∀ te ∈ texts, NoOr te) : NoOr (join .and texts) := by
  fun_induction join (Tree.and : Tree α) texts with
  | case1 => simp [NoOr]
  | case2 te => exact h te (by simp)
  | case3 te n texts ih =>
    intro tree ht
    rcases mem_append.mp ht with ht | ht
    · exact h te (by simp) tree ht
    · rcases mem_cons.mp ht with rfl | ht
      · rfl
      · exact ih (fun o ho => h o (mem_cons_of_mem _ ho)) tree ht

lemma truth_join_and (hn : texts ≠ []) (h : ∀ te ∈ texts, NoOr te) :
    truth leaf (join .and texts) = .all (texts.map (truth leaf)) := by
  fun_induction join (Tree.and : Tree α) texts with
  | case1 => exact absurd rfl hn
  | case2 => exact (Truth.and_true _).symm
  | case3 te n texts ih =>
    have hr : ∀ other ∈ n::texts, NoOr other := fun other ho =>
      h other (mem_cons_of_mem _ ho)
    rw [truth_and leaf (h te (by simp)) (noOr_join_and hr),ih (by simp) hr]
    rfl
end Connective
