import Mathlib

/-! A queue fed by a source that may send items again, drained from the front, with a durable
position.  The source sends groups of items, and a group is known by the position it ends at. -/

/-- Items in the order they came, each marked when its group had not been sent before.  The
first `done` of them are drained. -/
structure Feed (α : Type) where
  queue : List (α × Bool)
  done : ℕ
  saved : ℕ

namespace Feed
open List
variable {α : Type}

/-- The items as they were first sent. -/
def firsts (queue : List (α × Bool)) : List α := (queue.filter (·.2)).map (·.1)
@[simp] lemma firsts_append (p q : List (α × Bool)) : firsts (p++q) = firsts p++firsts q := by
  simp [firsts]
lemma mem_firsts {queue : List (α × Bool)} {a : α} : a ∈ firsts queue ↔ (a,true) ∈ queue := by
  simp [firsts]

variable (endOf : α → ℕ)

/-- The item's group is not among those sent so far. -/
def isNew (sent : List α) (a : α) : Bool := decide (endOf a ∉ sent.map endOf)

/-- A batch as it enters the queue. -/
def marked (sent batch : List α) : List (α × Bool) := batch.map fun a => (a,isNew endOf sent a)
@[simp] lemma marked_map_fst (sent batch : List α) : (marked endOf sent batch).map (·.1) = batch := by
  simp [marked,Function.comp_def]
lemma firsts_marked (sent b : List α) : firsts (marked endOf sent b) = b.filter (isNew endOf sent) := by
  simp [firsts,marked,filter_map,Function.comp_def]
def append (f : Feed α) (batch : List α) : Feed α := {f with queue := f.queue++marked endOf (firsts f.queue) batch}

/-- Drain `count` more items and save a position. -/
def commit (f : Feed α) (count saved : ℕ) : Feed α := {f with done := f.done+count, saved := saved}

/-- No group sent for the first time ends before anything already queued. -/
def InOrder (a b : α × Bool) : Prop := b.2 = true → endOf a.1 ≤ endOf b.1 ∧ (a.2 = false → endOf a.1 < endOf b.1)

/-- The queue is in order of first sending, and the saved position is before every group with an
item that was sent and is not drained. -/
structure Ordered (start : ℕ) (f : Feed α) : Prop where
  sorted : f.queue.Pairwise (InOrder endOf)
  known : ∀ a ∈ f.queue, endOf a.1 ∈ (firsts f.queue).map endOf
  bound : f.saved ≤ start ∨ ∃ a ∈ firsts f.queue, f.saved ≤ endOf a
  ahead : ∀ a ∈ f.queue.drop f.done, a.2 = true → f.saved < endOf a.1

variable {endOf} {start : ℕ} {f : Feed α}

/-- A group the source sends for the first time ends after every group it has sent. -/
def Advances (endOf : α → ℕ) (start : ℕ) (sent batch : List α) : Prop :=
  batch.Pairwise (fun a b => endOf a ≤ endOf b) ∧
    ∀ a ∈ batch, isNew endOf sent a = true → start < endOf a ∧ ∀ b ∈ sent, endOf b < endOf a

lemma isNew_false {sent : List α} {a : α} (h : isNew endOf sent a = false) : endOf a ∈ sent.map endOf := by
  simpa [isNew] using h

lemma Ordered.append (h : f.Ordered endOf start) (hd : f.done ≤ f.queue.length)
    {ba : List α} (hba : Advances endOf start (firsts f.queue) ba) :
    (f.append endOf ba).Ordered endOf start := by
  obtain ⟨hso,hne⟩ := hba
  -- a new item ends after whatever an old one can end at
  have haf : ∀ a ∈ ba, isNew endOf (firsts f.queue) a = true → ∀ n ∈ (firsts f.queue).map endOf, n < endOf a := by
    intro a ha hi n hn
    obtain ⟨b,hb,rfl⟩ := mem_map.mp hn
    exact (hne a ha hi).2 b hb
  refine ⟨?_,?_,?_,?_⟩
  · refine pairwise_append.mpr ⟨h.sorted,?_,?_⟩
    · rw [marked,pairwise_map]
      refine hso.imp_of_mem fun {a b} ha hb hl hm => ⟨hl,fun hr => ?_⟩
      exact haf b hb hm _ (isNew_false hr)
    · intro a ha b hb hm
      obtain ⟨b,hit,rfl⟩ := mem_map.mp hb
      have hlt : endOf a.1 < endOf b := haf b hit hm _ (h.known a ha)
      exact ⟨hlt.le,fun _ => hlt⟩
  · intro a ha
    rw [Feed.append,firsts_append,map_append,mem_append]
    rcases mem_append.mp ha with ha | ha
    · exact .inl (h.known a ha)
    · obtain ⟨b,hb,rfl⟩ := mem_map.mp ha
      cases hm : isNew endOf (firsts f.queue) b with
      | false => exact .inl (isNew_false hm)
      | true =>
        refine .inr (mem_map_of_mem ?_)
        rw [firsts_marked]
        exact mem_filter.mpr ⟨hb,hm⟩
  · rcases h.bound with hs | ⟨a,ha,hl⟩
    · exact .inl hs
    · exact .inr ⟨a,by simp [Feed.append,ha],hl⟩
  · intro a ha hm
    simp only [Feed.append,drop_append_of_le_length hd,mem_append] at ha
    rcases ha with ha | ha
    · exact h.ahead a ha hm
    · obtain ⟨b,hb,rfl⟩ := mem_map.mp ha
      rcases h.bound with hs | ⟨c,hc,hl⟩
      · exact lt_of_le_of_lt hs (hne b hb hm).1
      · exact lt_of_le_of_lt hl ((hne b hb hm).2 c hc)

/-- Draining up to the end of a group, and saving no more than where it ends, keeps the saved
position before what is left. -/
theorem Ordered.commit (h : f.Ordered endOf start) {n saved : ℕ} {l : α × Bool}
    (hl : (f.queue.take (f.done+n)).getLast? = some l) (hsa : saved ≤ endOf l.1)
    (hb : ∀ a, (a,true) ∈ f.queue.drop (f.done+n) → endOf a ≠ endOf l.1) :
    (f.commit n saved).Ordered endOf start := by
  have hm := mem_of_getLast? hl
  refine ⟨h.sorted,h.known,?_,?_⟩
  · obtain ⟨a,ha,he⟩ := mem_map.mp (h.known l (mem_of_mem_take hm))
    exact .inr ⟨a,ha,he ▸ hsa⟩
  · rintro ⟨a,mark⟩ ha rfl
    have hs := h.sorted
    rw [← take_append_drop (f.done+n) f.queue,pairwise_append] at hs
    have hle := (hs.2.2 l hm (a,true) ha rfl).1
    have hn := hb a ha
    simp only [Feed.commit]
    simp only at hle
    omega
section
variable [DecidableEq α]

lemma count_map_fst (queue : List (α × Bool)) (a : α) :
    (queue.map (·.1)).count a = (firsts queue).count a+queue.count (a,false) := by
  induction queue with
  | nil => rfl
  | cons x queue ih =>
    obtain ⟨b,mark⟩ := x
    cases mark with
    | false =>
      have hf : firsts ((b,false)::queue) = firsts queue := rfl
      rw [map_cons,count_cons,count_cons,hf,ih]
      simp [Nat.add_assoc]
    | true =>
      have hf : firsts ((b,true)::queue) = b::firsts queue := rfl
      rw [map_cons,count_cons,hf,count_cons,ih,count_cons_of_ne (by simp)]
      simp only [Nat.add_right_comm]

lemma mem_diff_take (hso : f.queue.Pairwise (InOrder endOf)) (n : ℕ) (a : α) :
    a ∈ (firsts f.queue).diff ((f.queue.take n).map (·.1)) ↔ (a,true) ∈ f.queue.drop n := by
  have hs := hso
  rw [← take_append_drop n f.queue,pairwise_append] at hs
  have hf : firsts f.queue = firsts (f.queue.take n)++firsts (f.queue.drop n) := by
    rw [← firsts_append,take_append_drop]
  rw [← count_pos_iff,count_diff,hf,count_append,count_map_fst,← mem_firsts,← count_pos_iff]
  constructor
  · intro h
    omega
  · intro h
    -- an item sent again before it would belong to an earlier group
    have hr : (f.queue.take n).count (a,false) = 0 := by
      refine count_eq_zero.mpr fun hm => ?_
      have hfi := mem_firsts.mp (count_pos_iff.mp h)
      exact lt_irrefl _ ((hs.2.2 _ hm _ hfi rfl).2 rfl)
    omega

lemma Ordered.ahead_of_mem_diff (h : f.Ordered endOf start) {a : α}
    (ha : a ∈ (firsts f.queue).diff ((f.queue.take f.done).map (·.1))) : f.saved < endOf a :=
  h.ahead _ ((mem_diff_take h.sorted f.done a).mp ha) rfl
end
end Feed
