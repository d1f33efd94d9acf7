import Rustcdc.Lib.Run

/-! Reading several lists, each from its front, with a source that may fail: what a reader has handed
out and where it stands in each list fit together. -/
namespace Scan
open Function List
variable {π : Type*}

/-- What was taken from one list. -/
def of (i : ℕ) (rows : List (ℕ × π)) : List π := (rows.filter (·.1 = i)).map Prod.snd
@[simp] lemma of_nil (i : ℕ) : of i ([] : List (ℕ × π)) = [] := rfl
@[simp] lemma of_append (i : ℕ) (rows more : List (ℕ × π)) : of i (rows++more) = of i rows++of i more := by
  rw [of,filter_append,map_append,of,of]

/-- From one place to another, by the rows between them. -/
def Took (content : ℕ → List π) (done : ℕ → ℕ) (rows : List (ℕ × π)) (done' : ℕ → ℕ) : Prop :=
  ∀ i, (content i).take (done i)++of i rows = (content i).take (done' i)

variable {ct : ℕ → List π} {done done' done'' : ℕ → ℕ} {rows more : List (ℕ × π)}

lemma Took.refl (ct : ℕ → List π) (done : ℕ → ℕ) : Took ct done [] done := fun _ =>
  append_nil _

lemma Took.trans (h : Took ct done rows done') (h' : Took ct done' more done'') :
    Took ct done (rows++more) done'' := by
  intro i
  rw [of_append,← append_assoc,h i,h' i]

lemma Took.one {i : ℕ} {v : π} (h : (ct i)[done i]? = some v) : Took ct done [(i,v)] (update done i (done i+1)) := by
  intro j
  by_cases hj : i = j
  · subst hj
    rw [update_self,take_add_one,h]
    simp [of]
  · simp [of,hj,update_of_ne (Ne.symm hj)]
section
variable {T : Type*} {P : ℕ → T → ℕ → Prop} {count : ℕ} {tables : List T}

structure Stands (P : ℕ → T → ℕ → Prop) (count : ℕ) (tables : List T) (done : ℕ → ℕ) : Prop where
  count_eq : tables.length = count
  each : ∀ (i : ℕ) (t : T), tables[i]? = some t → P i t (done i)

variable {i : ℕ}

lemma modify_at {t : T} {f : T → T} (h : tables[i]? = some t) : (tables.modify i f)[i]? = some (f t) := by
  simp [h]
section
variable (h : Stands P count tables done)
include h

lemma Stands.modify {k : ℕ} {f : T → T} (hf : ∀ t, tables[i]? = some t → P i t (done i) → P i (f t) k) :
    Stands P count (tables.modify i f) (update done i k) := by
  refine ⟨(length_modify _ _ _).trans h.count_eq,fun j t ht => ?_⟩
  rw [List.getElem?_modify] at ht
  obtain ⟨old,ho,rfl⟩ := Option.map_eq_some_iff.mp ht
  by_cases hj : i = j
  · subst hj
    rw [if_pos rfl,update_self]
    exact hf old ho (h.each i old ho)
  · rw [if_neg hj,update_of_ne (Ne.symm hj)]
    exact h.each j old ho

lemma Stands.keep {f : T → T} (hf : ∀ t, tables[i]? = some t → P i t (done i) → P i (f t) (done i)) :
    Stands P count (tables.modify i f) done := by
  have hs := h.modify hf
  rwa [update_eq_self] at hs

lemma Stands.all {Q : T → Prop} {R : ℕ → ℕ → Prop}
    (hQ : ∀ t ∈ tables, Q t) (hR : ∀ i t k, P i t k → Q t → R i k) (hi : i < count) :
    R i (done i) := by
  have hl : i < tables.length := by
    rw [h.count_eq]
    exact hi
  exact hR i _ _ (h.each i _ (List.getElem?_eq_getElem hl)) (hQ _ (getElem_mem _))
end
end
section
variable {H ρ R ε : Type*}

/-- A reader goes on while lists are left, and may have to ask for the rows of its next pass. -/
structure Reader (H ρ R : Type*) where
  pending : H → Bool
  asks : H → Bool
  pass : H → ℕ → List ρ → H × List R

variable (reader : Reader H ρ R) (fetch : ℕ → H → Except ε (List ρ)) (requested : ℕ)

/-- Passes up to so many rows.  A question that fails ends the loop with what was read before it. -/
def Reader.read : ℕ → ℕ → H → List R → H × List R × Option ε
  | 0, _, h, read => (h,read,none)
  | fuel+1, query, h, read =>
    if requested ≤ read.length || !reader.pending h then (h,read,none)
    else if reader.asks h then
      match fetch query h with
      | .error e => (h,read,some e)
      | .ok rows =>
        let one := reader.pass h (requested-read.length) rows
        Reader.read fuel (query+1) one.1 (read++one.2)
    else
      let one := reader.pass h (requested-read.length) []
      Reader.read fuel query one.1 (read++one.2)

/-- Each question that is answered is answered with the rows asked for. -/
def Reader.Served (Right : H → ℕ → List ρ → Prop) : ℕ → ℕ → H → List R → Prop
  | 0, _, _, _ => True
  | fuel+1, query, h, read =>
    if requested ≤ read.length || !reader.pending h then True
    else if reader.asks h then
      match fetch query h with
      | .error _ => True
      | .ok rows => Right h (requested-read.length) rows ∧
          let one := reader.pass h (requested-read.length) rows
          Reader.Served Right fuel (query+1) one.1 (read++one.2)
    else
      let one := reader.pass h (requested-read.length) []
      Reader.Served Right fuel query one.1 (read++one.2)

instance Reader.servedDecidable (Right : H → ℕ → List ρ → Prop)
    [∀ h limit rows, Decidable (Right h limit rows)] : (fuel query : ℕ) → (h : H) → (read : List R) →
    Decidable (reader.Served fetch requested Right fuel query h read)
  | 0, _, _, _ => .isTrue trivial
  | fuel+1, query, h, read => by
    have := Reader.servedDecidable Right fuel
    unfold Reader.Served
    split
    · infer_instance
    · split
      · split <;> infer_instance
      · infer_instance

variable {reader fetch requested} {v : R → ℕ × π} (Inv : H → (ℕ → ℕ) → Prop) {Right : H → ℕ → List ρ → Prop}
  (hpass : ∀ h done remaining rows, Inv h done → reader.pending h = true → 0 < remaining →
    (if reader.asks h then Right h remaining rows else rows = []) →
    ∃ done', Inv (reader.pass h remaining rows).1 done' ∧ Took ct done ((reader.pass h remaining rows).2.map v) done')
  {f q : ℕ} {h : H}
include hpass

/-- What each pass keeps, the loop keeps. -/
theorem Reader.read_took {re : List R} (hi : Inv h done) (hs : reader.Served fetch requested Right f q h re) :
    ∃ rows done', (reader.read fetch requested f q h re).2.1 = re++rows ∧
      Inv (reader.read fetch requested f q h re).1 done' ∧
      Took ct done (rows.map v) done' := by
  induction f generalizing q h re done with
  | zero => exact ⟨[],done,(append_nil _).symm,hi,Took.refl _ _⟩
  | succ f ih =>
    rw [Reader.Served] at hs
    rw [Reader.read]
    by_cases hst : (requested ≤ re.length || !reader.pending h) = true
    · rw [if_pos hst]
      exact ⟨[],done,(append_nil _).symm,hi,Took.refl _ _⟩
    · rw [if_neg hst] at hs
      rw [if_neg hst]
      obtain ⟨hr,hp⟩ : 0 < requested-re.length ∧ reader.pending h = true := by
        simp only [Bool.or_eq_true,decide_eq_true_eq,Bool.not_eq_true',not_or,Bool.not_eq_false] at hst
        exact ⟨by omega,hst.2⟩
      -- a pass, then the rest of the loop
      have hg : ∀ (query' : ℕ) (one : H × List R), (∃ middle, Inv one.1 middle ∧ Took ct done (one.2.map v) middle) →
          reader.Served fetch requested Right f query' one.1 (re++one.2) →
          ∃ rows done', (reader.read fetch requested f query' one.1 (re++one.2)).2.1 = re++rows ∧
            Inv (reader.read fetch requested f query' one.1 (re++one.2)).1 done' ∧
            Took ct done (rows.map v) done' := by
        rintro query' one ⟨middle,hm,ht⟩ hs
        obtain ⟨res,done',hre,hi',ht'⟩ := ih hm hs
        refine ⟨one.2++res,done',by rw [hre,append_assoc],hi',?_⟩
        rw [map_append]
        exact ht.trans ht'
      by_cases ha : reader.asks h = true
      · rw [if_pos ha] at hs
        rw [if_pos ha]
        cases hf : fetch q h with
        | error => exact ⟨[],done,(append_nil _).symm,hi,Took.refl _ _⟩
        | ok rows =>
          rw [hf] at hs
          refine hg (q+1) _ (hpass h done _ rows hi hp hr ?_) hs.2
          rw [if_pos ha]
          exact hs.1
      · rw [if_neg ha] at hs
        rw [if_neg ha]
        refine hg q _ (hpass h done _ [] hi hp hr ?_) hs
        rw [if_neg ha]

lemma Reader.read_keeps (hi : Inv h done) (hs : reader.Served fetch requested Right f q h []) :
    ∃ done', Inv (reader.read fetch requested f q h []).1 done' ∧
      Took ct done ((reader.read fetch requested f q h []).2.1.map v) done' := by
  obtain ⟨rows,done',hr,hk⟩ := Reader.read_took Inv hpass hi hs
  rw [hr,nil_append]
  exact ⟨done',hk⟩
end
section
variable {H κ R E ε : Type*}

/-- A reader and what its calls have returned. -/
structure Trace (H R : Type*) where
  handle : H
  delivered : List R

/-- One call: `rows` are those it reads, which it returns unless it fails. -/
def Trace.step (call : H → κ → H × Except ε E) (rows : H → κ → List R) (t : Trace H R) (c : κ) : Trace H R :=
  match call t.handle c with
  | (h,.ok _) => ⟨h,t.delivered++rows t.handle c⟩
  | (h,.error _) => ⟨h,t.delivered⟩

variable {ca : H → κ → H × Except ε E} {r : H → κ → List R}

lemma Trace.step_handle (t : Trace H R) (c : κ) : (t.step ca r c).handle = (ca t.handle c).1 := by
  unfold Trace.step
  split <;> rename_i hc <;> rw [hc]

/-- If the calls that fail have read nothing, what was delivered of each list is the part of it up to
the place where the reader stands. -/
theorem run_delivered (vi : R → ℕ × π) (Inv : H → (ℕ → ℕ) → Prop) {Right : H → κ → Prop}
    (hc : ∀ h done c, Inv h done → Right h c → ∃ done', Inv (ca h c).1 done' ∧ Took ct done ((r h c).map vi) done')
    {h : H} (hi : Inv h fun _ => 0) {cs : List κ}
    (hm : Machine.Meets (Trace.step ca r) (fun t c => Right t.handle c ∧
      ((ca t.handle c).2.isOk = false → r t.handle c = [])) ⟨h,[]⟩ cs) :
    ∃ done, Inv (Machine.run (Trace.step ca r) ⟨h,[]⟩ cs).handle done ∧
      ∀ i, of i ((Machine.run (Trace.step ca r) ⟨h,[]⟩ cs).delivered.map vi) = (ct i).take (done i) := by
  refine Machine.run_invariant_of_meets (Trace.step ca r) (P := fun t : Trace H R =>
    ∃ done, Inv t.handle done ∧ ∀ i, of i (t.delivered.map vi) = (ct i).take (done i)) ?_
    ⟨fun _ => 0,hi,fun i => by simp⟩ hm
  rintro t c ⟨done,hi,hd⟩ ⟨hr,hl⟩
  obtain ⟨done',hi',ht⟩ := hc t.handle done c hi hr
  refine ⟨done',by rwa [Trace.step_handle],fun i => ?_⟩
  unfold Trace.step
  split
  · rw [map_append,of_append,hd i]
    exact ht i
  · rename_i hf
    have hn : r t.handle c = [] := hl (by rw [hf]; rfl)
    have hs := ht i
    rw [hn,map_nil,of_nil,append_nil] at hs
    rw [hd i,hs]
end
end Scan
