import Mathlib

/-! Runs of a deterministic labelled machine.  A label carries the call and every answer the
environment gives to it, so quantifying over label lists quantifies over all interleavings. -/
namespace Machine
variable {σ ℓ : Type*} (step : σ → ℓ → σ)

/-- The state reached from `s` by taking the labels in order. -/
def run (s : σ) (ls : List ℓ) : σ := ls.foldl step s

@[simp] lemma run_nil (s : σ) : run step s [] = s := rfl
@[simp] lemma run_cons (s : σ) (l : ℓ) (ls : List ℓ) : run step s (l::ls) = run step (step s l) ls := rfl
@[simp] lemma run_append (s : σ) (ls ms : List ℓ) :
    run step s (ls++ms) = run step (run step s ls) ms := List.foldl_append

/-- Every label of the run is taken in a state where `C` allows it. -/
def Meets (C : σ → ℓ → Prop) : σ → List ℓ → Prop
  | _, [] => True
  | s, l::ls => C s l ∧ Meets C (step s l) ls

instance meetsDecidable (C : σ → ℓ → Prop) [∀ s l, Decidable (C s l)] :
    (s : σ) → (ls : List ℓ) → Decidable (Meets step C s ls)
  | _, [] => inferInstanceAs (Decidable True)
  | s, l::ls => @instDecidableAnd _ _ _ (meetsDecidable C (step s l) ls)

lemma meets_append (C : σ → ℓ → Prop) (s : σ) (ls ms : List ℓ) :
    Meets step C s (ls++ms) ↔ Meets step C s ls ∧ Meets step C (run step s ls) ms := by
  induction ls generalizing s with
  | nil => simp [Meets]
  | cons l ls ih => simp [Meets,ih,and_assoc]

variable {ls : List ℓ}

lemma meets_of_forall {D : ℓ → Prop} (hl : ∀ l ∈ ls, D l) (s : σ) : Meets step (fun _ => D) s ls := by
  induction ls generalizing s with
  | nil => trivial
  | cons l ls ih =>
    exact ⟨hl l List.mem_cons_self,ih (fun l' hl' => hl l' (List.mem_cons_of_mem _ hl')) _⟩

lemma meets_true (s : σ) (ls : List ℓ) : Meets step (fun _ _ => True) s ls :=
  meets_of_forall step (fun _ _ => trivial) s

lemma meets_and {C D : σ → ℓ → Prop} {s : σ} (hC : Meets step C s ls) (hD : Meets step D s ls) :
    Meets step (fun s l => C s l ∧ D s l) s ls := by
  induction ls generalizing s with
  | nil => trivial
  | cons l ls ih => exact ⟨⟨hC.1,hD.1⟩,ih hC.2 hD.2⟩

/-- The invariant rule: what holds at the start and is kept by each allowed step holds
in every state an allowed run reaches. -/
theorem run_invariant_of_meets {C : σ → ℓ → Prop} {P : σ → Prop}
    (hst : ∀ s l, P s → C s l → P (step s l)) {s : σ} (hs : P s) (hl : Meets step C s ls) :
    P (run step s ls) := by
  induction ls generalizing s with
  | nil => exact hs
  | cons l ls ih => exact ih (hst s l hs hl.1) hl.2

lemma run_invariant {P : σ → Prop} (hst : ∀ s l, P s → P (step s l)) {s : σ} (hs : P s)
    (ls : List ℓ) : P (run step s ls) := by
  induction ls generalizing s with
  | nil => exact hs
  | cons l ls ih => exact ih (hst s l hs)
section
/-- The states of a run that goes on for ever. -/
def states (s : σ) (labels : ℕ → ℓ) : ℕ → σ
  | 0 => s
  | n+1 => step (states s labels n) (labels n)

variable {step} {la : ℕ → ℓ}

lemma states_invariant {C : σ → ℓ → Prop} {P : σ → Prop} (hst : ∀ s l, P s → C s l → P (step s l)) {s : σ} (hs : P s)
    (hl : ∀ n, C (states step s la n) (la n)) (n : ℕ) :
    P (states step s la n) := by
  induction n with
  | zero => exact hs
  | succ n ih => exact hst _ _ ih (hl n)

/-- The progress rule: a measure that goes down as long as the goal is not reached. -/
theorem eventually_of_measure {μ : Type*} {r : μ → μ → Prop} (hw : WellFounded r) (measure : σ → μ)
    {Q : σ → Prop} {s : σ} (start : ℕ)
    (hd : ∀ n, start ≤ n → ¬Q (states step s la n) → ¬Q (states step s la (n+1)) →
      r (measure (states step s la (n+1))) (measure (states step s la n))) :
    ∃ n, Q (states step s la n) := by
  -- by induction on the measure of the state that is reached
  have key : ∀ m : μ, ∀ n, start ≤ n → measure (states step s la n) = m → ∃ n, Q (states step s la n) := by
    intro m
    induction m using hw.induction with
    | h m ih =>
      intro n hn hm
      by_cases hg : Q (states step s la n)
      · exact ⟨n,hg⟩
      · by_cases hne : Q (states step s la (n+1))
        · exact ⟨n+1,hne⟩
        · exact ih _ (hm ▸ hd n hn hg hne) (n+1) (by omega) rfl
  exact key _ start (Nat.le_refl _) rfl
end
section
variable {ρ : Type*} (pass : σ → ℓ → σ × Option ρ)

/-- A call as a loop of passes: it returns with the first pass that has a result, and `none` says
that the passes given are not enough for it to return. -/
def loop : σ → List ℓ → Option (σ × ρ)
  | _, [] => none
  | s, l::ls =>
    match pass s l with
    | (s,some r) => some (s,r)
    | (s,none) => loop s ls

/-- The state a call has come to, whether it returned or not. -/
def reached : σ → List ℓ → σ
  | s, [] => s
  | s, l::ls =>
    match pass s l with
    | (s,some _) => s
    | (s,none) => reached s ls

/-- Every pass of the call is made in a state where `C` allows it. -/
def LoopMeets (C : σ → ℓ → Prop) : σ → List ℓ → Prop
  | _, [] => True
  | s, l::ls => C s l ∧
      match pass s l with
      | (_,some _) => True
      | (s,none) => LoopMeets C s ls

instance loopMeetsDecidable (C : σ → ℓ → Prop) [∀ s l, Decidable (C s l)] :
    (s : σ) → (ls : List ℓ) → Decidable (LoopMeets pass C s ls)
  | _, [] => .isTrue trivial
  | s, l::ls => by
    have := fun s => loopMeetsDecidable C s ls
    unfold LoopMeets
    split <;> infer_instance

variable {pass} {ls : List ℓ} {C : σ → ℓ → Prop} {s : σ}

lemma loopMeets_cons {l : ℓ} (hC : C s l) (hr : (pass s l).2 = none → LoopMeets pass C (pass s l).1 ls) :
    LoopMeets pass C s (l::ls) := by
  refine ⟨hC,?_⟩
  generalize pass s l = passed at hr ⊢
  obtain ⟨s₁,_ | r⟩ := passed
  · exact hr rfl
  · trivial

lemma loopMeets_and {D : σ → ℓ → Prop} (hC : LoopMeets pass C s ls) (hD : LoopMeets pass D s ls) :
    LoopMeets pass (fun s l => C s l ∧ D s l) s ls := by
  induction ls generalizing s with
  | nil => trivial
  | cons l ls ih =>
    have hr := hC.2
    have hre := hD.2
    refine loopMeets_cons ⟨hC.1,hD.1⟩ fun hn => ?_
    generalize pass s l = passed at hr hre hn ⊢
    obtain ⟨s₁,_ | r⟩ := passed
    · exact ih hr hre
    · cases hn

/-- The last pass of a call is made in a state that has what the passes before it keep. -/
theorem loop_last {P : σ → Prop} (hpa : ∀ s l s', P s → C s l → pass s l = (s',none) → P s')
    {s' : σ} {r : ρ} (hs : P s) (hls : LoopMeets pass C s ls) (hl : loop pass s ls = some (s',r)) :
    ∃ s₀ l, P s₀ ∧ C s₀ l ∧ pass s₀ l = (s',some r) := by
  induction ls generalizing s with
  | nil => exact absurd hl (by simp [loop])
  | cons l ls ih =>
    have hr := hls.2
    rw [loop] at hl
    cases hp : pass s l with
    | mk s₁ r₁ =>
      rw [hp] at hr hl
      cases r₁ with
      | none => exact ih (hpa s l s₁ hs hls.1 hp) hr hl
      | some =>
        cases hl
        exact ⟨s,l,hs,hls.1,hp⟩

/-- The invariant rule for a call: what each allowed pass keeps, the call keeps. -/
theorem loop_invariant_of_meets {P : σ → Prop} (hpa : ∀ s l, P s → C s l → P (pass s l).1)
    {s' : σ} {r : ρ} (hs : P s) (hls : LoopMeets pass C s ls) (hl : loop pass s ls = some (s',r)) : P s' := by
  have hn : ∀ s l s' r, P s → C s l → pass s l = (s',r) → P s' := by
    intro s l s' r hs hC hp
    have hk := hpa s l hs hC
    rwa [hp] at hk
  obtain ⟨s₀,l,hs₀,hC,hp⟩ := loop_last (fun s l s' => hn s l s' none) hs hls hl
  exact hn s₀ l s' (some r) hs₀ hC hp

lemma loopMeets_of_forall {D : ℓ → Prop} (hl : ∀ l ∈ ls, D l) (s : σ) : LoopMeets pass (fun _ => D) s ls := by
  induction ls generalizing s with
  | nil => trivial
  | cons l ls ih =>
    exact loopMeets_cons (hl l List.mem_cons_self) fun _ =>
      ih (fun l' hl' => hl l' (List.mem_cons_of_mem _ hl')) _

lemma loopMeets_true (s : σ) (ls : List ℓ) : LoopMeets pass (fun _ _ => True) s ls :=
  loopMeets_of_forall (fun _ _ => trivial) s

/-- A machine with more in its state than another makes the same calls. -/
theorem loop_map {τ : Type*} {pass' : τ → ℓ → τ × Option ρ} (f : σ → τ)
    (hp : ∀ s l, pass' (f s) l = (f (pass s l).1,(pass s l).2)) (s : σ) (ls : List ℓ) :
    loop pass' (f s) ls = (loop pass s ls).map fun end_ => (f end_.1,end_.2) := by
  induction ls generalizing s with
  | nil => rfl
  | cons l ls ih =>
    rw [loop,loop,hp]
    generalize pass s l = passed
    obtain ⟨s₁,_ | r⟩ := passed
    · exact ih s₁
    · rfl
end
end Machine
