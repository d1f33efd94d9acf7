import Rustcdc.Lib.Run

/-! Streams that hold entries back until their transaction ends.  A message is read as a mark that
opens a transaction, adds entries to it, closes it, or stands alone; the frames of a mark list are
what a consumer should see. -/
namespace Transactions
variable {τ ε σ μ : Type*}

inductive Mark (τ ε : Type*)
  | opens (id : τ)
  | adds (entries : List ε)
  | closes
  | alone (entries : List ε)

/-- A whole transaction, or what was released outside of one. -/
inductive Frame (τ ε : Type*)
  | transaction (id : τ) (entries : List ε)
  | alone (entries : List ε)

def Frame.entries : Frame τ ε → List ε
  | .transaction _ entries => entries
  | .alone entries => entries

/-- The open transaction after a mark. -/
def next : Option (τ × List ε) → Mark τ ε → Option (τ × List ε)
  | _, .opens id => some (id,[])
  | some (id,entries), .adds more => some (id,entries++more)
  | none, .adds _ => none
  | _, .closes => none
  | opened, .alone _ => opened

def completed : Option (τ × List ε) → Mark τ ε → Option (Frame τ ε)
  | some (id,entries), .closes => some (.transaction id entries)
  | _, .alone entries => some (.alone entries)
  | _, _ => none

/-- The mark may come at this point: transactions do not nest, only an open one is closed or added
to, and what stands alone stands outside. -/
def Fits : Option (τ × List ε) → Mark τ ε → Prop
  | opened, .opens _ => opened = none
  | opened, .adds entries => opened ≠ none ∨ entries = []
  | opened, .closes => opened ≠ none
  | opened, .alone _ => opened = none

instance : (opened : Option (τ × List ε)) → (mark : Mark τ ε) → Decidable (Fits opened mark)
  | opened, .opens _ => inferInstanceAs (Decidable (opened = none))
  | opened, .adds entries =>
    @instDecidableOr _ _ (inferInstanceAs (Decidable ¬opened = none))
      (decidable_of_iff (entries.isEmpty = true) List.isEmpty_iff)
  | opened, .closes => inferInstanceAs (Decidable ¬opened = none)
  | opened, .alone _ => inferInstanceAs (Decidable (opened = none))

def frames : Option (τ × List ε) → List (Mark τ ε) → List (Frame τ ε)
  | _, [] => []
  | opened, mark::marks => (completed opened mark).toList++frames (next opened mark) marks
def WellFormed : Option (τ × List ε) → List (Mark τ ε) → Prop
  | _, [] => True
  | opened, mark::marks => Fits opened mark ∧ WellFormed (next opened mark) marks

instance wellFormedDecidable : (opened : Option (τ × List ε)) → (marks : List (Mark τ ε)) →
    Decidable (WellFormed opened marks)
  | _, [] => .isTrue trivial
  | opened, mark::marks => @instDecidableAnd _ _ _ (wellFormedDecidable (next opened mark) marks)

@[simp] lemma next_adds_nil (opened : Option (τ × List ε)) : next opened (.adds []) = opened := by
  cases opened with
  | none => rfl
  | some => simp [next]

@[simp] lemma completed_adds (o : Option (τ × List ε)) (es : List ε) : completed o (.adds es) = none := by
  cases o <;> rfl
section
variable (step : σ → μ → σ × List ε)

/-- Take the messages in order, keeping what each releases. -/
def feed : σ → List μ → σ × List ε
  | s, [] => (s,[])
  | s, m::ms =>
    let one := step s m
    let rest := feed one.1 ms
    (rest.1,one.2++rest.2)

lemma feed_state (s : σ) (ms : List μ) : (feed step s ms).1 = Machine.run (fun s m => (step s m).1) s ms := by
  induction ms generalizing s with
  | nil => rfl
  | cons m ms ih => exact ih (step s m).1

lemma feed_append (s : σ) (ms ns : List μ) : feed step s (ms++ns) = ((feed step (feed step s ms).1 ns).1,
        (feed step s ms).2++(feed step (feed step s ms).1 ns).2) := by
  induction ms generalizing s with
  | nil => rfl
  | cons m ms ih => simp [feed,ih]

/-- How the messages are split into batches makes no difference. -/
theorem feed_batches (s : σ) (bs : List (List μ)) : feed (feed step) s bs = feed step s bs.flatten := by
  induction bs generalizing s with
  | nil => rfl
  | cons b bs ih => rw [List.flatten_cons,feed_append,feed,ih]

/-- The marks of the messages, each read in the state it arrives in. -/
def marks (mark : σ → μ → Mark τ ε) : σ → List μ → List (Mark τ ε)
  | _, [] => []
  | s, m::ms => mark s m::marks mark (step s m).1 ms

/-- What a message releases is the frame it completes, and nothing if it completes none. -/
def Releases (F : Frame τ ε → List ε → Prop) : Option (Frame τ ε) → List ε → Prop
  | some frame, released => F frame released
  | none, released => released = []

variable {step}

/-- The framing rule: if every message keeps the open transaction represented and releases the
frame it completes, the stream is the concatenation of the frames. -/
theorem feed_framed {mark : σ → μ → Mark τ ε} {R : Option (τ × List ε) → σ → Prop}
    {F : Frame τ ε → List ε → Prop} {C : σ → μ → Prop}
    (hs : ∀ opened s m, R opened s → C s m → Fits opened (mark s m) → R (next opened (mark s m)) (step s m).1 ∧
        Releases F (completed opened (mark s m)) (step s m).2)
    {opened : Option (τ × List ε)} {s : σ} (hR : R opened s) {ms : List μ}
    (hC : Machine.Meets (fun s m => (step s m).1) C s ms)
    (hf : WellFormed opened (marks step mark s ms)) :
    ∃ groups, List.Forall₂ F (frames opened (marks step mark s ms)) groups ∧ (feed step s ms).2 = groups.flatten := by
  induction ms generalizing opened s with
  | nil => exact ⟨[],.nil,rfl⟩
  | cons m ms ih =>
    obtain ⟨hn,hr⟩ := hs opened s m hR hC.1 hf.1
    obtain ⟨groups,hg,hfl⟩ := ih hn hC.2 hf.2
    rw [marks,frames,feed]
    cases hd : completed opened (mark s m) with
    | none =>
      rw [hd] at hr
      refine ⟨groups,hg,?_⟩
      rw [show (step s m).2 = [] from hr,hfl]
      rfl
    | some =>
      rw [hd] at hr
      exact ⟨(step s m).2::groups,.cons hr hg,by rw [hfl,List.flatten_cons]⟩
end
end Transactions
