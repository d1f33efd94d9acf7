import Rustcdc.Lib.Run

/-! A server that logs a transaction some time before it makes it visible, and a client that takes a
read view of it and then reads positions of the log, one statement after the other. -/
namespace Visibility
variable {τ : Type*}

/-- The transactions in the order of the log, and which of them a reader sees. -/
structure Server (τ : Type*) where
  log : List τ
  visible : ℕ → Bool
  logged : ∀ i, visible i = true → i < log.length

inductive Change (τ : Type*)
  | commit (tx : τ)
  | expose (place : ℕ)

def Server.commit (s : Server τ) (tx : τ) : Server τ where
  log := s.log++[tx]
  visible := s.visible
  logged i hi := by
    rw [List.length_append]
    exact Nat.lt_add_right _ (s.logged i hi)

/-- Only what is in the log becomes visible. -/
def Server.expose (s : Server τ) (place : ℕ) : Server τ where
  log := s.log
  visible i := s.visible i || (i == place && decide (place < s.log.length))
  logged i hi := by
    rcases Bool.or_eq_true_iff.mp hi with hi | hi
    · exact s.logged i hi
    · obtain ⟨hplace,hlt⟩ := Bool.and_eq_true_iff.mp hi
      rw [eq_of_beq hplace]
      exact of_decide_eq_true hlt

def Server.change (s : Server τ) : Change τ → Server τ
  | .commit tx => s.commit tx
  | .expose place => s.expose place

/-- How far the client has come, with the answers it has: the read view, the position taken beside it,
the position a reader of the log is started from, and the transactions named to that reader as known. -/
inductive Progress
  | begun
  | viewed (view : ℕ → Bool)
  | marked (view : ℕ → Bool) (watermark : ℕ)
  | started (view : ℕ → Bool) (watermark start : ℕ)
  | listed (view : ℕ → Bool) (watermark start : ℕ) (known : ℕ → Bool)

def Progress.marks : Progress → Option ((ℕ → Bool) × ℕ)
  | .begun | .viewed _ => none
  | .marked view watermark | .started view watermark _ | .listed view watermark _ _ =>
    some (view,watermark)

def Progress.starts : Progress → Option ((ℕ → Bool) × ℕ × ℕ)
  | .begun | .viewed _ | .marked _ _ => none
  | .started view watermark start | .listed view watermark start _ => some (view,watermark,start)

structure Session (τ : Type*) where
  server : Server τ
  progress : Progress

/-- What the server does by itself, and the next read of the client.  The server may name as known
whichever transactions it has logged. -/
inductive Label (τ : Type*)
  | server (change : Change τ)
  | read (known : ℕ → Bool)

def Session.read (s : Session τ) (known : ℕ → Bool) : Progress :=
  match s.progress with
  | .begun => .viewed s.server.visible
  | .viewed view => .marked view s.server.log.length
  | .marked view watermark => .started view watermark s.server.log.length
  | .started view watermark start =>
    .listed view watermark start fun i => known i && decide (i < s.server.log.length)
  | .listed view watermark start known => .listed view watermark start known

def Session.step (s : Session τ) : Label τ → Session τ
  | .server change => {s with server := s.server.change change}
  | .read known => {s with progress := s.read known}

/-- No transaction is in the log but not visible when the view is taken, and none enters the log
between the view and the watermark, or, if transactions are named, between the start and their
naming. -/
def Quiet (names : Bool) (s : Session τ) : Label τ → Prop
  | .server (.commit _) =>
    match s.progress with
    | .viewed _ => False
    | .started _ _ _ => names = false
    | _ => True
  | .server (.expose _) => True
  | .read _ =>
    match s.progress with
    | .begun => ∀ i < s.server.log.length, s.server.visible i = true
    | _ => True

instance (names : Bool) (s : Session τ) (l : Label τ) : Decidable (Quiet names s l) := by
  unfold Quiet
  split
  · split <;> infer_instance
  · infer_instance
  · split <;> infer_instance

/-- What the view has, up to the watermark. -/
def Session.Sound (names : Bool) (s : Session τ) : Prop :=
  match s.progress with
  | .begun => True
  | .viewed view => ∀ i < s.server.log.length, view i = true
  | .marked view watermark => watermark ≤ s.server.log.length ∧ ∀ i < watermark, view i = true
  | .started view watermark start =>
    watermark ≤ start ∧ start ≤ s.server.log.length ∧ (∀ i < watermark, view i = true) ∧
      (names = true → s.server.log.length = start)
  | .listed view watermark start known =>
    watermark ≤ start ∧ start ≤ s.server.log.length ∧ (∀ i < watermark, view i = true) ∧
      (names = true → ∀ i, known i = true → i < start)

variable {names : Bool} {s : Session τ} {w : ℕ} {v : ℕ → Bool}

lemma Session.sound_commit (h : s.Sound names) (tx : τ) (hq : Quiet names s (.server (.commit tx))) :
    (s.step (.server (.commit tx))).Sound names := by
  obtain ⟨server,progress⟩ := s
  have hl : (server.commit tx).log.length = server.log.length+1 := by simp [Server.commit]
  cases progress with
  | begun => trivial
  | viewed => cases hq
  | marked v w =>
    have hlo : w ≤ server.log.length := h.1
    refine ⟨?_,h.2⟩
    simp only [Session.step,Server.change,hl]
    omega
  | started v w st =>
    have hlo : st ≤ server.log.length := h.2.1
    refine ⟨h.1,?_,h.2.2.1,fun hn => ?_⟩
    · simp only [Session.step,Server.change,hl]
      omega
    · cases hn.symm.trans hq
  | listed v w st =>
    have hlo : st ≤ server.log.length := h.2.1
    refine ⟨h.1,?_,h.2.2⟩
    simp only [Session.step,Server.change,hl]
    omega

lemma Session.sound_read (h : s.Sound names) (known : ℕ → Bool)
    (hq : Quiet names s (.read known)) : (s.step (.read known)).Sound names := by
  obtain ⟨server,progress⟩ := s
  cases progress with
  | begun => exact hq
  | viewed => exact ⟨Nat.le_refl _,h⟩
  | marked => exact ⟨h.1,Nat.le_refl _,h.2,fun _ => rfl⟩
  | started =>
    obtain ⟨hle,hs,hv,hl⟩ := h
    refine ⟨hle,hs,hv,fun hn i hk => ?_⟩
    rw [← hl hn]
    exact of_decide_eq_true (Bool.and_eq_true_iff.mp hk).2
  | listed => exact h

lemma Session.sound_step {l : Label τ} (h : s.Sound names) (hq : Quiet names s l) : (s.step l).Sound names := by
  cases l with
  | read known => exact s.sound_read h known hq
  | server c =>
    cases c with
    | commit tx => exact s.sound_commit h tx hq
    | expose =>
      obtain ⟨server,progress⟩ := s
      cases progress <;> exact h

lemma run_sound_of_quiet {server : Server τ} {ls : List (Label τ)}
    (hq : Machine.Meets Session.step (Quiet names) ⟨server,.begun⟩ ls) :
    (Machine.run Session.step ⟨server,.begun⟩ ls).Sound names :=
  Machine.run_invariant_of_meets Session.step (P := Session.Sound names) (fun _ _ h hq => Session.sound_step h hq)
    (show Session.Sound names ⟨server,.begun⟩ from trivial) hq

lemma Session.Sound.seen (h : s.Sound names) (hm : s.progress.marks = some (v,w)) (i : ℕ) : v i = true ∨ w ≤ i := by
  obtain ⟨server,progress⟩ := s
  have hv : ∀ i < w, v i = true := by
    cases progress with
    | begun | viewed => exact absurd hm (by simp [Progress.marks])
    | marked =>
      cases hm
      exact h.2
    | started | listed =>
      cases hm
      exact h.2.2.1
  exact (Nat.lt_or_ge i w).imp_left (hv i)

lemma Session.Sound.watermark_le_start (h : s.Sound names) {start : ℕ} (hs : s.progress.starts = some (v,w,start)) :
    s.progress.marks = some (v,w) ∧ w ≤ start := by
  obtain ⟨server,progress⟩ := s
  cases progress with
  | begun | viewed | marked => exact absurd hs (by simp [Progress.starts])
  | started | listed =>
    obtain ⟨rfl,rfl,rfl⟩ := hs
    exact ⟨rfl,h.1⟩

lemma Session.Sound.listed (h : s.Sound names) {st : ℕ} {known : ℕ → Bool} (hl : s.progress = .listed v w st known) :
    st ≤ s.server.log.length ∧ (names = true → ∀ i, known i = true → i < st) := by
  rw [Session.Sound,hl] at h
  exact ⟨h.2.1,h.2.2.2⟩
end Visibility
