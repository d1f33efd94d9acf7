import Rustcdc.Runtime.SinkLoop

/-! `force_stop` against the calls it cuts short: what it hands back is what polls and commits would
have gone on to deliver. -/
namespace Rustcdc
open List Machine Session
namespace CdcRuntime
variable {S H : Type} (rt : CdcRuntime S H)

/-- `force_stop`; the answer is that of the registered sink to its close, if there is a sink. -/
def forceStop (sinkClose : Option (Except Error Unit)) : CdcRuntime S H × Except Error (List Event) :=
  match rt.state with
  | .idle | .stopped => ({rt with state := .stopped},.ok [])
  | .stopping => (rt,.error (.stateError "runtime already stopping"))
  | .running =>
    let pending := match rt.pendingDelivery with
      | some pending => pending.events.drop pending.committedPrefix
      | none => []
    ({rt with
      state := .stopped
      pendingDelivery := none
      bufferedEvents := []
      pendingSourceEvents := []
      injectedEvents := []
      commitBarrier := rt.commitBarrier.clearPending
      deliveredNotCommitted := 0
      snapshot := none
      stream := none},
      match sinkClose with
      | some (.error e) => .error e
      | _ => .ok (pending++rt.bufferedEvents++rt.pendingSourceEvents++rt.injectedEvents))

/-- The events the caller has not committed, in the order in which polls reach them. -/
def outstanding : List Event := rt.held++rt.injectedEvents

lemma forceStop_eq_ok (hr : rt.state = .running) {sinkClose : Option (Except Error Unit)} :
    (rt.forceStop sinkClose).2 = .ok rt.outstanding ↔ ∀ e, sinkClose ≠ some (.error e) := by
  unfold forceStop
  rw [hr]
  dsimp only
  split
  · simp
  · rename_i hs
    refine iff_of_true ?_ fun e he => hs e he
    simp only [outstanding,held,uncommittedEvents,append_assoc]
    cases rt.pendingDelivery <;> rfl

variable [SnapshotHandle S] [StreamHandle H] [Handoff S H] {as : PollAnswers S H} {rt : CdcRuntime S H}

/-- The sources are silent in this poll, and the stages pass the injected events on as they are. -/
def Silent (rt : CdcRuntime S H) (answers : PollAnswers S H) : Prop :=
  ∀ a ∈ rt.arrival answers, rt.injectedEvents ≠ [] ∧ a.1.passed answers.now a.2 = .ok a.2

/-- A silent poll moves events forward and changes nothing about which are outstanding. -/
theorem pollEventBatch_outstanding (h : rt.core.Balanced) (hs : rt.pollSafe as = true) (hq : rt.Silent as)
    {r : CdcRuntime S H × Except Error EventBatch} (hr : rt.pollEventBatch as = some r) :
    r.1.outstanding = rt.outstanding := by
  obtain ⟨hh,hi⟩ := Prod.mk.inj (pollEventBatch_queues h hs hr)
  rw [outstanding,hh,hi,admitted]
  cases ha : rt.arrival as with
  | none => simp [outstanding]
  | some a =>
    obtain ⟨hne,hp⟩ := hq a ha
    obtain ⟨rt₁,hqu,hre⟩ := arrival_receive ha
    rw [pollSafe,Bool.and_eq_true] at hs
    have hin := congrArg Prod.snd (pollQueues_queues h hs.1)
    rw [hqu] at hin
    change rt₁.injectedEvents = rt.injectedEvents at hin
    rcases receive_injected hre with ⟨hn,_⟩ | ⟨e,es,he,ht⟩
    · exact absurd (hin.symm.trans hn) hne
    · dsimp only
      rw [hp,outstanding,← hin,← ht,Except.ok.inj he,append_assoc]
      rfl
end CdcRuntime
namespace Ledger
open CdcRuntime
variable {S H : Type} [SnapshotHandle S] [StreamHandle H] [Handoff S H] {s : Ledger S H}

/-- A safe poll that meets silent sources, or any commit. -/
def Quiet (s : Ledger S H) (call : RuntimeCall S H) : Prop :=
  s.Safe call ∧ ∀ answers, call = .poll answers → s.runtime.Silent answers

lemma step_outstanding (hb : s.runtime.core.Balanced) {c : RuntimeCall S H} (hq : s.Quiet c) :
    (s.step c).runtime.core.Balanced ∧
    (s.step c).committed++(s.step c).runtime.outstanding = s.committed++s.runtime.outstanding := by
  cases c with
  | poll as =>
    simp only [step]
    cases hr : s.runtime.pollEventBatch as with
    | none => exact ⟨hb,rfl⟩
    | some => exact ⟨(pollEventBatch_poll hb hr).1,congrArg _ (pollEventBatch_outstanding hb hq.1 (hq.2 as rfl) hr)⟩
  | commit tk as =>
    obtain ⟨hb',_,hi,hw⟩ := step_commit hb tk as
    refine ⟨hb',?_⟩
    rw [outstanding,outstanding,hi,← append_assoc,hw,append_assoc]

end Ledger
namespace Rounds
open CdcRuntime
variable {S H : Type} [SnapshotHandle S] [StreamHandle H] [Handoff S H] {s : Rounds S H}
  {as : PollAnswers S H × CommitAnswers}

/-- A round with silent sources, in which nothing fails on the way to the buffer and the commit goes through. -/
def Undisturbed (s : Rounds S H) (answers : PollAnswers S H × CommitAnswers) : Prop :=
  s.runtime.pollSafe answers.1 = true ∧ s.runtime.Silent answers.1 ∧ (s.step answers).runtime.pendingDelivery = none

/-- What is left to do: a round that finds nothing held only takes injected events in. -/
def left (s : Rounds S H) : ℕ := 2*s.runtime.outstanding.length+if s.runtime.held = [] then 1 else 0

omit [SnapshotHandle S] [StreamHandle H] [Handoff S H] in
lemma left_le (s : Rounds S H) : s.left ≤ 2*s.runtime.outstanding.length+1 := by
  unfold left
  split <;> omega

/-- Transactions may be split. -/
structure Splitting (s : Rounds S H) : Prop where
  balanced : s.runtime.core.Balanced
  running : s.runtime.state = .running
  split : s.runtime.config.options.transactionBoundary = .split

omit [Handoff S H] in
/-- A commit that leaves nothing in flight takes exactly that off the events held. -/
lemma commitAck_held {rt : CdcRuntime S H} (hb : rt.core.Balanced) (mode : AckMode) (answers : CommitAnswers)
    (hn : (rt.commitAck .release mode answers).1.pendingDelivery = none) :
    rt.held = rt.uncommittedEvents++(rt.commitAck .release mode answers).1.held := by
  obtain ⟨_,hr,hbu⟩ := commitAck_keeps hb mode answers
  have hp := congrArg Remainder.pendingSourceEvents hr
  simp only [remainder] at hp
  generalize (rt.commitAck .release mode answers).1 = rt' at hn hbu hp
  have hu : rt'.uncommittedEvents = [] := by rw [uncommittedEvents,hn]
  rw [held,held,hu,hbu,hp,nil_append]

omit [Handoff S H] in
lemma commitAck_outstanding {rt : CdcRuntime S H} (hb : rt.core.Balanced) (mode : AckMode) (answers : CommitAnswers)
    (hn : (rt.commitAck .release mode answers).1.pendingDelivery = none) :
    rt.outstanding = rt.uncommittedEvents++(rt.commitAck .release mode answers).1.outstanding := by
  have hi := congrArg Remainder.injectedEvents (commitAck_keeps hb mode answers).2.1
  simp only [remainder] at hi
  rw [outstanding,outstanding,hi,commitAck_held hb mode answers hn,append_assoc]

lemma Splitting.step (h : s.Splitting) (hq : s.Undisturbed as) : (s.step as).Splitting ∧
    (s.step as).delivered++(s.step as).runtime.outstanding = s.delivered++s.runtime.outstanding := by
  obtain ⟨hs,hsi,hn⟩ := hq
  unfold Rounds.step at hn ⊢
  cases hr : s.runtime.pollEventBatch as.1 with
  | none => exact ⟨h,rfl⟩
  | some r =>
    obtain ⟨rt,result⟩ := r
    have hse := pollEventBatch_setup hr
    have hp := pollEventBatch_poll h.balanced hr
    have ho := pollEventBatch_outstanding h.balanced hs hsi hr
    have hrun : rt.state = .running := (congrArg (·.2.1) hse).trans h.running
    have hspl : rt.config.options.transactionBoundary = .split :=
      (congrArg (·.1.options.transactionBoundary) hse).trans h.split
    cases result with
    | error => exact ⟨⟨hp.1,hrun,hspl⟩,congrArg _ ho⟩
    | ok batch =>
      rw [hr] at hn
      have hv := (SinkTrace.poll_uncommitted h.balanced hr).1
      obtain ⟨hb,hrem,_⟩ := commitAck_keeps hp.1 batch.ackMode as.2
      refine ⟨⟨hb,(congrArg Remainder.state hrem).trans hrun,?_⟩,?_⟩
      · exact (congrArg (·.config.options.transactionBoundary) hrem).trans hspl
      · rw [append_assoc,hv,← commitAck_outstanding hp.1 batch.ackMode as.2 hn]
        exact congrArg _ ho

lemma Splitting.delivers (h : s.Splitting) (hs : s.runtime.pollSafe as.1 = true) (hne : s.runtime.held ≠ []) :
    ∃ rt' batch, s.runtime.pollEventBatch as.1 = some (rt',.ok batch) ∧ batch.visible ≠ [] := by
  rw [pollSafe,Bool.and_eq_true] at hs
  cases hp : s.runtime.pendingDelivery with
  | none =>
    obtain ⟨rt',batch,hr,hv,_⟩ := pollEventBatch_delivers h.balanced h.running h.split hp hne hs.1
    exact ⟨rt',batch,hr,hv⟩
  | some p =>
    refine ⟨s.runtime,⟨p.events,p.committedPrefix,some ⟨p.deliveryId,p.remaining.length,p.ackEpoch⟩⟩,?_,?_⟩
    · simp only [pollEventBatch,pollQueues,h.running,ne_eq,not_true_eq_false,if_false,currentPendingBatch,hp,
        Option.map_some]
    · have hpa := (h.balanced.partly p hp).1
      exact ne_nil_of_length_pos (by simp only [EventBatch.visible,length_drop]; omega)

/-- A poll that finds nothing held takes injected events in. -/
lemma Splitting.takes_in (h : s.Splitting) (hs : s.runtime.pollSafe as.1 = true) (hsi : s.runtime.Silent as.1)
    (hh : s.runtime.held = []) (hne : s.runtime.injectedEvents ≠ []) :
    ∃ r, s.runtime.pollEventBatch as.1 = some r ∧ r.1.held ≠ [] := by
  obtain ⟨hu,hbu,hso⟩ : s.runtime.uncommittedEvents = [] ∧ s.runtime.bufferedEvents = [] ∧
      s.runtime.pendingSourceEvents = [] := by
    simpa only [held,append_eq_nil_iff] using hh
  have hp : s.runtime.pendingDelivery = none := by
    cases hp : s.runtime.pendingDelivery with
    | none => rfl
    | some p =>
      have hpa := (h.balanced.partly p hp).1
      have hl := congrArg length hu
      simp only [uncommittedEvents,hp,PendingDelivery.remaining,length_drop,length_nil] at hl
      omega
  obtain ⟨_,_,_,hf⟩ := s.runtime.retryPendingConfirmation_frame as.1.confirm
  have hqu : s.runtime.pollQueues as.1.confirm = (s.runtime.retryPendingConfirmation as.1.confirm,none) := by
    simp [pollQueues,h.running,currentPendingBatch,hp,hf,hbu,hso]
  obtain ⟨n,hn⟩ := Nat.exists_eq_succ_of_ne_zero s.runtime.config.options.bufferPos.ne'
  obtain ⟨e,es,hi⟩ := exists_cons_of_ne_nil hne
  obtain ⟨rt₂,hre⟩ : ∃ rt₂, (s.runtime.retryPendingConfirmation as.1.confirm).receive as.1 =
      some (rt₂,.ok (e::es.take n)) := by
    simp only [receive,hf,hi,hn,isEmpty_cons,Bool.false_eq_true,if_false,take_succ_cons]
    exact ⟨_,rfl⟩
  have ha : s.runtime.arrival as.1 = some (rt₂,e::es.take n) := by
    rw [arrival,hqu]
    dsimp only
    rw [hre]
  obtain ⟨r,hr⟩ : ∃ r, s.runtime.pollEventBatch as.1 = some r := by
    rw [pollEventBatch,hqu]
    dsimp only
    rw [pollSources,hre]
    exact ⟨_,rfl⟩
  refine ⟨r,hr,?_⟩
  have hq := congrArg Prod.fst (pollEventBatch_queues h.balanced hs hr)
  rw [admitted,ha] at hq
  dsimp only at hq
  rw [(hsi _ ha).2] at hq
  rw [show r.1.held = _ from hq]
  simp [Except.toOption]

/-- A round with something outstanding delivers some of it, or takes injected events in. -/
lemma Splitting.left_lt (h : s.Splitting) (hq : s.Undisturbed as) (hne : s.runtime.outstanding ≠ []) :
    (s.step as).left < s.left := by
  have hk := congrArg length (h.step hq).2
  obtain ⟨hs,hsi,hn⟩ := hq
  have hle := (s.step as).left_le
  by_cases hh : s.runtime.held = []
  · have hin : s.runtime.injectedEvents ≠ [] := by
      intro hi
      rw [outstanding,hh,hi] at hne
      exact hne rfl
    obtain ⟨⟨rt,result⟩,hr,hheld⟩ := h.takes_in hs hsi hh hin
    have hl : s.left = 2*s.runtime.outstanding.length+1 := by rw [left,if_pos hh]
    have hp := pollEventBatch_poll h.balanced hr
    cases result with
    | error =>
      have hst : s.step as = {s with runtime := rt} := by simp only [Rounds.step,hr]
      rw [hst] at hk ⊢
      simp only [length_append,Nat.add_left_cancel_iff] at hk
      rw [hl,left,if_neg hheld,hk]
      omega
    | ok batch =>
      have hst : s.step as = ⟨(rt.commitAck .release batch.ackMode as.2).1,s.delivered++batch.visible⟩ := by
        simp only [Rounds.step,hr]
      have hv := (SinkTrace.poll_uncommitted h.balanced hr).1
      rw [hst] at hk hn hle ⊢
      simp only [length_append] at hk hle
      by_cases hvi : batch.visible = []
      · have hc := commitAck_held hp.1 batch.ackMode as.2 hn
        rw [← hv,hvi,nil_append] at hc
        rw [hl,left,if_neg (hc ▸ hheld)]
        rw [hvi,length_nil] at hk
        change 2*(rt.commitAck .release batch.ackMode as.2).1.outstanding.length+0 < _
        omega
      · have := length_pos_iff.mpr hvi
        omega
  · obtain ⟨rt,batch,hr,hv⟩ := h.delivers hs hh
    have hst : s.step as = ⟨(rt.commitAck .release batch.ackMode as.2).1,s.delivered++batch.visible⟩ := by
      simp only [Rounds.step,hr]
    have hl : s.left = 2*s.runtime.outstanding.length := by rw [left,if_neg hh,Nat.add_zero]
    have := length_pos_iff.mpr hv
    rw [hst] at hk hle ⊢
    simp only [length_append] at hk hle
    omega

theorem Splitting.run (h : s.Splitting) {rounds : List (PollAnswers S H × CommitAnswers)}
    (hq : Meets Rounds.step Undisturbed s rounds) :
    (Machine.run Rounds.step s rounds).delivered++(Machine.run Rounds.step s rounds).runtime.outstanding =
      s.delivered++s.runtime.outstanding ∧
    (s.left ≤ rounds.length+1 → (Machine.run Rounds.step s rounds).runtime.outstanding = []) := by
  induction rounds generalizing s with
  | nil =>
    refine ⟨rfl,fun hl => ?_⟩
    simp only [left,length_nil] at hl
    change s.runtime.outstanding = []
    by_contra hne
    have := length_pos_iff.mpr hne
    omega
  | cons as rounds ih =>
    obtain ⟨hs,hd⟩ := h.step hq.1
    obtain ⟨he,hl⟩ := ih hs hq.2
    rw [run_cons]
    refine ⟨he.trans hd,fun hle => hl ?_⟩
    by_cases hne : s.runtime.outstanding = []
    · -- nothing is left, and nothing comes in
      obtain ⟨more,hm⟩ := s.step_delivered as
      rw [hne,append_nil,← hm,append_assoc,append_right_eq_self,append_eq_nil_iff] at hd
      simp only [left,hd.2,length_nil]
      split <;> omega
    · have := h.left_lt hq.1 hne
      rw [length_cons] at hle
      omega
end Rounds
namespace Ledger
open CdcRuntime
variable {S H : Type} [SnapshotHandle S] [StreamHandle H] [Handoff S H]

/-- Three events arrive under buffers of two and the first is committed; one more is injected. -/
def partlyCommitted : List (RuntimeCall Empty ScriptedStream) :=
  [.poll (pollAnswers [offsetEvent "1",offsetEvent "22",offsetEvent "333"]),.commit ⟨1,1,0⟩ accepting]

def cutShort : CdcRuntime Empty ScriptedStream :=
  {(run step (start (CdcRuntime.started {plainConfig with options := pairOptions} ⟨[]⟩ 0 none none
    (some ⟨⟩))) partlyCommitted).runtime with injectedEvents := [offsetEvent "4444"]}

/-- Rounds without a new event. -/
def silentRounds : List (PollAnswers Empty ScriptedStream × CommitAnswers) := List.replicate 6 Rounds.silent

instance (s : Rounds Empty ScriptedStream) (answers : PollAnswers Empty ScriptedStream × CommitAnswers) :
    Decidable (s.Undisturbed answers) := by
  unfold Rounds.Undisturbed Silent
  infer_instance

end Ledger
end Rustcdc
