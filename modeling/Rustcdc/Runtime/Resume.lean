import Rustcdc.Lib.Feed
import Rustcdc.Runtime.NoLoss

/-! The durable position against what the source sends after a restart.  A connector says where
an event's transaction ends and how far a saved offset reaches; whatever the connector, a run
whose commits end at transaction ends never saves a position past an event still uncommitted. -/
namespace Rustcdc
open List Machine CdcRuntime

/-- A stream as the runtime's durable position depends on it.  `Sent` is the server's side of one
call; `Good` is what the handle keeps from call to call. -/
structure Connector (H : Type) [StreamHandle H] where
  Accepts : RuntimeSourceConfig → Prop
  Good : H → Prop
  Sent : H → StreamHandle.Answer H → Prop
  Carried : Event → Prop
  endOf : Event → ℕ
  rank : Offset → ℕ
  confirm_good : ∀ h lsn answer, Good h → Good (StreamHandle.confirmLsn h lsn answer).1
  next_good : ∀ h answer, Good h → Sent h answer → Good (StreamHandle.nextEvents h answer).1
  next_carried : ∀ h answer events, Good h → Sent h answer → (StreamHandle.nextEvents h answer).2 = .ok events →
      (∀ e ∈ events, Carried e) ∧ events.Pairwise (fun a b => endOf a ≤ endOf b)
  carried_change : ∀ e, Carried e → e.snapshot = none
  recorded : ∀ {S : Type} [SnapshotHandle S] (rt : CdcRuntime S H) (e : Event) (offset : Offset),
    Accepts rt.config.source → (∀ h, rt.stream = some h → Good h) → Carried e →
      rt.buildCheckpointOffset e = .ok offset → rank offset ≤ endOf e

namespace Connector
variable {S H : Type} [SnapshotHandle S] [StreamHandle H] (C : Connector H)

/-- How far the checkpoint a restart loads reaches. -/
def savedRank (checkpoint : Checkpoint Offset) : ℕ := (checkpoint.load.map (C.rank ·.1)).getD 0
lemma savedRank_save (cp : Checkpoint Offset) (offset : Offset) (n : UInt64) :
    C.savedRank ⟨cp.saved++[(offset,n)]⟩ = C.rank offset := by
  simp [savedRank,Checkpoint.load]

/-- The server's side of a poll: of each call it makes, on the open stream or on one reopened
from the checkpoint. -/
def AttemptsSent : Option H → List (StreamAttempt H) → Prop
  | _, [] => True
  | none, a::as =>
    (∀ h, a.reopen.restart = .ok h → C.Good h ∧ AttemptsSent (some h) as) ∧ AttemptsSent none as
  | some h, a::as =>
    C.Sent h a.events ∧ (∀ h, a.reconnect.restart = .ok h → C.Good h ∧ AttemptsSent (some h) as) ∧
      AttemptsSent none as

/-- The record is of a position no later than where the event's transaction ends. -/
def Records (r : PendingRecord Offset) (e : Event) : Prop :=
  ∃ offset, r.offset = some offset ∧ C.rank offset ≤ C.endOf e

/-- What the position argument needs of a runtime: the stream is its only source, and each
barrier record is of its own event. -/
structure Backed (rt : CdcRuntime S H) : Prop where
  accepts : C.Accepts rt.config.source
  noSnapshot : rt.snapshot = none
  noInjected : rt.injectedEvents = []
  good : ∀ h, rt.stream = some h → C.Good h
  carried : ∀ e ∈ rt.held, C.Carried e
  records : List.Forall₂ C.Records rt.commitBarrier.pendingRecords (rt.uncommittedEvents++rt.bufferedEvents)

/-- A reply of the stream loop: the handle it leaves open is good, and a batch is in commit
order. -/
def Replied (result : Option H × Except Error (List Event)) : Prop := (∀ h, result.1 = some h → C.Good h) ∧
    ∀ events, result.2 = .ok events → (∀ e ∈ events, C.Carried e) ∧ events.Pairwise (fun a b => C.endOf a ≤ C.endOf b)

variable {C} {att : List (StreamAttempt H)} {s : Option H} {result : Option H × Except Error (List Event)}

lemma replied_error (hg : ∀ h, s = some h → C.Good h) (e : Error) : C.Replied (s,.error e) := by
  refine ⟨hg,fun events h => ?_⟩
  cases h
lemma good_none : ∀ h, (none : Option H) = some h → C.Good h := by
  intro h hn
  cases hn

lemma good_some {h : H} (hg : C.Good h) : ∀ h', some h = some h' → C.Good h' := by
  intro h' he
  cases he
  exact hg

lemma pollStreamRetrying_replied {policy : ConnectionRetryPolicy} {attempt : ℕ}
    (hg : ∀ h, s = some h → C.Good h) (hs : C.AttemptsSent s att)
    (hres : pollStreamRetrying policy attempt s att = some result) :
    C.Replied result := by
  induction att generalizing attempt s with
  | nil => simp [pollStreamRetrying] at hres
  | cons a as ih =>
    cases s with
    | none =>
      obtain ⟨hr,hc⟩ := hs
      rw [pollStreamRetrying] at hres
      split at hres
      · split at hres
        · cases hres
          exact replied_error good_none _
        · exact ih good_none hc hres
      · split at hres
        · cases hres
          exact replied_error good_none _
        · split at hres
          · split at hres
            · cases hres
              exact replied_error good_none _
            · exact ih good_none hc hres
          · rename_i h ho
            obtain ⟨hf,hre⟩ := hr h ho
            exact ih (good_some hf) hre hres
    | some h =>
      obtain ⟨hca,hr,hc⟩ := hs
      have ha := C.next_good h a.events (hg h rfl) hca
      have hb := C.next_carried h a.events
      rw [pollStreamRetrying] at hres
      generalize StreamHandle.nextEvents h a.events = answered at hres ha hb
      obtain ⟨h',r⟩ := answered
      cases r with
      | ok =>
        cases hres
        refine ⟨good_some ha,fun es' he => ?_⟩
        exact hb es' (hg h rfl) hca he
      | error e =>
        dsimp only at hres
        split at hres
        · cases hres
          exact replied_error (good_some ha) _
        · split at hres
          · exact ih good_none hc hres
          · split at hres
            · cases hres
              exact replied_error good_none _
            · cases ho : a.reconnect.restart with
              | error =>
                rw [ho] at hres
                exact ih good_none hc hres
              | ok fresh =>
                rw [ho] at hres
                obtain ⟨hf,hre⟩ := hr fresh ho
                exact ih (good_some hf) hre hres

lemma pollStream_replied {options : RuntimeOptions} {h : H} (hg : C.Good h)
    (hs : C.AttemptsSent (some h) att) (hr : pollStream options h att = some result) : C.Replied result := by
  unfold pollStream at hr
  split at hr
  · exact pollStreamRetrying_replied (good_some hg) hs hr
  · cases att with
    | nil => simp at hr
    | cons a =>
      cases hr
      refine ⟨good_some (C.next_good h a.events hg hs.1),fun events he => ?_⟩
      exact C.next_carried h a.events events hg hs.1 he

namespace Backed
variable {rt : CdcRuntime S H}

omit [SnapshotHandle S] in
lemma good_of_told (h : C.Backed rt) {s : Option H} (ht : Told rt.stream s) :
    ∀ handle, s = some handle → C.Good handle := by
  cases ht with
  | silent => exact h.good
  | confirmed handle lsn a ho =>
    exact good_some (C.confirm_good handle lsn a (h.good handle ho))

omit [SnapshotHandle S] in
lemma retryPendingConfirmation (h : C.Backed rt) (cf : Except Error Unit) :
    C.Backed (rt.retryPendingConfirmation cf) := by
  unfold CdcRuntime.retryPendingConfirmation
  split
  · rename_i lsn handle _ ho
    have hg := C.confirm_good handle lsn cf (h.good handle ho)
    split <;> rename_i he <;> rw [he] at hg
    · exact ⟨h.accepts,h.noSnapshot,h.noInjected,good_some hg,h.carried,h.records⟩
    · exact ⟨h.accepts,h.noSnapshot,h.noInjected,good_some hg,h.carried,h.records⟩
  · exact h

omit [SnapshotHandle S] in
lemma deliverBufferedBatch (h : C.Backed rt) (hn : rt.pendingDelivery = none) :
    C.Backed rt.deliverBufferedBatch.1 := by
  have hc := h.carried
  rw [← deliverBufferedBatch_held hn] at hc
  have hr := h.records
  simp only [uncommittedEvents,hn,List.nil_append] at hr
  unfold CdcRuntime.deliverBufferedBatch at hc ⊢
  dsimp only at hc ⊢
  split_ifs with he
  · rw [if_pos he] at hc
    rw [List.isEmpty_iff] at he
    have hs := List.take_append_drop rt.config.options.maxBufferSize rt.bufferedEvents
    rw [he,List.nil_append] at hs
    refine ⟨h.accepts,h.noSnapshot,h.noInjected,h.good,hc,?_⟩
    simpa [uncommittedEvents,hn,hs] using hr
  · rw [if_neg he] at hc
    refine ⟨h.accepts,h.noSnapshot,h.noInjected,h.good,hc,?_⟩
    simpa [uncommittedEvents,PendingDelivery.remaining] using hr

lemma flushed (h : C.Backed rt) (hsa : rt.flushChunk.all rt.admissible = true) : C.Backed rt.flushed := by
  refine ⟨h.accepts,h.noSnapshot,h.noInjected,h.good,?_,?_⟩
  · rw [flushed_held]
    exact h.carried
  · have hch : List.Forall₂ C.Records (rt.flushChunk.map rt.recordFor) rt.flushChunk := by
      rw [forall₂_map_left_iff,forall₂_same]
      intro e he
      have hc : C.Carried e := by
        refine h.carried e ?_
        simp only [held,mem_append]
        exact .inr (.inr (mem_of_mem_take he))
      have ha := all_eq_true.mp hsa e he
      simp only [admissible,Bool.and_eq_true] at ha
      obtain ⟨o,ho⟩ := isOk_eq_true ha.2
      have hs := C.carried_change e hc
      simp only [recordOffset,hs,Option.isSome_none,Bool.false_eq_true,if_false] at ho
      obtain ⟨o,hb,-⟩ := except_map_ok ho
      refine ⟨o,?_,C.recorded rt e o h.accepts h.good hc hb⟩
      simp [recordFor,recordOffset,hs,hb,Except.map,Except.toOption]
    have hap : rt.flushed.uncommittedEvents++rt.flushed.bufferedEvents =
        rt.uncommittedEvents++rt.bufferedEvents++rt.flushChunk := by
      simp [CdcRuntime.flushed,withBuffered,uncommittedEvents]
    rw [hap]
    exact rel_append h.records hch

lemma snapshotStore_eq (h : C.Backed rt) (n : ℕ) (answers : CommitAnswers) :
    rt.snapshotStore n answers = rt.checkpoint := by
  have hn : (rt.commitWindow n).any (·.snapshot.isSome) = false := by
    rw [any_eq_false]
    intro e he
    have hh : e ∈ rt.held := mem_append_left _ (mem_of_mem_take he)
    simp [C.carried_change e (h.carried e hh)]
  simp [snapshotStore,persistSnapshotCheckpointBeforeCommit,hn]

variable {rt' : CdcRuntime S H}

omit [SnapshotHandle S] in
lemma durable (h : C.Backed rt) {count : ℕ} (hl : count ≤ rt.uncommittedEvents.length)
    (hco : rt'.core = rt.core.advance count) (hre : rt'.remainder = rt.remainder)
    (hs : Told rt.stream rt'.stream) :
    C.Backed rt' := by
  have hb : rt'.bufferedEvents = rt.bufferedEvents := congrArg DeliveryCore.bufferedEvents hco
  have hq : rt'.pendingSourceEvents = rt.pendingSourceEvents := congrArg Remainder.pendingSourceEvents hre
  have hr : rt'.commitBarrier.pendingRecords = rt.commitBarrier.pendingRecords.drop count :=
    congrArg (·.commitBarrier.pendingRecords) hco
  have hc : rt'.config = rt.config := congrArg Remainder.config hre
  refine ⟨hc ▸ h.accepts,(congrArg Remainder.snapshot hre).trans h.noSnapshot,
    (congrArg Remainder.injectedEvents hre).trans h.noInjected,h.good_of_told hs,?_,?_⟩
  · intro e he
    rw [held,uncommittedEvents_advance hco,hb,hq,mem_append] at he
    refine h.carried e (mem_append.mpr (he.imp mem_of_mem_drop id))
  · rw [hr,uncommittedEvents_advance hco,hb,← drop_append_of_le_length hl]
    exact forall₂_drop count h.records

omit [SnapshotHandle S] in
lemma lastPersistable (h : C.Backed rt) {n : ℕ} {last : Event} (hl : (rt.commitWindow n).getLast? = some last)
    (hle : n ≤ rt.uncommittedEvents.length) :
    ∃ o, CommitBarrier.lastPersistable (rt.commitBarrier.pendingRecords.take n) =
      some o ∧ C.rank o ≤ C.endOf last := by
  have ht := forall₂_take n h.records
  rw [take_append_of_le_length hle] at ht
  have hr := rel_reverse ht
  rw [commitWindow,List.getLast?_eq_head?_reverse] at hl
  unfold CommitBarrier.lastPersistable
  generalize (rt.commitBarrier.pendingRecords.take n).reverse = records at hr ⊢
  generalize (rt.uncommittedEvents.take n).reverse = events at hr hl
  cases hr with
  | nil => simp at hl
  | cons hre =>
    cases hl
    obtain ⟨o,ho,hra⟩ := hre
    exact ⟨o,by simp [ho],hra⟩

variable [Handoff S H]

lemma receive_eq (h : C.Backed rt) (answers : PollAnswers S H) :
    rt.receive answers = rt.receiveFromStream answers := by
  simp [receive,receiveFromSnapshot,h.noInjected,h.noSnapshot]

variable {es : List Event} {as : PollAnswers S H}

lemma receive (h : C.Backed rt) (hse : C.AttemptsSent rt.stream as.attempts)
    {received : Except Error (List Event)} (hre : rt.receive as = some (rt',received)) :
    C.Backed rt' ∧ ∀ es, received = .ok es →
      (∀ e ∈ es, C.Carried e) ∧ es.Pairwise (fun a b => C.endOf a ≤ C.endOf b) := by
  rw [h.receive_eq,receiveFromStream] at hre
  cases hs : rt.stream with
  | none =>
    rw [hs] at hre
    cases hre
    refine ⟨h,fun es he => ?_⟩
    cases he
    simp
  | some handle =>
    rw [hs] at hre hse
    dsimp only at hre
    cases hp : pollStream rt.config.options handle as.attempts with
    | none => simp [hp] at hre
    | some =>
      have hr := pollStream_replied (h.good handle hs) hse hp
      rw [hp] at hre
      cases hre
      exact ⟨⟨h.accepts,h.noSnapshot,h.noInjected,hr.1,h.carried,h.records⟩,hr.2⟩

omit [SnapshotHandle S] [Handoff S H] in
lemma queued (h : C.Backed rt) (g : Option EventIdempotencyGuard) (ps : ℕ) (hev : ∀ e ∈ es, C.Carried e) :
    C.Backed (rt.queued g ps es) := by
  refine ⟨h.accepts,h.noSnapshot,h.noInjected,h.good,?_,h.records⟩
  intro e he
  rw [queued_held,mem_append] at he
  rcases he with he | he
  · exact h.carried e he
  · exact hev e he

lemma arrival (h : C.Backed rt) (hb : rt.core.Balanced) (hsa : rt.queueSafe as.confirm = true)
    (hse : C.AttemptsSent (rt.pollQueues as.confirm).1.stream as.attempts)
    (ha : rt.arrival as = some (rt',es)) :
    (∀ e ∈ es, C.Carried e) ∧ es.Pairwise (fun a b => C.endOf a ≤ C.endOf b) := by
  have hq := pollQueues_rule (I := C.Backed) (fun _ cf h => h.retryPendingConfirmation cf)
    (fun _ h hn => h.deliverBufferedBatch hn) (fun _ h _ hsa => h.flushed hsa) hb h hsa
  obtain ⟨rt₁,hs,hr⟩ := arrival_receive ha
  rw [hs] at hq hse
  exact (hq.receive hse hr).2 _ rfl

lemma pollEventBatch (h : C.Backed rt) (hb : rt.core.Balanced) (hs : rt.pollSafe as = true)
    (hse : C.AttemptsSent (rt.pollQueues as.confirm).1.stream as.attempts)
    (hk : ∀ rt' es transformed, rt.arrival as = some (rt',es) →
      rt'.passed as.now es = .ok transformed → transformed.Sublist es)
    {result : CdcRuntime S H × Except Error EventBatch}
    (hre : rt.pollEventBatch as = some result) : C.Backed result.1 := by
  have hq : rt.queueSafe as.confirm = true := by
    rw [pollSafe,Bool.and_eq_true] at hs
    exact hs.1
  refine pollEventBatch_rule (I := C.Backed) (fun _ cf h => h.retryPendingConfirmation cf)
    (fun _ h hn => h.deliverBufferedBatch hn) (fun _ h _ hs => h.flushed hs) hb h hs
    ?_ ?_ hre
  · intro rt₁ rt₂ received hba hqu hr
    rw [hqu] at hse
    exact (hba.receive hse hr).1
  · intro rt₂ es g ps transformed hba ha hp
    have hc := (h.arrival hb hq hse ha).1
    have hsu := hk rt₂ es transformed ha hp
    exact hba.queued g ps fun e he => hc e (hsu.subset he)
end Backed
end Connector
/-- A runtime with the events its source has returned, each the first time its transaction was
sent, and those the caller has committed. -/
structure Replay (S H : Type) where
  runtime : CdcRuntime S H
  returned : List Event
  committed : List Event

namespace Replay
variable {S H : Type} [SnapshotHandle S] [StreamHandle H] [Handoff S H] (C : Connector H)

def start (runtime : CdcRuntime S H) : Replay S H := ⟨runtime,[],[]⟩

def step (s : Replay S H) : RuntimeCall S H → Replay S H
  | .poll answers =>
    match s.runtime.pollEventBatch answers with
    | none => s
    | some (runtime,_) =>
      {s with
        runtime := runtime
        returned := s.returned++match s.runtime.arrival answers with
          | none => []
          | some (_,events) => events.filter (Feed.isNew C.endOf s.returned)}
  | .commit token answers =>
    let runtime := (s.runtime.commitAck .release (.required token) answers).1
    {s with
      runtime := runtime
      committed := s.committed++s.runtime.commitWindow (s.runtime.drained runtime)}

/-- The durable position covers no event that was returned and is still uncommitted. -/
def CoversNone (s : Replay S H) : Prop :=
  ∀ e ∈ s.returned.diff s.committed, C.savedRank s.runtime.checkpoint < C.endOf e
  deriving Decidable

/-- Transactions the server had not sent before end after the position the run started from and
after all it has sent. -/
def FirstSent (start : ℕ) (sent events : List Event) : Prop := ∀ e ∈ events, Feed.isNew C.endOf sent e = true →
    start < C.endOf e ∧ ∀ b ∈ sent, C.endOf b < C.endOf e
  deriving Decidable

def Answered (start : ℕ) (s : Replay S H) : RuntimeCall S H → Prop
  | .poll answers =>
    C.AttemptsSent (s.runtime.pollQueues answers.confirm).1.stream answers.attempts ∧
      ∀ arrived ∈ s.runtime.arrival answers, FirstSent C start s.returned arrived.2
  | .commit _ _ => True

/-- What the stages make of a batch is part of it, and holds every event of a transaction not
sent before. -/
def Keeps (sent : List Event) (rt : CdcRuntime S H) (answers : PollAnswers S H) (events : List Event) : Prop :=
  ∃ transformed ∈ (rt.passed answers.now events).toOption, transformed.Sublist events ∧
    transformed.filter (Feed.isNew C.endOf sent) = events.filter (Feed.isNew C.endOf sent)
  deriving Decidable

/-- The call loses nothing and splits no transaction: a poll gets every new event through, and a
commit leaves no event of its last event's transaction uncommitted. -/
def Unsplit (s : Replay S H) : RuntimeCall S H → Prop
  | .poll answers =>
    s.runtime.pollSafe answers = true ∧
      ∀ arrived ∈ s.runtime.arrival answers, Keeps C s.returned arrived.1 answers arrived.2
  | .commit token answers =>
    let window := s.runtime.commitWindow
      (s.runtime.drained (s.runtime.commitAck .release (.required token) answers).1)
    ∀ last ∈ window.getLast?, ∀ e ∈ s.returned.diff (s.committed++window), C.endOf e ≠ C.endOf last

instance (s : Replay S H) (call : RuntimeCall S H) : Decidable (s.Unsplit C call) :=
  match call with
  | .poll _ => inferInstanceAs (Decidable (_ ∧ _))
  | .commit _ _ => Option.decidableForallMem _

/-- The feed a run is: what was committed and what is held, in the order it came. -/
structure Tracks (start : ℕ) (s : Replay S H) (f : Feed Event) : Prop where
  queue : f.queue.map (·.1) = s.committed++s.runtime.held
  done : f.done = s.committed.length
  firsts : Feed.firsts f.queue = s.returned
  saved : f.saved = C.savedRank s.runtime.checkpoint
  ordered : f.Ordered C.endOf start

/-- Between calls: the bookkeeping balances, each record backs its event, and the run is a
feed. -/
structure Protected (start : ℕ) (s : Replay S H) : Prop where
  balanced : s.runtime.core.Balanced
  backed : C.Backed s.runtime
  tracked : ∃ f, s.Tracks C start f

variable {C} {first : ℕ} {s : Replay S H} {rt : CdcRuntime S H} {f : Feed Event} {ca : List (RuntimeCall S H)}
  {c : RuntimeConfig}

omit [SnapshotHandle S] [Handoff S H] in
lemma Tracks.done_le (h : s.Tracks C first f) : f.done ≤ f.queue.length := by
  have hl := congrArg List.length h.queue
  rw [length_map,length_append] at hl
  rw [h.done]
  omega

omit [SnapshotHandle S] [Handoff S H] in
lemma Tracks.coversNone (h : s.Tracks C first f) : s.CoversNone C := by
  intro e he
  rw [← h.saved]
  refine h.ordered.ahead_of_mem_diff ?_
  rw [h.firsts,map_take,h.queue,h.done,take_left]
  exact he

lemma Protected.poll (h : s.Protected C first) {answers : PollAnswers S H}
    (hse : s.Answered C first (.poll answers)) (hsa : s.Unsplit C (.poll answers)) :
    (s.step C (.poll answers)).Protected C first := by
  obtain ⟨hat,hfr⟩ := hse
  obtain ⟨hsa,hk⟩ := hsa
  have hq : s.runtime.queueSafe answers.confirm = true := by
    rw [pollSafe,Bool.and_eq_true] at hsa
    exact hsa.1
  simp only [step]
  cases hr : s.runtime.pollEventBatch answers with
  | none => exact h
  | some result =>
    obtain ⟨runtime,r⟩ := result
    have hh := pollEventBatch_held h.balanced hsa hr
    have hc : runtime.checkpoint = s.runtime.checkpoint := congrArg (·.2.2) (pollEventBatch_setup hr)
    obtain ⟨f,hf⟩ := h.tracked
    have hs : f.saved = C.savedRank runtime.checkpoint := by rw [hf.saved,hc]
    refine ⟨(pollEventBatch_poll h.balanced hr).1,h.backed.pollEventBatch h.balanced hsa hat ?_ hr,?_⟩
    · intro rt' events transformed ha hp
      obtain ⟨_,hp',hsu,_⟩ := hk _ ha
      rw [hp] at hp'
      cases hp'
      exact hsu
    · simp only [admitted] at hh
      cases ha : s.runtime.arrival answers with
      | none =>
        rw [ha] at hh
        refine ⟨f,?_,hf.done,by simpa using hf.firsts,hs,hf.ordered⟩
        simp [hf.queue,hh]
      | some ar =>
        obtain ⟨rt',events⟩ := ar
        have ho := (h.backed.arrival h.balanced hq hat ha).2
        obtain ⟨transformed,hp,hsu,hn⟩ := hk _ ha
        rw [ha] at hh
        dsimp only at hp hsu hn hh
        rw [hp] at hh
        -- what the poll adds to the feed is what the stages left of the batch
        refine ⟨f.append C.endOf transformed,?_,hf.done,?_,hs,?_⟩
        · simp [Feed.append,hf.queue,hh]
        · simp [Feed.append,Feed.firsts_marked,hf.firsts,hn]
        · refine hf.ordered.append hf.done_le ⟨ho.sublist hsu,fun e he hi => ?_⟩
          rw [hf.firsts] at hi ⊢
          exact hfr _ ha e (hsu.subset he) hi

lemma Protected.commit (h : s.Protected C first) (tk : AckToken) (answers : CommitAnswers)
    (hsaf : s.Unsplit C (.commit tk answers)) :
    (s.step C (.commit tk answers)).Protected C first := by
  have he := commitAck_effect h.balanced tk answers
  simp only [Unsplit] at hsaf
  simp only [step]
  generalize (s.runtime.commitAck .release (.required tk) answers).1 = runtime at he hsaf ⊢
  obtain ⟨f,hf⟩ := h.tracked
  cases he with
  | refused _ hsam hs =>
    have hc : runtime.checkpoint = s.runtime.checkpoint := by
      cases hs with
      | untouched hs => exact hs
      | unsaved count hs | saved count _ _ hs => rw [hs,h.backed.snapshotStore_eq]
    have hr : runtime = s.runtime := by
      rw [← hsam,← hc]
    subst hr
    have hd := drained_refused hsam
    rw [hd]
    refine ⟨h.balanced,h.backed,f,?_,?_,hf.firsts,hf.saved,hf.ordered⟩
    · simpa [commitWindow] using hf.queue
    · simpa [commitWindow] using hf.done
  | durable count _ hp hle hco hre hst _ hs =>
    have hd := drained_durable h.balanced hle hco
    rw [hd] at hsaf ⊢
    have hw : (s.runtime.commitWindow count).length = count := by
      rw [commitWindow,length_take]
      omega
    obtain ⟨last,hl⟩ : ∃ last, (s.runtime.commitWindow count).getLast? = some last := by
      rw [← Option.isSome_iff_exists,List.getLast?_isSome]
      intro hni
      rw [hni,length_nil] at hw
      omega
    have hb := hsaf last hl
    -- the position saved is that of the window's last event
    have hsa : C.savedRank runtime.checkpoint ≤ C.endOf last := by
      obtain ⟨of,hof,hra⟩ := h.backed.lastPersistable hl hle
      rcases hs with ⟨hn,_⟩ | ⟨o,ho,hwr⟩
      · cases hof.symm.trans hn
      · obtain rfl := Option.some.inj (hof.symm.trans ho)
        rw [hwr,C.savedRank_save]
        exact hra
    have hq : f.queue.map (·.1) = s.committed++s.runtime.commitWindow count++runtime.held := by
      rw [hf.queue,held_durable hco hre,append_assoc]
    have ht : (f.queue.take (f.done+count)).map (·.1) = s.committed++s.runtime.commitWindow count := by
      rw [map_take,hq,hf.done,take_left' (by rw [length_append,hw])]
    obtain ⟨x,hx,hfs⟩ : ∃ x, (f.queue.take (f.done+count)).getLast? = some x ∧ x.1 = last := by
      have hm := congrArg List.getLast? ht
      rw [List.getLast?_map,List.getLast?_append,hl,Option.some_or,Option.map_eq_some_iff] at hm
      exact hm
    subst hfs
    refine ⟨hco ▸ h.balanced.advance hp hle,h.backed.durable hle hco hre hst,
      f.commit count (C.savedRank runtime.checkpoint),hq,?_,hf.firsts,rfl,?_⟩
    · simp [Feed.commit,hf.done,hw]
    · refine hf.ordered.commit hx hsa fun a ha => ?_
      refine hb a ?_
      rw [← Feed.mem_diff_take hf.ordered.sorted,hf.firsts,ht] at ha
      exact ha

lemma Protected.step {call : RuntimeCall S H} (h : s.Protected C first)
    (hse : s.Answered C first call) (hs : s.Unsplit C call) :
    (s.step C call).Protected C first := by
  cases call with
  | poll => exact h.poll hse hs
  | commit tk answers => exact h.commit tk answers hs

/-- A runtime that reads only its stream, holds nothing, and has saved no position past where the
stream was opened: just started, or just past its snapshot. -/
structure Fresh (C : Connector H) (opened : ℕ) (rt : CdcRuntime S H) : Prop where
  balanced : rt.core.Balanced
  backed : C.Backed rt
  empty : rt.held = []
  reached : C.savedRank rt.checkpoint ≤ opened

omit [SnapshotHandle S] [Handoff S H] in
lemma Fresh.start_protected (h : Fresh C first rt) : (start rt).Protected C first where
  balanced := h.balanced
  backed := h.backed
  tracked := ⟨⟨[],0,C.savedRank rt.checkpoint⟩,by simp [start,h.empty],rfl,rfl,rfl,by
    constructor <;> simp [h.reached]⟩

omit [SnapshotHandle S] [Handoff S H] in
lemma started_fresh (ha : C.Accepts c.source) (cp : Checkpoint Offset)
    (n : UInt64) (g : Option EventIdempotencyGuard) {stream : H} (hg : C.Good stream)
    {o : ℕ} (ho : C.savedRank cp ≤ o) :
    Fresh C o (started (S := S) c cp n g none (some stream)) where
  balanced := Session.started_balanced c cp n g none (some stream)
  backed :=
    { accepts := ha
      noSnapshot := rfl
      noInjected := rfl
      good := Connector.good_some hg
      carried := by simp [held,uncommittedEvents,started]
      records := .nil }
  empty := by simp [held,uncommittedEvents,started]
  reached := ho

lemma run_protected (hf : Fresh C first rt) (hs : Meets (step C) (Answered C first) (start rt) ca)
    (hsa : Meets (step C) (Unsplit C) (start rt) ca) :
    (run (step C) (start rt) ca).Protected C first :=
  run_invariant_of_meets (step C) (fun _ _ h hc => Protected.step h hc.1 hc.2)
    hf.start_protected (meets_and (step C) hs hsa)

/-- Whatever the connector: in a run whose polls lose no new event and whose commits split no
transaction, the durable position never covers an event still uncommitted. -/
theorem run_coversNone (ha : C.Accepts c.source) (cp : Checkpoint Offset)
    (n : UInt64) (g : Option EventIdempotencyGuard) {stream : H} (hg : C.Good stream)
    (hs : Meets (step C) (Answered C (C.savedRank cp)) (start (started c cp n g none (some stream))) ca)
    (hsa : Meets (step C) (Unsplit C) (start (started c cp n g none (some stream))) ca) :
    (run (step C) (start (started c cp n g none (some stream))) ca).CoversNone C := by
  have hfr := started_fresh (S := S) ha cp n g hg le_rfl
  obtain ⟨f,hf⟩ := (run_protected hfr hs hsa).tracked
  exact hf.coversNone
end Replay
end Rustcdc
