import Rustcdc.Runtime.Poll
import Rustcdc.Checkpoint.BarrierSpec

/-! How a poll moves events between the source queue, the buffer, the barrier and the in-flight
delivery.  Everything the acknowledgement protocol depends on is in the delivery core; the
other stages of a poll leave it alone. -/
namespace Rustcdc.CdcRuntime
open List CommitBarrier
variable {S H : Type} [StreamHandle H]

/-- The part of the runtime the acknowledgement protocol is about. -/
structure DeliveryCore where
  options : RuntimeOptions
  bufferedEvents : List Event
  deliveredNotCommitted : ℕ
  nextDeliveryId : UInt64
  pendingDelivery : Option PendingDelivery
  commitBarrier : CommitBarrier Offset

variable (rt : CdcRuntime S H)

def core : DeliveryCore := ⟨rt.config.options,rt.bufferedEvents,rt.deliveredNotCommitted,rt.nextDeliveryId,
    rt.pendingDelivery,rt.commitBarrier⟩

namespace DeliveryCore
def uncommitted (c : DeliveryCore) : List Event :=
  match c.pendingDelivery with
  | none => []
  | some pending => pending.remaining

/-- The bookkeeping agrees: one barrier record per buffered or uncommitted event, none of them
accepted between calls. -/
structure Balanced (c : DeliveryCore) : Prop where
  records : c.commitBarrier.pendingCount = c.bufferedEvents.length+c.uncommitted.length
  inFlight : c.deliveredNotCommitted = c.uncommitted.length
  unaccepted : ∀ r ∈ c.commitBarrier.pendingRecords, r.accepted = false
  open_ : c.commitBarrier.barrierState ≠ .flushing
  capacity : c.commitBarrier.maxBufferSize = c.options.maxBufferSize
  bounded : c.commitBarrier.pendingCount ≤ c.options.maxBufferSize
  partly : ∀ pending, c.pendingDelivery = some pending → pending.committedPrefix < pending.events.length ∧
      pending.events.length ≤ c.options.maxBufferSize ∧
      pending.ackEpoch.toNat ≤ pending.committedPrefix
end DeliveryCore
lemma retryPendingConfirmation_frame (a : Except Error Unit) :
    ∃ stream lsn ps, rt.retryPendingConfirmation a = {rt with
        stream := stream
        pendingConfirmationLsn := lsn
        unconfirmedStallPolls := ps} := by
  unfold retryPendingConfirmation
  split
  · split <;> exact ⟨_,_,_,rfl⟩
  · exact ⟨_,_,_,rfl⟩

lemma retryPendingConfirmation_core (a : Except Error Unit) : (rt.retryPendingConfirmation a).core = rt.core := by
  obtain ⟨_,_,_,hf⟩ := rt.retryPendingConfirmation_frame a
  rw [hf]
  rfl

omit [StreamHandle H] in
lemma filterIdempotentEvents_frame (now : UInt64) (es : List Event) : ∃ g ps, (rt.filterIdempotentEvents now es).1 =
      {rt with idempotencyGuard := g, unconfirmedStallPolls := ps} := by
  unfold filterIdempotentEvents
  split
  · exact ⟨_,_,rfl⟩
  · split
    · exact ⟨_,_,rfl⟩
    · dsimp only
      split
      · split_ifs <;> exact ⟨_,_,rfl⟩
      · split_ifs <;> exact ⟨_,_,rfl⟩
section
variable (now : UInt64) (s : Event → Option SchemaRecord) (es : List Event)

omit [StreamHandle H] in
lemma stages_frame : ∃ g ps, (rt.stages now s es).1 =
      {rt with idempotencyGuard := g, unconfirmedStallPolls := ps} := by
  have hf := rt.filterIdempotentEvents_frame now es
  unfold stages
  split
  · exact ⟨_,_,rfl⟩
  · split <;> rename_i he <;> rw [he] at hf <;> exact hf

omit [StreamHandle H] in
lemma stages_core : (rt.stages now s es).1.core = rt.core := by
  obtain ⟨_,_,hf⟩ := rt.stages_frame now s es
  rw [hf]
  rfl
end
/-- Admitting an event adds one record and one buffered event, or changes nothing. -/
theorem bufferEvent_cases (ev : Event) : (∃ e, rt.bufferEvent ev = (rt,.error e)) ∨
    ∃ o, rt.recordOffset ev = .ok o ∧ rt.commitBarrier.barrierState ≠ .flushing ∧
      rt.commitBarrier.pendingRecords.length < rt.commitBarrier.maxBufferSize ∧
      rt.bufferEvent ev = ({rt with
          commitBarrier := {rt.commitBarrier with
            barrierState := .opened
            pendingRecords := rt.commitBarrier.pendingRecords++[⟨o,false⟩]}
          bufferedEvents := rt.bufferedEvents++[ev]},.ok ()) := by
  unfold bufferEvent
  cases if rt.config.options.validateEvents then ev.validateOrError else .ok () with
  | error e => exact .inl ⟨e,rfl⟩
  | ok =>
    cases ho : rt.recordOffset ev with
    | error e => exact .inl ⟨e,rfl⟩
    | ok o =>
      simp only [pushRecord]
      by_cases hf : rt.commitBarrier.barrierState = .flushing
      · rw [if_pos hf]
        exact .inl ⟨_,rfl⟩
      · rw [if_neg hf]
        by_cases hfu : rt.commitBarrier.maxBufferSize ≤ rt.commitBarrier.pendingRecords.length
        · rw [if_pos hfu]
          exact .inl ⟨_,rfl⟩
        · rw [if_neg hfu]
          exact .inr ⟨o,rfl,hf,by omega,rfl⟩

namespace DeliveryCore
/-- A core into which `n` more events were buffered, nothing delivered. -/
def Buffered (c c' : DeliveryCore) : Prop :=
  c'.options = c.options ∧ c'.deliveredNotCommitted = c.deliveredNotCommitted ∧
    c'.nextDeliveryId = c.nextDeliveryId ∧ c'.pendingDelivery = c.pendingDelivery
lemma Buffered.refl (c : DeliveryCore) : Buffered c c := ⟨rfl,rfl,rfl,rfl⟩
lemma Buffered.trans {a b c : DeliveryCore} (ha : Buffered a b) (hb : Buffered b c) : Buffered a c :=
  ⟨hb.1.trans ha.1,hb.2.1.trans ha.2.1,hb.2.2.1.trans ha.2.2.1,hb.2.2.2.trans ha.2.2.2⟩
end DeliveryCore
variable {rt : CdcRuntime S H}

lemma bufferEvent_balanced (h : rt.core.Balanced) (ev : Event) :
    (rt.bufferEvent ev).1.core.Balanced ∧ rt.core.Buffered (rt.bufferEvent ev).1.core := by
  rcases rt.bufferEvent_cases ev with ⟨e,he⟩ | ⟨o,_,ho,hro,he⟩ <;> rw [he]
  · exact ⟨h,.refl _⟩
  · refine ⟨⟨?_,h.inFlight,?_,by simp [core],h.capacity,?_,h.partly⟩,.refl _⟩
    · have hre := h.records
      simp only [core,pendingCount,DeliveryCore.uncommitted,length_append,length_cons,length_nil] at hre ⊢
      omega
    · intro r hr
      simp only [core,mem_append,mem_singleton] at hr
      rcases hr with hr | rfl
      · exact h.unaccepted r hr
      · rfl
    · have hc := h.capacity
      simp only [core,pendingCount,length_append,length_cons,length_nil] at hc ⊢
      omega

lemma bufferEvents_balanced (h : rt.core.Balanced) (ev : List Event) :
    (rt.bufferEvents ev).1.core.Balanced ∧ rt.core.Buffered (rt.bufferEvents ev).1.core := by
  induction ev generalizing rt with
  | nil => exact ⟨h,.refl _⟩
  | cons e es ih =>
    have ho := bufferEvent_balanced h e
    rw [bufferEvents]
    split
    · rename_i he
      rw [he] at ho
      exact ho
    · rename_i he
      rw [he] at ho
      exact ⟨(ih ho.1).1,ho.2.trans (ih ho.1).2⟩

inductive PollOutcome (c c' : DeliveryCore) : Except Error EventBatch → Prop
  | redelivered (pending : PendingDelivery) (h : c.pendingDelivery = some pending) (heq : c' = c) :
      PollOutcome c c' (.ok ⟨pending.events,pending.committedPrefix,
        some ⟨pending.deliveryId,pending.remaining.length,pending.ackEpoch⟩⟩)
  | nothing (h : c.pendingDelivery = none) (h' : c'.pendingDelivery = none)
      (hid : c'.nextDeliveryId = c.nextDeliveryId) : PollOutcome c c' (.ok .empty)
  | failed (e : Error) (h : c'.pendingDelivery = c.pendingDelivery)
      (hid : c'.nextDeliveryId = c.nextDeliveryId) : PollOutcome c c' (.error e)
  | delivered (events : List Event) (hne : events ≠ []) (h : c.pendingDelivery = none)
      (h' : c'.pendingDelivery = some ⟨c.nextDeliveryId,events,0,0⟩)
      (hid : c'.nextDeliveryId = saturatingAdd c.nextDeliveryId 1) :
      PollOutcome c c' (.ok ⟨events,0,some ⟨c.nextDeliveryId,events.length,0⟩⟩)

/-- A step that keeps the bookkeeping balanced, with its options unchanged. -/
def Poll (c c' : DeliveryCore) (r : Except Error EventBatch) : Prop :=
  c'.Balanced ∧ c'.options = c.options ∧ PollOutcome c c' r

lemma Poll.of_buffered {c b c' : DeliveryCore} {r : Except Error EventBatch}
    (hb : c.Buffered b) (hn : c.pendingDelivery = none) (h : Poll b c' r) : Poll c c' r := by
  obtain ⟨hba,ho,hou⟩ := h
  obtain ⟨hbo,_,hi,hp⟩ := hb
  refine ⟨hba,ho.trans hbo,?_⟩
  cases hou with
  | redelivered p hs => cases hs.symm.trans (hp.trans hn)
  | nothing _ h' hi' => exact .nothing hn h' (hi'.trans hi)
  | failed e h' hi' => exact .failed e (h'.trans hp) (hi'.trans hi)
  | delivered es hne _ h' hi' =>
    rw [hi] at h' hi' ⊢
    exact .delivered es hne hn h' hi'

lemma Poll.of_isEmpty {c c' : DeliveryCore} {b : EventBatch} (h : Poll c c' (.ok b))
    (hc : c.Balanced) (hn : c.pendingDelivery = none) (he : b.isEmpty = true) :
    c'.Balanced ∧ c.Buffered c' ∧ c'.pendingDelivery = none := by
  obtain ⟨hb,ho,hou⟩ := h
  cases hou with
  | redelivered p hs => cases hs.symm.trans hn
  | nothing _ h' hid =>
    have hi := hc.inFlight
    have hi' := hb.inFlight
    rw [DeliveryCore.uncommitted,hn] at hi
    rw [DeliveryCore.uncommitted,h'] at hi'
    exact ⟨hb,⟨ho,hi'.trans hi.symm,hid,h'.trans hn.symm⟩,h'⟩
  | delivered es hne =>
    simp only [EventBatch.isEmpty,EventBatch.visible,List.drop_zero,List.isEmpty_iff] at he
    exact absurd he hne
section
variable (h : rt.core.Balanced) (hn : rt.pendingDelivery = none)
include h hn

omit [StreamHandle H] in
lemma deliverBufferedBatch_poll : Poll rt.core rt.deliverBufferedBatch.1.core (.ok rt.deliverBufferedBatch.2) := by
  have hr := h.records
  have hi := h.inFlight
  have hu : rt.core.uncommitted = [] := by simp [DeliveryCore.uncommitted,core,hn]
  have hpo := rt.config.options.bufferPos
  rw [hu] at hr hi
  by_cases he : rt.bufferedEvents = []
  · have hd : rt.deliverBufferedBatch = (rt,.empty) := by
      simp [deliverBufferedBatch,he]
      rw [← he]
    rw [hd]
    exact ⟨h,rfl,.nothing hn hn rfl⟩
  · have hne : rt.bufferedEvents.take rt.config.options.maxBufferSize ≠ [] := by
      intro hni
      rcases take_eq_nil_iff.mp hni with h0 | h0
      · omega
      · exact he h0
    unfold deliverBufferedBatch
    rw [if_neg (by simpa using hne)]
    refine ⟨⟨?_,?_,h.unaccepted,h.open_,h.capacity,h.bounded,?_⟩,rfl,.delivered _ hne hn rfl rfl⟩
    · simp only [core,pendingCount,DeliveryCore.uncommitted,PendingDelivery.remaining,
        drop_zero,length_take,length_drop,length_nil] at hr ⊢
      omega
    · simp only [core,DeliveryCore.uncommitted,PendingDelivery.remaining,drop_zero,length_nil] at hi ⊢
      omega
    · intro p hp
      obtain rfl : p = _ := (Option.some.inj hp).symm
      exact ⟨length_pos_iff.mpr hne,by simp [core],by simp⟩

lemma flushPendingSourceEvents_poll :
    Poll rt.core rt.flushPendingSourceEvents.1.core rt.flushPendingSourceEvents.2 := by
  unfold flushPendingSourceEvents
  split
  · exact ⟨h,rfl,.nothing hn hn rfl⟩
  · dsimp only
    split
    · exact ⟨h,rfl,.failed _ rfl rfl⟩
    · set kept := trimLen rt.config.options _ _
      have hc : ({rt with pendingSourceEvents :=
          rt.pendingSourceEvents.drop kept} : CdcRuntime S H).core.Balanced := h
      have hb := bufferEvents_balanced hc (rt.pendingSourceEvents.take kept)
      split
      · rename_i rt' e he
        rw [he] at hb
        exact ⟨hb.1,hb.2.1,.failed e hb.2.2.2.2 hb.2.2.2.1⟩
      · rename_i rt' he
        rw [he] at hb
        have hn' : rt'.pendingDelivery = none := hb.2.2.2.2.trans hn
        exact Poll.of_buffered hb.2 hn (deliverBufferedBatch_poll hb.1 hn')

lemma ingest_poll (now : UInt64) (schemaHistory : Event → Option SchemaRecord) (es : List Event) :
    Poll rt.core (rt.ingest now schemaHistory es).1.core (rt.ingest now schemaHistory es).2 := by
  have hc := rt.stages_core now schemaHistory es
  unfold ingest
  split
  · rename_i rt' e he
    rw [he] at hc
    simp only at hc ⊢
    rw [hc]
    exact ⟨h,rfl,.failed e rfl rfl⟩
  · rename_i rt' transformed he
    rw [he] at hc
    simp only at hc
    have hn' : rt'.pendingDelivery = none := (congrArg DeliveryCore.pendingDelivery hc).trans hn
    rw [← hc] at h ⊢
    have hq : ({rt' with pendingSourceEvents :=
        rt'.pendingSourceEvents++transformed} : CdcRuntime S H).core.Balanced := h
    exact flushPendingSourceEvents_poll hq hn'
end
section
variable [SnapshotHandle S] [Handoff S H] {rt : CdcRuntime S H} {re : CdcRuntime S H × Except Error (List Event)} {as : PollAnswers S H}

lemma receiveFromStream_frame (hr : rt.receiveFromStream as = some re) :
    ∃ stream, re.1 = {rt with stream := stream} := by
  unfold receiveFromStream at hr
  split at hr
  · cases hr
    exact ⟨_,rfl⟩
  · split at hr
    · cases hr
    · cases hr
      exact ⟨_,rfl⟩

lemma receiveFromSnapshot_frame (hr : rt.receiveFromSnapshot as = some re) : ∃ snapshot stream complete, re.1 =
      {rt with snapshot := snapshot, stream := stream, handoffComplete := complete} := by
  unfold receiveFromSnapshot at hr
  split at hr
  · obtain ⟨stream,hf⟩ := receiveFromStream_frame hr
    exact ⟨_,_,_,hf⟩
  · split at hr
    · cases hr
      exact ⟨_,_,_,rfl⟩
    · split at hr
      · obtain ⟨stream,hf⟩ := receiveFromStream_frame hr
        exact ⟨_,_,_,hf⟩
      · split at hr
        · cases hr
          exact ⟨_,_,_,rfl⟩
        · split at hr
          · cases hr
            exact ⟨_,_,_,rfl⟩
          · obtain ⟨stream,hf⟩ := receiveFromStream_frame hr
            exact ⟨_,_,_,hf⟩
    · cases hr
      exact ⟨_,_,_,rfl⟩

lemma receive_frame (hr : rt.receive as = some re) : ∃ injected snapshot stream complete, re.1 =
      {rt with
        injectedEvents := injected
        snapshot := snapshot
        stream := stream
        handoffComplete := complete} := by
  unfold receive at hr
  split at hr
  · obtain ⟨snapshot,stream,complete,hf⟩ := receiveFromSnapshot_frame hr
    exact ⟨_,_,_,_,hf⟩
  · cases hr
    exact ⟨_,_,_,_,rfl⟩

lemma receive_core (hr : rt.receive as = some re) : re.1.core = rt.core := by
  obtain ⟨_,_,_,_,hf⟩ := receive_frame hr
  rw [hf]
  rfl

variable {re : CdcRuntime S H × Except Error EventBatch}

lemma pollSources_poll (h : rt.core.Balanced) (hn : rt.pendingDelivery = none)
    (hr : rt.pollSources as = some re) : Poll rt.core re.1.core re.2 := by
  unfold pollSources at hr
  cases hre : rt.receive as with
  | none => simp [hre] at hr
  | some ar =>
    obtain ⟨rt₁,b⟩ := ar
    have hc : rt₁.core = rt.core := receive_core hre
    rw [hre] at hr
    rw [← hc] at h ⊢
    have hn₁ : rt₁.pendingDelivery = none := (congrArg DeliveryCore.pendingDelivery hc).trans hn
    cases b with
    | error e =>
      cases hr
      exact ⟨h,rfl,.failed e rfl rfl⟩
    | ok es =>
      cases es with
      | nil =>
        cases hr
        exact ⟨h,rfl,.nothing hn₁ hn₁ rfl⟩
      | cons =>
        cases hr
        exact ingest_poll h hn₁ _ _ _

omit [SnapshotHandle S] [Handoff S H] in
/-- The queues serve the poll, or they hold nothing to deliver and only had events buffered. -/
theorem pollQueues_poll (h : rt.core.Balanced) (cf : Except Error Unit) :
    (∃ served, (rt.pollQueues cf).2 = some served ∧ Poll rt.core (rt.pollQueues cf).1.core served) ∨
    (rt.pollQueues cf).2 = none ∧ (rt.pollQueues cf).1.core.Balanced ∧ rt.core.Buffered (rt.pollQueues cf).1.core ∧
      rt.pendingDelivery = none ∧ (rt.pollQueues cf).1.pendingDelivery = none := by
  unfold pollQueues
  split
  · exact .inl ⟨_,rfl,h,rfl,.failed _ rfl rfl⟩
  · cases hp : rt.pendingDelivery with
    | some p =>
      simp only [currentPendingBatch,hp,Option.map_some]
      exact .inl ⟨_,rfl,h,rfl,.redelivered p hp rfl⟩
    | none =>
      simp only [currentPendingBatch,hp,Option.map_none]
      have hc := rt.retryPendingConfirmation_core cf
      generalize rt.retryPendingConfirmation cf = rt₁ at hc ⊢
      have hn : rt₁.pendingDelivery = none := (congrArg DeliveryCore.pendingDelivery hc).trans hp
      rw [← hc] at h ⊢
      split
      · exact .inl ⟨_,rfl,deliverBufferedBatch_poll h hn⟩
      · split
        · have hf := flushPendingSourceEvents_poll h hn
          split
          · rename_i rt₂ e heq
            rw [heq] at hf
            exact .inl ⟨_,rfl,hf⟩
          · rename_i rt₂ batch heq
            rw [heq] at hf
            split_ifs with he
            · obtain ⟨hb,hbu,hn₂⟩ := hf.of_isEmpty h hn he
              exact .inr ⟨rfl,hb,hbu,trivial,hn₂⟩
            · exact .inl ⟨_,rfl,hf⟩
        · exact .inr ⟨rfl,h,.refl _,trivial,hn⟩

/-- A poll keeps the bookkeeping balanced whatever its environment answers, and either repeats
the in-flight batch, delivers a new one under the next id, or delivers nothing. -/
theorem pollEventBatch_poll (h : rt.core.Balanced) (hr : rt.pollEventBatch as = some re) : Poll rt.core re.1.core re.2 := by
  have hq := pollQueues_poll h as.confirm
  unfold pollEventBatch at hr
  generalize rt.pollQueues as.confirm = queues at hq hr
  obtain ⟨rt₁,served⟩ := queues
  rcases hq with ⟨r,hs,hp⟩ | ⟨hs,hb,hbu,hn,hn₁⟩ <;>
    simp only at hs <;> subst hs
  · cases hr
    exact hp
  · exact Poll.of_buffered hbu hn (pollSources_poll hb hn₁ hr)
end
end Rustcdc.CdcRuntime
