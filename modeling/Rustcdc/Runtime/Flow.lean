import Rustcdc.Runtime.Settle

/-! Where a poll's events go.  The runtime holds them in flight, buffered or queued, in that
order; a poll whose stages succeed and whose cut can be admitted appends to that sequence and
takes nothing out of it. -/
namespace Rustcdc
open List
namespace EventIdempotencyGuard
/-- Events of a batch the guard does not suppress; one it cannot fingerprint counts as new. -/
def unsuppressed (hash : FingerprintImage → UInt64) (now : UInt64) : EventIdempotencyGuard → List Event → List Event
  | _, [] => []
  | g, e::es =>
    match g.shouldProcess hash now e with
    | (g,.ok false) => unsuppressed hash now g es
    | (g,_) => e::unsuppressed hash now g es

/-- The guard can decide about every event it has to look at. -/
def canFingerprint (hash : FingerprintImage → UInt64) (e : Event) : Bool :=
  !eventIsIdentifiable e || (fingerprintEventTransient hash e).isOk

variable {ha : FingerprintImage → UInt64}

lemma shouldProcess_isOk {e : Event} (h : canFingerprint ha e = true) (now : UInt64) (g : EventIdempotencyGuard) :
    ∃ g' admitted, g.shouldProcess ha now e = (g',.ok admitted) := by
  unfold shouldProcess
  dsimp only
  split_ifs with hi
  · exact ⟨_,_,rfl⟩
  · split
    · rename_i error he
      simp [canFingerprint,he,Except.isOk,Except.toBool] at h hi
      simp [h] at hi
    · split <;> exact ⟨_,_,rfl⟩

lemma filterEvents_ok {ev : List Event} (h : ev.all (canFingerprint ha) = true)
    (now : UInt64) (g : EventIdempotencyGuard) :
    (g.filterEvents ha now ev).2 = .ok (g.unsuppressed ha now ev) := by
  induction ev generalizing g with
  | nil => rfl
  | cons e es ih =>
    rw [all_cons,Bool.and_eq_true] at h
    obtain ⟨g',admitted,he⟩ := shouldProcess_isOk h.1 now g
    have hr := ih h.2 g'
    rw [filterEvents,unsuppressed,he]
    dsimp only
    generalize filterEvents ha now g' es = filtered at hr
    obtain ⟨g'',re⟩ := filtered
    simp only at hr
    subst hr
    cases admitted <;> rfl
end EventIdempotencyGuard
namespace CdcRuntime
lemma cutLen_le (k : Option ℕ) (bs : ℕ) (f : Bool) (room : ℕ) (ev : List Event) :
    cutLen k bs f room ev ≤ room ∧ cutLen k bs f room ev ≤ ev.length := by
  induction room generalizing bs f ev with
  | zero => simp [cutLen]
  | succ room ih =>
    cases ev with
    | nil => simp [cutLen]
    | cons e es =>
      cases k with
      | none =>
        have h := ih bs false es
        simp only [cutLen,length_cons]
        omega
      | some =>
        have h := ih (bs+e.estimateEventBytes) false es
        simp only [cutLen,length_cons]
        split <;> omega

lemma cutLen_pos (k : Option ℕ) {room : ℕ} (hr : 0 < room) {events : List Event}
    (hn : events ≠ []) : 0 < cutLen k 0 true room events := by
  obtain ⟨room,rfl⟩ : ∃ n, room = n+1 := ⟨room-1,by omega⟩
  cases events with
  | nil => exact absurd rfl hn
  | cons => cases k <;> simp [cutLen]

lemma trimLen_le (options : RuntimeOptions) (ck re : List Event) : trimLen options ck re ≤ ck.length := by
  unfold trimLen
  split
  · exact le_refl _
  · split
    · exact le_refl _
    · dsimp only
      split_ifs
      · exact le_refl _
      · exact le_refl _
      · exact le_refl _
      · exact Nat.sub_le _ _

variable {S H : Type} [StreamHandle H]
section
variable (rt : CdcRuntime S H)

/-- The events in the runtime, oldest first: in flight, buffered, queued. -/
def held : List Event := rt.uncommittedEvents++(rt.bufferedEvents++rt.pendingSourceEvents)

/-- All events in the runtime: those held, and the injected ones behind them. -/
def queues : List Event × List Event := (rt.held,rt.injectedEvents)

/-- The event passes the checks made when it enters the barrier. -/
def admissible (event : Event) : Bool :=
  (if rt.config.options.validateEvents then event.validateOrError else .ok ()).isOk && (rt.recordOffset event).isOk

/-- The barrier record an admissible event leaves. -/
def recordFor (event : Event) : PendingRecord Offset := ⟨(rt.recordOffset event).toOption.getD none,false⟩

/-- The runtime with more events in its buffer and one record for each in its barrier. -/
def withBuffered (events : List Event) : CdcRuntime S H := {rt with
    commitBarrier := {rt.commitBarrier with
      barrierState := if events.isEmpty then rt.commitBarrier.barrierState else .opened
      pendingRecords := rt.commitBarrier.pendingRecords++events.map rt.recordFor}
    bufferedEvents := rt.bufferedEvents++events}
end
@[simp] lemma withBuffered_nil (rt : CdcRuntime S H) : rt.withBuffered [] = rt := by
  simp [withBuffered]

lemma withBuffered_cons (rt : CdcRuntime S H) (e : Event) (es : List Event) :
    (rt.withBuffered [e]).withBuffered es = rt.withBuffered (e::es) := by
  have hr : (rt.withBuffered [e]).recordFor = rt.recordFor := rfl
  rw [withBuffered,hr]
  cases es <;> simp [withBuffered]

variable {rt : CdcRuntime S H}

lemma bufferEvent_eq {e : Event} (h : rt.admissible e = true) (hop : rt.commitBarrier.barrierState ≠ .flushing)
    (hr : rt.commitBarrier.pendingRecords.length < rt.commitBarrier.maxBufferSize) :
    rt.bufferEvent e = (rt.withBuffered [e],.ok ()) := by
  rw [admissible,Bool.and_eq_true] at h
  obtain ⟨hva,hof⟩ := h
  cases hv : if rt.config.options.validateEvents then e.validateOrError else .ok () with
  | error =>
    rw [hv] at hva
    exact absurd hva (by simp [Except.isOk,Except.toBool])
  | ok =>
    cases ho : rt.recordOffset e with
    | error =>
      rw [ho] at hof
      exact absurd hof (by simp [Except.isOk,Except.toBool])
    | ok =>
      have hf : ¬ rt.commitBarrier.maxBufferSize ≤ rt.commitBarrier.pendingRecords.length := by
        omega
      simp [bufferEvent,hv,ho,CommitBarrier.pushRecord,hop,hf,withBuffered,recordFor,Except.toOption]

lemma bufferEvents_eq {ev : List Event} (h : ev.all rt.admissible = true)
    (ho : rt.commitBarrier.barrierState ≠ .flushing)
    (hr : rt.commitBarrier.pendingRecords.length+ev.length ≤ rt.commitBarrier.maxBufferSize) :
    rt.bufferEvents ev = (rt.withBuffered ev,.ok ()) := by
  induction ev generalizing rt with
  | nil => simp [bufferEvents]
  | cons e es ih =>
    rw [all_cons,Bool.and_eq_true] at h
    simp only [length_cons] at hr
    rw [bufferEvents,bufferEvent_eq h.1 ho (by omega)]
    have hre : es.all (rt.withBuffered [e]).admissible = true := h.2
    have hon : (rt.withBuffered [e]).commitBarrier.pendingRecords.length =
        rt.commitBarrier.pendingRecords.length+1 := by
      simp [withBuffered]
    have hr' : (rt.withBuffered [e]).commitBarrier.pendingRecords.length+es.length ≤
        (rt.withBuffered [e]).commitBarrier.maxBufferSize := by
      rw [hon,show (rt.withBuffered [e]).commitBarrier.maxBufferSize = rt.commitBarrier.maxBufferSize from rfl]
      omega
    dsimp only
    rw [ih hre (by simp [withBuffered]) hr',withBuffered_cons]
section
variable (rt : CdcRuntime S H)

/-- The length of the next cut of the queue. -/
def flushLen : ℕ :=
  let cut := cutLen rt.config.options.maxEventBytes 0 true
    (rt.config.options.maxBufferSize-rt.commitBarrier.pendingCount) rt.pendingSourceEvents
  trimLen rt.config.options (rt.pendingSourceEvents.take cut) (rt.pendingSourceEvents.drop cut)

omit [StreamHandle H] in
lemma flushLen_le : rt.flushLen ≤ rt.config.options.maxBufferSize-rt.commitBarrier.pendingCount ∧
      rt.flushLen ≤ rt.pendingSourceEvents.length := by
  have hc := cutLen_le rt.config.options.maxEventBytes 0 true
    (rt.config.options.maxBufferSize-rt.commitBarrier.pendingCount) rt.pendingSourceEvents
  unfold flushLen
  dsimp only
  generalize cutLen _ _ _ _ _ = cut at hc ⊢
  have ht := trimLen_le rt.config.options (rt.pendingSourceEvents.take cut) (rt.pendingSourceEvents.drop cut)
  rw [length_take] at ht
  omega

/-- The events the next flush moves to the buffer. -/
def flushChunk : List Event := rt.pendingSourceEvents.take rt.flushLen

/-- The runtime with the next cut moved from the queue to the buffer. -/
def flushed : CdcRuntime S H := ({rt with pendingSourceEvents := rt.pendingSourceEvents.drop rt.flushLen} :
    CdcRuntime S H).withBuffered rt.flushChunk
end
/-- A flush of an admissible cut reports a full barrier or an empty queue with nothing changed,
or moves the cut to the buffer and delivers. -/
theorem flushPendingSourceEvents_cases (h : rt.core.Balanced) (hs : rt.flushChunk.all rt.admissible = true) :
    (rt.pendingSourceEvents = [] ∧ rt.flushPendingSourceEvents = (rt,.ok .empty)) ∨
    (rt.config.options.maxBufferSize ≤ rt.commitBarrier.pendingCount ∧
      ∃ e, rt.flushPendingSourceEvents = (rt,.error e)) ∨
    rt.pendingSourceEvents ≠ [] ∧ rt.commitBarrier.pendingCount < rt.config.options.maxBufferSize ∧
      rt.flushPendingSourceEvents = (rt.flushed.deliverBufferedBatch.1,.ok rt.flushed.deliverBufferedBatch.2) := by
  unfold flushPendingSourceEvents
  by_cases he : rt.pendingSourceEvents = []
  · rw [if_pos (by simpa using he)]
    exact .inl ⟨he,rfl⟩
  · rw [if_neg (by simpa using he)]
    dsimp only
    by_cases hf : rt.config.options.maxBufferSize-rt.commitBarrier.pendingCount = 0
    · rw [if_pos hf]
      exact .inr (.inl ⟨by omega,_,rfl⟩)
    · rw [if_neg hf]
      refine .inr (.inr ⟨he,by omega,?_⟩)
      have hl := rt.flushLen_le
      have hca : rt.commitBarrier.maxBufferSize = rt.config.options.maxBufferSize := h.capacity
      have hb : ({rt with pendingSourceEvents := rt.pendingSourceEvents.drop rt.flushLen} :
          CdcRuntime S H).bufferEvents rt.flushChunk = (rt.flushed,.ok ()) := by
        refine bufferEvents_eq hs h.open_ ?_
        have hc : rt.commitBarrier.pendingCount = rt.commitBarrier.pendingRecords.length := rfl
        simp only [flushChunk,length_take]
        omega
      unfold flushChunk flushLen at hb
      rw [hb]

lemma flushed_held (rt : CdcRuntime S H) : rt.flushed.held = rt.held := by
  simp [held,flushed,withBuffered,flushChunk,uncommittedEvents]

variable {rt' : CdcRuntime S H} {r : CdcRuntime S H × Except Error EventBatch} {confirm : Except Error Unit}

omit [StreamHandle H] in
lemma held_durable {n : ℕ} (hc : rt'.core = rt.core.advance n) (hr : rt'.remainder = rt.remainder) :
    rt.held = rt.commitWindow n++rt'.held := by
  have hb : rt'.bufferedEvents = rt.bufferedEvents := congrArg DeliveryCore.bufferedEvents hc
  have hq : rt'.pendingSourceEvents = rt.pendingSourceEvents := congrArg Remainder.pendingSourceEvents hr
  rw [held,held,commitWindow,uncommittedEvents_advance hc,hb,hq,← append_assoc (List.take _ _),take_append_drop]

omit [StreamHandle H] in
lemma deliverBufferedBatch_held (hn : rt.pendingDelivery = none) : rt.deliverBufferedBatch.1.held = rt.held := by
  unfold deliverBufferedBatch
  dsimp only
  split_ifs with he
  · rw [List.isEmpty_iff] at he
    have hs := List.take_append_drop rt.config.options.maxBufferSize rt.bufferedEvents
    rw [he,List.nil_append] at hs
    simp [held,uncommittedEvents,hs]
  · simp only [held,uncommittedEvents,hn,PendingDelivery.remaining,List.drop_zero,List.nil_append]
    rw [← List.append_assoc,List.take_append_drop]

omit [StreamHandle H] in
lemma deliverBufferedBatch_queues (hn : rt.pendingDelivery = none) :
    rt.deliverBufferedBatch.1.queues = rt.queues := by
  refine Prod.ext (deliverBufferedBatch_held hn) ?_
  unfold deliverBufferedBatch
  dsimp only
  split_ifs <;> rfl

lemma flushPendingSourceEvents_queues (h : rt.core.Balanced) (hn : rt.pendingDelivery = none)
    (hs : rt.flushChunk.all rt.admissible = true) :
    rt.flushPendingSourceEvents.1.queues = rt.queues := by
  rcases flushPendingSourceEvents_cases h hs with ⟨_,he⟩ | ⟨_,e,he⟩ | ⟨_,_,he⟩ <;> rw [he]
  have hn' : rt.flushed.pendingDelivery = none := hn
  rw [deliverBufferedBatch_queues hn',queues,flushed_held]
  rfl

omit [StreamHandle H] in
lemma deliverBufferedBatch_visible (hne : rt.bufferedEvents ≠ []) : rt.deliverBufferedBatch.2.visible ≠ [] ∧
      rt.deliverBufferedBatch.2.visible <+: rt.bufferedEvents := by
  have ht : rt.bufferedEvents.take rt.config.options.maxBufferSize ≠ [] := by
    have hp := rt.config.options.bufferPos
    intro hn
    rcases take_eq_nil_iff.mp hn with h | h
    · omega
    · exact hne h
  unfold deliverBufferedBatch
  rw [if_neg (by simpa using ht)]
  simp only [EventBatch.visible,drop_zero]
  exact ⟨ht, take_prefix _ _⟩

omit [StreamHandle H] in
lemma deliverBufferedBatch_nil (h : rt.bufferedEvents = []) : rt.deliverBufferedBatch = (rt,.empty) := by
  unfold deliverBufferedBatch
  rw [h]
  simp only [take_nil,drop_nil,isEmpty_nil,if_true]
  rw [← h]

omit [StreamHandle H] in
lemma deliverBufferedBatch_inFlight (hn : rt.bufferedEvents ≠ []) :
    rt.deliverBufferedBatch.1.pendingDelivery = some ⟨rt.nextDeliveryId,
      rt.bufferedEvents.take rt.config.options.maxBufferSize,0,0⟩ := by
  have hp := rt.config.options.bufferPos
  have ht : (rt.bufferedEvents.take rt.config.options.maxBufferSize).isEmpty = false := by
    rw [isEmpty_eq_false_iff,ne_eq,take_eq_nil_iff]
    exact not_or.mpr ⟨by omega,hn⟩
  simp [deliverBufferedBatch,ht]

omit [StreamHandle H] in
lemma deliverBufferedBatch_whole (hn : rt.bufferedEvents ≠ [])
    (hf : rt.bufferedEvents.length ≤ rt.config.options.maxBufferSize) :
    rt.deliverBufferedBatch.2.visible = rt.bufferedEvents ∧ rt.deliverBufferedBatch.1.bufferedEvents = [] ∧
      rt.deliverBufferedBatch.1.pendingSourceEvents = rt.pendingSourceEvents := by
  simp [deliverBufferedBatch,take_of_length_le hf,drop_of_length_le hf,hn,EventBatch.visible]

/-- Nothing is in flight and nothing buffered: the next events come from the queue. -/
structure Idle (rt : CdcRuntime S H) : Prop where
  noDelivery : rt.pendingDelivery = none
  noBuffered : rt.bufferedEvents = []

lemma flushed_eq_self (h : rt.flushChunk = []) : rt.flushed = rt := by
  have hd : rt.pendingSourceEvents.drop rt.flushLen = rt.pendingSourceEvents := by
    have hs := take_append_drop rt.flushLen rt.pendingSourceEvents
    rwa [show rt.pendingSourceEvents.take rt.flushLen = [] from h,nil_append] at hs
  rw [flushed,hd,h,withBuffered_nil]

omit [StreamHandle H] in
lemma Idle.of_core (h : rt.Idle) (hc : rt'.core = rt.core) : rt'.Idle :=
  ⟨(congrArg DeliveryCore.pendingDelivery hc).trans h.noDelivery,
    (congrArg DeliveryCore.bufferedEvents hc).trans h.noBuffered⟩

omit [StreamHandle H] in
lemma flushLen_pos (hs : rt.config.options.transactionBoundary = .split)
    (hr : rt.commitBarrier.pendingCount < rt.config.options.maxBufferSize)
    (hn : rt.pendingSourceEvents ≠ []) : 0 < rt.flushLen := by
  have hc := cutLen_pos rt.config.options.maxEventBytes (Nat.sub_pos_of_lt hr) hn
  have hl := length_pos_iff.mpr hn
  simp only [flushLen,trimLen,hs,length_take]
  omega

omit [StreamHandle H] in
lemma Idle.pendingCount (h : rt.Idle) (hb : rt.core.Balanced) : rt.commitBarrier.pendingCount = 0 := by
  have hr := hb.records
  simp only [core,DeliveryCore.uncommitted,h.noDelivery,h.noBuffered,length_nil] at hr
  exact hr

lemma flushPendingSourceEvents_delivers (hb : rt.core.Balanced) (hi : rt.Idle)
    (hp : 0 < rt.flushLen) (hs : rt.flushChunk.all rt.admissible = true) :
    ∃ rt' b, rt.flushPendingSourceEvents = (rt',.ok b) ∧ b.visible ≠ [] ∧
      b.visible = rt.flushChunk ∧ rt'.bufferedEvents = [] ∧
      rt'.pendingSourceEvents = rt.pendingSourceEvents.drop rt.flushLen := by
  have hco := hi.pendingCount hb
  have hbu := rt.config.options.bufferPos
  obtain ⟨hro,hl⟩ := rt.flushLen_le
  rcases flushPendingSourceEvents_cases hb hs with ⟨hn,_⟩ | ⟨hfu,_⟩ | ⟨_,_,heq⟩
  · rw [hn,length_nil] at hl
    omega
  · omega
  · have hf : rt.flushed.bufferedEvents = rt.flushChunk := by
      change rt.bufferedEvents++rt.flushChunk = rt.flushChunk
      rw [hi.noBuffered,nil_append]
    have hc : rt.flushChunk.length = rt.flushLen := by
      rw [flushChunk,length_take]
      omega
    have hne : rt.flushChunk ≠ [] := ne_nil_of_length_pos (hc ▸ hp)
    have hfi : rt.flushed.bufferedEvents.length ≤ rt.flushed.config.options.maxBufferSize := by
      change rt.flushed.bufferedEvents.length ≤ rt.config.options.maxBufferSize
      rw [hf]
      omega
    obtain ⟨hv,he,hr⟩ := deliverBufferedBatch_whole (hf ▸ hne) hfi
    rw [hf] at hv
    exact ⟨_,_,heq,hv ▸ hne,hv,he,hr⟩
section
variable (rt : CdcRuntime S H)

/-- What no poll changes. -/
def setup : RuntimeConfig × RuntimeState × Checkpoint Offset := (rt.config,rt.state,rt.checkpoint)

lemma bufferEvents_setup (ev : List Event) : (rt.bufferEvents ev).1.setup = rt.setup := by
  induction ev generalizing rt with
  | nil => rfl
  | cons e es ih =>
    rw [bufferEvents]
    rcases rt.bufferEvent_cases e with ⟨er,he⟩ | ⟨o,_,_,_,he⟩ <;> rw [he]
    exact ih _

omit [StreamHandle H] in
lemma deliverBufferedBatch_setup : rt.deliverBufferedBatch.1.setup = rt.setup := by
  unfold deliverBufferedBatch
  dsimp only
  split <;> rfl

lemma flushPendingSourceEvents_setup : rt.flushPendingSourceEvents.1.setup = rt.setup := by
  unfold flushPendingSourceEvents
  split
  · rfl
  · dsimp only
    split
    · rfl
    · have hb := bufferEvents_setup
        ({rt with pendingSourceEvents := rt.pendingSourceEvents.drop rt.flushLen} : CdcRuntime S H)
        rt.flushChunk
      unfold flushChunk flushLen at hb
      split <;> rename_i he <;> rw [he] at hb
      · exact hb
      · exact (deliverBufferedBatch_setup _).trans hb

lemma ingest_setup (now : UInt64) (schemaHistory : Event → Option SchemaRecord) (es : List Event) :
    (rt.ingest now schemaHistory es).1.setup = rt.setup := by
  obtain ⟨_,_,hf⟩ := rt.stages_frame now schemaHistory es
  unfold ingest
  split <;> rename_i he <;> rw [he] at hf <;> simp only at hf <;> subst hf
  · rfl
  · exact flushPendingSourceEvents_setup _

variable [SnapshotHandle S]
omit [SnapshotHandle S] in
lemma pollQueues_setup (confirm : Except Error Unit) : (rt.pollQueues confirm).1.setup = rt.setup := by
  unfold pollQueues
  split
  · rfl
  · split
    · rfl
    · obtain ⟨_,_,_,hf⟩ := rt.retryPendingConfirmation_frame confirm
      have hs : (rt.retryPendingConfirmation confirm).setup = rt.setup := by rw [hf]; rfl
      generalize rt.retryPendingConfirmation confirm = rt₁ at hs ⊢
      dsimp only
      split
      · exact (deliverBufferedBatch_setup rt₁).trans hs
      · have hflush := flushPendingSourceEvents_setup rt₁
        split
        · split <;> rename_i he <;> rw [he] at hflush <;> exact hflush.trans hs
        · exact hs
end
lemma pollEventBatch_setup [SnapshotHandle S] [Handoff S H] {as : PollAnswers S H}
    (hr : rt.pollEventBatch as = some r) : r.1.setup = rt.setup := by
  have hq := rt.pollQueues_setup as.confirm
  unfold pollEventBatch at hr
  split at hr <;> rename_i he <;> rw [he] at hq
  · cases hr
    exact hq
  · unfold pollSources at hr
    split at hr
    · cases hr
    all_goals
      rename_i hre
      obtain ⟨_,_,_,_,hf⟩ := receive_frame hre
      simp only at hf
      subst hf
      cases hr
    · exact hq
    · exact hq
    · exact (ingest_setup _ _ _ _).trans hq

/-- What the guard leaves of a batch. -/
def unsuppressed (rt : CdcRuntime S H) (now : UInt64) (events : List Event) : List Event :=
  match rt.idempotencyGuard with
  | none => events
  | some guard => guard.unsuppressed rt.config.hash now events

/-- The guard, if there is one, can decide about the event. -/
def canFingerprint (rt : CdcRuntime S H) (e : Event) : Bool :=
  rt.idempotencyGuard.isNone || EventIdempotencyGuard.canFingerprint rt.config.hash e

variable {es : List Event}
omit [StreamHandle H] in
/-- The guard passes on what it does not suppress, or gives up on a batch it suppresses whole. -/
theorem filterIdempotentEvents_cases (h : es.all rt.canFingerprint = true) (now : UInt64) :
    (rt.filterIdempotentEvents now es).2 = .ok (rt.unsuppressed now es) ∨
    rt.unsuppressed now es = [] ∧ ∃ e, (rt.filterIdempotentEvents now es).2 = .error e := by
  unfold filterIdempotentEvents unsuppressed
  cases hg : rt.idempotencyGuard with
  | none => exact .inl rfl
  | some g =>
    have ha : es.all (EventIdempotencyGuard.canFingerprint rt.config.hash) = true := by
      simpa [canFingerprint,hg] using h
    have hf := EventIdempotencyGuard.filterEvents_ok ha now g
    dsimp only
    generalize g.filterEvents rt.config.hash now es = filtered at hf
    obtain ⟨g',out⟩ := filtered
    simp only at hf
    subst hf
    dsimp only
    split
    · split_ifs with hn
      · simp only [Bool.and_eq_true,List.isEmpty_iff] at hn
        exact .inr ⟨hn.2,_,rfl⟩
      all_goals exact .inl rfl
    · split_ifs <;> exact .inl rfl

variable [SnapshotHandle S] [Handoff S H]

/-- The batch a poll receives, with the runtime that receives it. -/
def arrival (rt : CdcRuntime S H) (answers : PollAnswers S H) : Option (CdcRuntime S H × List Event) :=
  match rt.pollQueues answers.confirm with
  | (_,some _) => none
  | (rt,none) =>
    match rt.receive answers with
    | some (rt,.ok (e::es)) => some (rt,e::es)
    | _ => none

lemma arrival_receive {rt₂ : CdcRuntime S H} {as : PollAnswers S H} (ha : rt.arrival as = some (rt₂,es)) :
    ∃ rt₁, rt.pollQueues as.confirm = (rt₁,none) ∧ rt₁.receive as = some (rt₂,.ok es) := by
  unfold arrival at ha
  split at ha
  · cases ha
  · rename_i rt₁ hq
    split at ha
    · rename_i hr
      cases ha
      exact ⟨rt₁,hq,hr⟩
    · cases ha
section
variable (rt : CdcRuntime S H)

/-- What the guard and the transforms make of a batch. -/
def passed (now : UInt64) (events : List Event) : Except Error (List Event) :=
  rt.applyTransforms (rt.unsuppressed now events)

/-- A received batch gets through: its schema changes are recorded, its events fingerprinted and
transformed, and the cut it is delivered in can be admitted. -/
def batchSafe (answers : PollAnswers S H) (events : List Event) : Bool :=
  (recordSchemaChangeEvents answers.schemaHistory events).isOk && events.all rt.canFingerprint &&
    match rt.passed answers.now events with
    | .error _ => false
    | .ok transformed =>
      ({rt with pendingSourceEvents := rt.pendingSourceEvents++transformed} :
        CdcRuntime S H).flushChunk.all rt.admissible

/-- A poll can admit the cut it takes from the queue. -/
def queueSafe (confirm : Except Error Unit) : Bool := rt.pendingDelivery.isSome || !rt.bufferedEvents.isEmpty ||
    (rt.retryPendingConfirmation confirm).flushChunk.all (rt.retryPendingConfirmation confirm).admissible

variable (answers : PollAnswers S H)

/-- Nothing on the way from the source to the buffer fails in this poll. -/
def pollSafe : Bool := rt.queueSafe answers.confirm &&
    match rt.arrival answers with
    | none => true
    | some (rt,events) => rt.batchSafe answers events

def admitted : List Event :=
  match rt.arrival answers with
  | none => []
  | some (rt,events) => (rt.passed answers.now events).toOption.getD []

omit [StreamHandle H] [SnapshotHandle S] [Handoff S H] in
lemma applyTransforms_nil : rt.applyTransforms [] = .ok [] := by
  simp [applyTransforms]

/-- A batch queued behind what is already there. -/
def queued (guard : Option EventIdempotencyGuard) (polls : ℕ) (events : List Event) : CdcRuntime S H :=
  {rt with
    idempotencyGuard := guard
    unconfirmedStallPolls := polls
    pendingSourceEvents := rt.pendingSourceEvents++events}
end
lemma ingest_cases {as : PollAnswers S H} (hsa : rt.batchSafe as es = true) :
    ∃ g ps transformed, rt.passed as.now es = .ok transformed ∧
      (rt.queued g ps transformed).flushChunk.all (rt.queued g ps transformed).admissible = true ∧
      ((rt.ingest as.now as.schemaHistory es).1 = (rt.queued g ps transformed).flushPendingSourceEvents.1 ∨
        (rt.ingest as.now as.schemaHistory es).1 = rt.queued g ps transformed) := by
  simp only [batchSafe,Bool.and_eq_true] at hsa
  obtain ⟨⟨hs,hfi⟩,hc⟩ := hsa
  obtain ⟨⟨⟩,hs⟩ := isOk_eq_true hs
  obtain ⟨g,ps,hfr⟩ := rt.filterIdempotentEvents_frame as.now es
  have hf := filterIdempotentEvents_cases hfi as.now
  unfold ingest stages
  rw [hs]
  generalize rt.filterIdempotentEvents as.now es = filtered at hfr hf ⊢
  obtain ⟨rt₁,out⟩ := filtered
  simp only at hfr hf
  subst hfr
  cases hp : rt.passed as.now es with
  | error => simp [hp] at hc
  | ok transformed =>
    rw [hp] at hc
    refine ⟨g,ps,transformed,rfl,hc,?_⟩
    rcases hf with rfl | ⟨hst,e,rfl⟩
    · have ht : ({rt with idempotencyGuard := g, unconfirmedStallPolls := ps} :
          CdcRuntime S H).applyTransforms (rt.unsuppressed as.now es) =
          .ok transformed := hp
      dsimp only
      rw [ht]
      exact .inl rfl
    · rw [passed,hst,applyTransforms_nil] at hp
      cases hp
      exact .inr (by simp [queued])

omit [StreamHandle H] [SnapshotHandle S] [Handoff S H] in
lemma queued_held (rt : CdcRuntime S H) (g : Option EventIdempotencyGuard) (ps : ℕ)
    (events : List Event) : (rt.queued g ps events).held = rt.held++events := by
  simp [held,queued,uncommittedEvents]

lemma ingest_queues (h : rt.core.Balanced) (hn : rt.pendingDelivery = none)
    {as : PollAnswers S H} (hs : rt.batchSafe as es = true) :
    (rt.ingest as.now as.schemaHistory es).1.queues =
      (rt.held++(rt.passed as.now es).toOption.getD [],rt.injectedEvents) := by
  obtain ⟨g,ps,tr,hp,hc,hflush | hw⟩ := ingest_cases hs
  · have hb : (rt.queued g ps tr).core.Balanced := h
    rw [hflush,flushPendingSourceEvents_queues hb hn hc,queues,queued_held,hp]
    rfl
  · rw [hw,queues,queued_held,hp]
    rfl

omit [SnapshotHandle S] [Handoff S H] in
lemma retryPendingConfirmation_queues (rt : CdcRuntime S H) (confirm : Except Error Unit) :
    (rt.retryPendingConfirmation confirm).queues = rt.queues := by
  obtain ⟨_,_,_,hf⟩ := rt.retryPendingConfirmation_frame confirm
  rw [hf]
  rfl

lemma receive_held {as : PollAnswers S H}
    {r : CdcRuntime S H × Except Error (List Event)} (hr : rt.receive as = some r) : r.1.held = rt.held := by
  obtain ⟨_,_,_,_,hf⟩ := receive_frame hr
  rw [hf]
  rfl

omit [SnapshotHandle S] [Handoff S H] in
lemma flushPendingSourceEvents_empty {b : EventBatch} (hb : rt.bufferedEvents = [])
    (hf : rt.flushPendingSourceEvents = (rt',.ok b)) (he : b.isEmpty = true) : rt'.bufferedEvents = [] := by
  unfold flushPendingSourceEvents at hf
  dsimp only at hf
  split at hf
  · cases hf
    exact hb
  · split at hf
    · cases hf
    · split at hf
      · cases hf
      · rename_i rt₁ _
        cases hf
        by_cases hm : rt₁.bufferedEvents = []
        · rw [deliverBufferedBatch_nil hm]
          exact hm
        · have hv := (deliverBufferedBatch_visible hm).1
          simp [EventBatch.isEmpty,hv] at he

omit [SnapshotHandle S] [Handoff S H] in
lemma pollQueues_idle {rt₁ : CdcRuntime S H} (hb : rt.core.Balanced) (hq : rt.pollQueues confirm = (rt₁,none)) :
    rt₁.Idle := by
  have hp := pollQueues_poll hb confirm
  rw [hq] at hp
  rcases hp with ⟨_,hs,_⟩ | ⟨_,_,_,_,hn⟩
  · cases hs
  refine ⟨hn,?_⟩
  unfold pollQueues at hq
  dsimp only at hq
  split at hq
  · cases hq
  · split at hq
    · cases hq
    · split at hq
      · cases hq
      · rename_i he
        have hbu : (rt.retryPendingConfirmation confirm).bufferedEvents = [] := by simpa using he
        split at hq
        · split at hq
          · cases hq
          · rename_i heq
            obtain ⟨rfl,hi⟩ := Prod.mk.inj hq
            exact flushPendingSourceEvents_empty hbu heq (by simpa using hi)
        · cases hq
          exact hbu
section
variable {I : CdcRuntime S H → Prop} (hretry : ∀ rt confirm, I rt → I (rt.retryPendingConfirmation confirm))
  (hd : ∀ rt, I rt → rt.pendingDelivery = none → I rt.deliverBufferedBatch.1)
  (hfl : ∀ rt, I rt → rt.Idle → rt.flushChunk.all rt.admissible = true → I rt.flushed)
include hd hfl
variable {rt : CdcRuntime S H}

omit [SnapshotHandle S] [Handoff S H] in
lemma flushPendingSourceEvents_rule (hb : rt.core.Balanced) (h : I rt) (hi : rt.Idle)
    (hs : rt.flushChunk.all rt.admissible = true) :
    I rt.flushPendingSourceEvents.1 := by
  rcases flushPendingSourceEvents_cases hb hs with ⟨_,he⟩ | ⟨_,e,he⟩ | ⟨_,_,he⟩ <;> rw [he]
  · exact h
  · exact h
  · exact hd _ (hfl rt h hi hs) hi.noDelivery

include hretry

omit [SnapshotHandle S] [Handoff S H] in
lemma pollQueues_rule (hb : rt.core.Balanced) (h : I rt) {confirm : Except Error Unit}
    (hs : rt.queueSafe confirm = true) :
    I (rt.pollQueues confirm).1 := by
  have hco := rt.retryPendingConfirmation_core confirm
  have hr := hretry rt confirm h
  unfold pollQueues
  split
  · exact h
  · cases hp : rt.pendingDelivery with
    | some => simpa [currentPendingBatch,hp] using h
    | none =>
      simp only [currentPendingBatch,hp,Option.map_none]
      simp only [queueSafe,hp,Option.isSome_none,Bool.false_or,Bool.or_eq_true,Bool.not_eq_true'] at hs
      rw [show rt.bufferedEvents = (rt.retryPendingConfirmation confirm).bufferedEvents from
        (congrArg DeliveryCore.bufferedEvents hco).symm] at hs
      generalize rt.retryPendingConfirmation confirm = rt₁ at hco hr hs ⊢
      have hn : rt₁.pendingDelivery = none := (congrArg DeliveryCore.pendingDelivery hco).trans hp
      split
      · exact hd rt₁ hr hn
      · rename_i he
        have hc : rt₁.flushChunk.all rt₁.admissible = true := by
          rcases hs with hs | hs
          · simp [hs] at he
          · exact hs
        have hf := flushPendingSourceEvents_rule hd hfl (hco ▸ hb) hr ⟨hn,by simpa using he⟩ hc
        split
        · split <;> rename_i heq <;> rw [heq] at hf <;> exact hf
        · exact hr

/-- The invariant rule for a safe poll: what the retried confirmation, the receipt of a batch,
its queueing, the flush and the delivery each keep is kept by the poll. -/
theorem pollEventBatch_rule (hb : rt.core.Balanced) (h : I rt) {as : PollAnswers S H} (hsa : rt.pollSafe as = true)
    (hre : ∀ rt₁ rt₂ rc, I rt₁ → rt.pollQueues as.confirm = (rt₁,none) → rt₁.receive as = some (rt₂,rc) → I rt₂)
    (hqu : ∀ rt₂ ev g ps tr, I rt₂ → rt.arrival as = some (rt₂,ev) → rt₂.passed as.now ev = .ok tr →
      I (rt₂.queued g ps tr)) {r : CdcRuntime S H × Except Error EventBatch}
    (hres : rt.pollEventBatch as = some r) : I r.1 := by
  rw [pollSafe,Bool.and_eq_true] at hsa
  obtain ⟨hque,hba⟩ := hsa
  have hq := pollQueues_rule hretry hd hfl hb h hque
  have hpo := pollQueues_poll hb as.confirm
  have hi := fun rt₁ (hq : rt.pollQueues as.confirm = (rt₁,none)) => pollQueues_idle hb hq
  unfold pollEventBatch at hres
  unfold arrival at hba hqu
  generalize rt.pollQueues as.confirm = queues at hq hpo hi hres hba hre hqu
  obtain ⟨rt₁,served⟩ := queues
  cases served with
  | some =>
    cases hres
    exact hq
  | none =>
    have hbal : rt₁.core.Balanced := by
      rcases hpo with ⟨_,hs,_⟩ | ⟨_,hbal,_⟩
      · cases hs
      · exact hbal
    simp only at hq hres hba hqu
    unfold pollSources at hres
    cases hrec : rt₁.receive as with
    | none => simp [hrec] at hres
    | some ar =>
      obtain ⟨rt₂,b⟩ := ar
      have hr := hre rt₁ rt₂ b hq rfl hrec
      have hco₂ : rt₂.core = rt₁.core := receive_core hrec
      have hi₂ : rt₂.Idle := (hi rt₁ rfl).of_core hco₂
      rw [hrec] at hres hba hqu
      cases b with
      | error =>
        cases hres
        exact hr
      | ok ev =>
        cases ev with
        | nil =>
          cases hres
          exact hr
        | cons e es =>
          cases hres
          obtain ⟨g,ps,tr,hp,hc,hca⟩ := ingest_cases hba
          have hqueued := hqu rt₂ (e::es) g ps tr hr rfl hp
          rcases hca with hca | hca <;> rw [hca]
          · have hbalanced : (rt₂.queued g ps tr).core.Balanced := hco₂ ▸ hbal
            exact flushPendingSourceEvents_rule hd hfl hbalanced hqueued ⟨hi₂.noDelivery,hi₂.noBuffered⟩ hc
          · exact hqueued
end
omit [SnapshotHandle S] [Handoff S H] in
lemma pollQueues_queues (h : rt.core.Balanced) (hs : rt.queueSafe confirm = true) :
    (rt.pollQueues confirm).1.queues = rt.queues :=
  pollQueues_rule (I := fun rt' => rt'.queues = rt.queues)
    (fun rt' confirm hh => (rt'.retryPendingConfirmation_queues confirm).trans hh)
    (fun _ hh hn => (deliverBufferedBatch_queues hn).trans hh)
    (fun rt' hh _ _ => (Prod.ext rt'.flushed_held rfl : rt'.flushed.queues = rt'.queues).trans hh) h rfl hs

/-- Injected events are received before those of the sources, which are not asked while there are any. -/
lemma receive_injected {as : PollAnswers S H} {b : Except Error (List Event)} (hr : rt.receive as = some (rt',b)) :
    (rt.injectedEvents = [] ∧ rt'.injectedEvents = []) ∨
    ∃ e es, b = .ok (e::es) ∧ e::es++rt'.injectedEvents = rt.injectedEvents := by
  unfold receive at hr
  split at hr
  · rename_i hi
    rw [List.isEmpty_iff] at hi
    obtain ⟨_,_,_,hf⟩ := receiveFromSnapshot_frame hr
    exact .inl ⟨hi,(congrArg injectedEvents hf).trans hi⟩
  · rename_i hi
    cases hr
    cases hq : rt.injectedEvents with
    | nil => simp [hq] at hi
    | cons e es =>
      refine .inr ⟨e,es.take (rt.config.options.maxBufferSize-1),?_,?_⟩ <;>
        rw [← take_succ_cons,Nat.sub_add_cancel rt.config.options.bufferPos]
      rw [take_append_drop]

/-- A safe poll appends what it admits to the events the runtime holds, and nothing else; a batch it
receives leaves the injected events it was not taken from. -/
theorem pollEventBatch_queues (h : rt.core.Balanced) {answers : PollAnswers S H}
    (hsa : rt.pollSafe answers = true) (hr : rt.pollEventBatch answers = some r) :
    r.1.queues = (rt.held++rt.admitted answers,((rt.arrival answers).map (·.1.injectedEvents)).getD rt.injectedEvents) := by
  rw [pollSafe,Bool.and_eq_true] at hsa
  obtain ⟨hqu,hb⟩ := hsa
  have hh := pollQueues_queues h hqu
  have hq := pollQueues_poll h answers.confirm
  unfold pollEventBatch at hr
  unfold arrival at hb
  unfold admitted arrival
  generalize rt.pollQueues answers.confirm = queues at hh hq hr hb ⊢
  obtain ⟨rt₁,served⟩ := queues
  cases served with
  | some =>
    cases hr
    simpa [queues] using hh
  | none =>
    obtain ⟨hba,hn⟩ : rt₁.core.Balanced ∧ rt₁.pendingDelivery = none := by
      rcases hq with ⟨_,hs,_⟩ | ⟨_,hba,_,_,hn⟩
      · cases hs
      · exact ⟨hba,hn⟩
    simp only at hh hr hb ⊢
    unfold pollSources at hr
    cases hre : rt₁.receive answers with
    | none => simp [hre] at hr
    | some ar =>
      obtain ⟨rt₂,b⟩ := ar
      have hh₂ : rt₂.held = rt₁.held := receive_held hre
      have hc₂ : rt₂.core = rt₁.core := receive_core hre
      have hi := receive_injected hre
      obtain ⟨hh,hq⟩ := Prod.mk.inj hh
      rw [hre] at hr hb
      cases b with
      | error =>
        cases hr
        simp_all [queues]
      | ok es =>
        cases es with
        | nil =>
          cases hr
          simp_all [queues]
        | cons =>
          cases hr
          have hn₂ : rt₂.pendingDelivery = none := (congrArg DeliveryCore.pendingDelivery hc₂).trans hn
          simp only at hb ⊢
          rw [ingest_queues (hc₂ ▸ hba) hn₂ hb,hh₂,hh]
          rfl

lemma pollEventBatch_held (h : rt.core.Balanced) {answers : PollAnswers S H}
    (hs : rt.pollSafe answers = true) (hr : rt.pollEventBatch answers = some r) :
    r.1.held = rt.held++rt.admitted answers := congrArg Prod.fst (pollEventBatch_queues h hs hr)

/-- A poll with nothing in flight or buffered delivers the next cut of the queue, unless it is
withheld whole. -/
theorem pollEventBatch_flushes (hb : rt.core.Balanced) (hr : rt.state = .running)
    (hi : rt.Idle) (hp : 0 < rt.flushLen) {as : PollAnswers S H}
    (hs : rt.queueSafe as.confirm = true) :
    ∃ rt' b, rt.pollEventBatch as = some (rt',.ok b) ∧ b.visible ≠ [] ∧
      b.visible = rt.flushChunk ∧ rt'.bufferedEvents = [] ∧
      rt'.pendingSourceEvents = rt.pendingSourceEvents.drop rt.flushLen := by
  have hc := rt.retryPendingConfirmation_core as.confirm
  obtain ⟨_,_,_,hf⟩ := rt.retryPendingConfirmation_frame as.confirm
  simp only [queueSafe,hi.noDelivery,hi.noBuffered,Option.isSome_none,isEmpty_nil,Bool.not_true,Bool.false_or] at hs
  have hl : (rt.retryPendingConfirmation as.confirm).flushLen = rt.flushLen := by
    rw [hf]
    rfl
  have hq : (rt.retryPendingConfirmation as.confirm).pendingSourceEvents = rt.pendingSourceEvents := by rw [hf]
  simp only [pollEventBatch,pollQueues,hr,ne_eq,not_true_eq_false,if_false,
    currentPendingBatch,hi.noDelivery,Option.map_none]
  generalize rt.retryPendingConfirmation as.confirm = rt₁ at hc hs hl hq ⊢
  have hi₁ := hi.of_core hc
  obtain ⟨rt',b,he,hne,hv,hbu,hre⟩ := flushPendingSourceEvents_delivers (hc ▸ hb) hi₁ (hl ▸ hp) hs
  have hso : rt₁.pendingSourceEvents ≠ [] := by
    intro hn
    rw [hv,flushChunk,hn,take_nil] at hne
    exact hne rfl
  rw [if_neg (by simp [hi₁.noBuffered]),if_pos (by simpa using hso),he]
  dsimp only
  rw [if_neg (by simpa [EventBatch.isEmpty] using hne)]
  refine ⟨rt',b,rfl,hne,?_,hbu,?_⟩
  · rw [hv,flushChunk,flushChunk,hl,hq]
  · rw [hre,hl,hq]

/-- A poll with nothing in flight hands out the oldest events the runtime holds. -/
theorem pollEventBatch_delivers (h : rt.core.Balanced) (hr : rt.state = .running)
    (hs : rt.config.options.transactionBoundary = .split) (hn : rt.pendingDelivery = none)
    (hne : rt.held ≠ []) {as : PollAnswers S H} (hsaf : rt.queueSafe as.confirm = true) :
    ∃ rt' b, rt.pollEventBatch as = some (rt',.ok b) ∧ b.visible ≠ [] ∧ b.visible <+: rt.held := by
  have hh : rt.held = rt.bufferedEvents++rt.pendingSourceEvents := by
    simp [held,uncommittedEvents,hn]
  rw [hh] at hne ⊢
  by_cases hb : rt.bufferedEvents = []
  · have hi : rt.Idle := ⟨hn,hb⟩
    have hc := hi.pendingCount h
    have hbu := rt.config.options.bufferPos
    rw [hb,nil_append] at hne ⊢
    obtain ⟨rt',b,he,hv,hf,_⟩ := pollEventBatch_flushes h hr hi (flushLen_pos hs (by omega) hne) hsaf
    rw [hf] at hv
    refine ⟨rt',b,he,hf ▸ hv,?_⟩
    rw [hf]
    exact take_prefix _ _
  · have hco := rt.retryPendingConfirmation_core as.confirm
    have hsa : (rt.retryPendingConfirmation as.confirm).bufferedEvents = rt.bufferedEvents :=
      congrArg DeliveryCore.bufferedEvents hco
    obtain ⟨hv,hf⟩ := deliverBufferedBatch_visible (hsa ▸ hb)
    rw [hsa] at hf
    refine ⟨(rt.retryPendingConfirmation as.confirm).deliverBufferedBatch.1,_,?_,hv,hf.trans (prefix_append _ _)⟩
    simp only [pollEventBatch,pollQueues,hr,ne_eq,not_true_eq_false,if_false,currentPendingBatch,hn,Option.map_none]
    rw [if_pos (by simpa [hsa] using hb)]
end CdcRuntime
end Rustcdc
