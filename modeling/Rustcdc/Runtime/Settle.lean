import Rustcdc.Runtime.Delivery

/-! How a commit settles: refused with the delivery as it was, or durable with exactly the
acknowledged events gone from the barrier and the last offset among them in the store. -/
namespace Rustcdc.CdcRuntime
open CommitBarrier PendingDelivery
variable {S H : Type} [SnapshotHandle S] [StreamHandle H] (rt : CdcRuntime S H)

omit [StreamHandle H] in
lemma persistSnapshotCheckpoint_eq (count : ℕ) (a : Except Error Unit) :
    (rt.persistSnapshotCheckpointBeforeCommit count a).1 =
      {rt with checkpoint := (rt.persistSnapshotCheckpointBeforeCommit count a).1.checkpoint} := by
  unfold persistSnapshotCheckpointBeforeCommit
  split
  · rfl
  · split
    · split <;> rfl
    · rfl

/-- The stream after a confirmation that may or may not have been sent to it. -/
inductive Told (before : Option H) : Option H → Prop
  | silent : Told before before
  | confirmed (stream : H) (lsn : UInt64) (answer : Except Error Unit) (h : before = some stream) :
      Told before (some (StreamHandle.confirmLsn stream lsn answer).1)

omit [SnapshotHandle S] in
lemma confirmCommitted_frame (lsn : Option UInt64) (a : Except Error Unit) :
    ∃ stream p ps, Told rt.stream stream ∧ (rt.confirmCommitted lsn a).1 = {rt with
          stream := stream
          pendingConfirmationLsn := p
          unconfirmedStallPolls := ps} := by
  unfold confirmCommitted
  split
  · rename_i lsn stream hs
    have ht : Told rt.stream (some (StreamHandle.confirmLsn stream lsn a).1) := .confirmed stream lsn a hs
    split <;> rename_i he <;> rw [he] at ht <;> exact ⟨_,_,_,ht,rfl⟩
  · exact ⟨_,_,_,.silent,rfl⟩

/-- What a commit leaves alone. -/
structure Remainder (S : Type) where
  config : RuntimeConfig
  state : RuntimeState
  injectedEvents : List Event
  pendingSourceEvents : List Event
  snapshot : Option S
  handoffComplete : Bool
  idempotencyGuard : Option EventIdempotencyGuard

def remainder : Remainder S :=
  ⟨rt.config,rt.state,rt.injectedEvents,rt.pendingSourceEvents,rt.snapshot,rt.handoffComplete,rt.idempotencyGuard⟩

/-- The store once the snapshot's own write has been tried. -/
def snapshotStore (count : ℕ) (answers : CommitAnswers) : Checkpoint Offset :=
  (rt.persistSnapshotCheckpointBeforeCommit count answers.snapshotSave).1.checkpoint

/-- The store after a durable commit of the first `count` records: the last offset among them
is written, if there is one. -/
def Stored (b : CommitBarrier Offset) (count : ℕ) (before after : Checkpoint Offset) : Prop :=
  (CommitBarrier.lastPersistable (b.pendingRecords.take count) = none ∧ after = before) ∨
    ∃ o, CommitBarrier.lastPersistable (b.pendingRecords.take count) = some o ∧
      after = ⟨before.saved++[(o,b.committedEventCount+UInt64.ofNat count)]⟩

/-- The delivery core after `count` events became durable. -/
def DeliveryCore.advance (c : DeliveryCore) (count : ℕ) : DeliveryCore := {c with
    deliveredNotCommitted := c.deliveredNotCommitted-count
    pendingDelivery := c.pendingDelivery.bind fun pending =>
      if pending.events.length ≤ pending.committedPrefix+count then none
      else some {pending with
        committedPrefix := pending.committedPrefix+count
        ackEpoch := saturatingAdd pending.ackEpoch 1}
    commitBarrier := {c.commitBarrier with
      committedEventCount := c.commitBarrier.committedEventCount+UInt64.ofNat count
      pendingRecords := c.commitBarrier.pendingRecords.drop count
      barrierState := if (c.commitBarrier.pendingRecords.drop count).isEmpty then .committed
        else .opened}}

/-- The store a refused commit leaves: as it was, unless the snapshot's write came before the
refusal. -/
inductive RefusedStore (rt : CdcRuntime S H) (answers : CommitAnswers)
    (after : Checkpoint Offset) : Prop
  | untouched (h : after = rt.checkpoint)
  | unsaved (count : ℕ) (h : after = rt.snapshotStore count answers) (e : Error)
      (hpersist : (rt.persistSnapshotCheckpointBeforeCommit count answers.snapshotSave).2 = .error e)
  | saved (count : ℕ) (hpos : 0 < count) (hle : count ≤ rt.uncommittedEvents.length)
      (h : after = rt.snapshotStore count answers)
      (hcause : (∃ e, rt.committedConfirmationLsn count = .error e) ∨
        ∃ o, CommitBarrier.lastPersistable (rt.commitBarrier.pendingRecords.take count) = some o)

/-- How a commit of a positive count can end: refused with only the store possibly written to,
or durable, with the confirmation's failure reported by policy. -/
inductive CommitOutcome (rt : CdcRuntime S H) (count : ℕ) (answers : CommitAnswers) :
    CdcRuntime S H × Ending Unit → Prop
  | refused (rt' : CdcRuntime S H) (e : Error) (hsame : {rt' with checkpoint := rt.checkpoint} = rt)
      (hstore : rt.RefusedStore answers rt'.checkpoint) :
      CommitOutcome rt count answers (rt',.err e)
  | durable (rt' : CdcRuntime S H) (ending : Ending Unit)
      (hend : ending = .ok () ∨ ∃ detail, ending = .err (.postCommitConfirmFailed true detail))
      (hle : count ≤ rt.core.uncommitted.length) (hcore : rt'.core = rt.core.advance count)
      (hrest : rt'.remainder = rt.remainder) (hstream : Told rt.stream rt'.stream)
      (hpersist : (rt.persistSnapshotCheckpointBeforeCommit count answers.snapshotSave).2 = .ok ())
      (hstore : Stored rt.commitBarrier count (rt.snapshotStore count answers) rt'.checkpoint) :
      CommitOutcome rt count answers (rt',ending)

omit [SnapshotHandle S] in
lemma afterCommit_frame (count : ℕ) (lsn : Option UInt64) (a : Except Error Unit) :
    (∃ stream p ps, Told rt.stream stream ∧ (rt.afterCommit count lsn a).1 = ({rt with
        stream := stream
        pendingConfirmationLsn := p
        unconfirmedStallPolls := ps} : CdcRuntime S H).advanceDelivery count) ∧
      ((rt.afterCommit count lsn a).2 = .ok () ∨ ∃ detail, (rt.afterCommit count lsn a).2 =
          .err (.postCommitConfirmFailed true detail)) := by
  obtain ⟨stream,p,ps,ht,hf⟩ := rt.confirmCommitted_frame lsn a
  unfold afterCommit
  dsimp only
  rw [hf]
  split
  · exact ⟨⟨_,_,_,ht,rfl⟩,.inr ⟨_,rfl⟩⟩
  · exact ⟨⟨_,_,_,ht,rfl⟩,.inl rfl⟩

variable {rt rt' : CdcRuntime S H} {count : ℕ}

omit [SnapshotHandle S] in
lemma commitThroughBarrier_outcome (h : rt.core.Balanced) (hp : 0 < count)
    (hl : count ≤ rt.uncommittedEvents.length) (lsn : Option UInt64) (as : CommitAnswers) :
    (∃ e o, rt.commitThroughBarrier .release count lsn as = (rt,.err e) ∧
      lastPersistable (rt.commitBarrier.pendingRecords.take count) = some o) ∨
    ∃ rt' ending, rt.commitThroughBarrier .release count lsn as = (rt',ending) ∧
      (ending = .ok () ∨ ∃ detail, ending = .err (.postCommitConfirmFailed true detail)) ∧
      rt'.core = rt.core.advance count ∧ rt'.remainder = rt.remainder ∧
      Told rt.stream rt'.stream ∧ Stored rt.commitBarrier count rt.checkpoint rt'.checkpoint := by
  have hr : rt.commitBarrier.pendingRecords.length = rt.bufferedEvents.length+rt.uncommittedEvents.length := h.records
  have hb : rt.commitBarrier.pendingRecords.length ≤ rt.config.options.maxBufferSize := h.bounded
  have hw := rt.config.options.bufferWord
  have hc : (UInt64.ofNat count).toNat = count := by
    apply UInt64.toNat_ofNat_of_lt'
    simp only [UInt64.size]
    omega
  unfold commitThroughBarrier
  rcases acceptAndCommit_release h.unaccepted (n := UInt64.ofNat count) (by omega)
    (by rw [hc]; show count ≤ rt.commitBarrier.pendingRecords.length; omega) as.save
    rt.checkpoint with ⟨e,o,_,ho,he⟩ | ⟨cp,he,hs⟩
  · rw [show rt.core.commitBarrier = rt.commitBarrier from rfl] at he
    rw [show rt.core.commitBarrier = rt.commitBarrier from rfl,hc] at ho
    rw [he]
    exact .inl ⟨e,o,rfl,ho⟩
  · rw [show rt.core.commitBarrier = rt.commitBarrier from rfl,hc] at he
    rw [show rt.core.commitBarrier = rt.commitBarrier from rfl,hc] at hs
    rw [he]
    dsimp only
    set drained : CdcRuntime S H := {rt with commitBarrier := _, checkpoint := cp} with hd
    obtain ⟨⟨s,p,ps,ht,hf⟩,hen⟩ := drained.afterCommit_frame count lsn as.confirm
    refine .inr ⟨(drained.afterCommit count lsn as.confirm).1,
      (drained.afterCommit count lsn as.confirm).2,rfl,hen,?_,?_,?_,?_⟩ <;> rw [hf]
    · rfl
    · rfl
    · exact ht
    · exact hs

lemma commitPrefix_outcome (h : rt.core.Balanced) (hpo : 0 < count) (answers : CommitAnswers) :
    CommitOutcome rt count answers (rt.commitPrefix .release count answers) := by
  unfold commitPrefix
  rw [if_neg (by omega)]
  by_cases hov : rt.deliveredNotCommitted < count ∨ rt.uncommittedEvents.length < count
  · rw [if_pos hov]
    exact .refused rt _ rfl (.untouched rfl)
  · rw [if_neg hov]
    have hf := rt.persistSnapshotCheckpoint_eq count answers.snapshotSave
    have hs : (rt.persistSnapshotCheckpointBeforeCommit count answers.snapshotSave).1.checkpoint =
        rt.snapshotStore count answers := rfl
    generalize hp : rt.persistSnapshotCheckpointBeforeCommit count answers.snapshotSave = persisted at hf hs
    obtain ⟨rt₁,saved⟩ := persisted
    simp only at hf hs
    have hb : {rt₁ with checkpoint := rt.checkpoint} = rt := by rw [hf]
    have hc₁ : rt₁.core = rt.core := by rw [hf]; rfl
    have hb₁ : rt₁.commitBarrier = rt.commitBarrier := by rw [hf]
    have hr₁ : rt₁.remainder = rt.remainder := by rw [hf]; rfl
    have hstr₁ : rt₁.stream = rt.stream := by rw [hf]
    have hu : rt₁.uncommittedEvents = rt.uncommittedEvents := by rw [hf]; rfl
    cases saved with
    | error e =>
      exact .refused rt₁ e hb (.unsaved count hs e (by rw [hp]))
    | ok =>
      have hl₁ : rt₁.committedConfirmationLsn count = rt.committedConfirmationLsn count := by
        rw [hf]
        rfl
      cases hl : rt₁.committedConfirmationLsn count with
      | error e =>
        simp only [hl]
        refine .refused rt₁ e hb (.saved count hpo (by omega) hs (.inl ⟨e,?_⟩))
        rw [← hl₁,hl]
      | ok lsn =>
        simp only [hl]
        rcases commitThroughBarrier_outcome (hc₁ ▸ h) hpo (by rw [hu]; omega) lsn answers with
          ⟨e,o,he,ho⟩ | ⟨rt',ending,he,hen,hc,hr,ht,hst⟩ <;> rw [he]
        · refine .refused rt₁ e hb (.saved count hpo (by omega) hs (.inr ⟨o,?_⟩))
          rw [← hb₁,ho]
        · rw [hc₁] at hc
          rw [hstr₁] at ht
          rw [hb₁,hs] at hst
          refine .durable rt' ending hen ?_ hc (hr.trans hr₁) ht ?_ hst
          · show count ≤ rt.uncommittedEvents.length
            omega
          · rw [hp]

variable {c : DeliveryCore}

lemma DeliveryCore.Balanced.epoch_succ (h : c.Balanced) {p : PendingDelivery} (hp : c.pendingDelivery = some p) :
    (saturatingAdd p.ackEpoch 1).toNat = p.ackEpoch.toNat+1 := by
  obtain ⟨hl,hm,he⟩ := h.partly p hp
  have hw := c.options.bufferWord
  rw [saturatingAdd_toNat]
  simp only [UInt64.toNat_one]
  omega

lemma DeliveryCore.Balanced.advance (h : c.Balanced) (hpo : 0 < count)
    (hl : count ≤ c.uncommitted.length) : (c.advance count).Balanced := by
  cases hp : c.pendingDelivery with
  | none =>
    rw [DeliveryCore.uncommitted,hp] at hl
    simp at hl
    omega
  | some p =>
    obtain ⟨hlt,hm,he⟩ := h.partly p hp
    have hs := h.epoch_succ hp
    have hu : c.uncommitted.length = p.events.length-p.committedPrefix := by
      simp [DeliveryCore.uncommitted,hp,remaining]
    have hu' : (c.advance count).uncommitted.length = c.uncommitted.length-count := by
      simp only [DeliveryCore.advance,DeliveryCore.uncommitted,hp,Option.bind_some]
      split_ifs with hd
      · simp only [remaining,List.length_drop,List.length_nil]
        omega
      · simp only [remaining,List.length_drop]
        omega
    refine ⟨?_,?_,?_,?_,h.capacity,?_,?_⟩
    · have hre := h.records
      rw [hu']
      simp only [pendingCount,DeliveryCore.advance,List.length_drop] at hre ⊢
      omega
    · have hi := h.inFlight
      rw [hu']
      simp only [DeliveryCore.advance]
      omega
    · exact fun r hr => h.unaccepted r (List.mem_of_mem_drop hr)
    · simp only [DeliveryCore.advance]
      split_ifs <;> simp
    · have hb := h.bounded
      simp only [pendingCount,DeliveryCore.advance,List.length_drop] at hb ⊢
      omega
    · intro p' hp'
      simp only [DeliveryCore.advance,hp,Option.bind_some] at hp'
      split_ifs at hp' with hd
      cases hp'
      simp only [DeliveryCore.advance] at hs ⊢
      exact ⟨by omega,hm,by omega⟩

/-- A token that is not the in-flight delivery's current one is refused outright. -/
theorem commitAck_outcome (h : rt.core.Balanced) {tk : AckToken} (hpo : 0 < tk.eventCount) (as : CommitAnswers) :
    (∃ e, rt.commitAck .release (.required tk) as = (rt,.err e)) ∨
    (∃ p, rt.pendingDelivery = some p ∧ p.deliveryId = tk.deliveryId ∧ p.ackEpoch = tk.epoch) ∧
      CommitOutcome rt tk.eventCount as (rt.commitAck .release (.required tk) as) := by
  simp only [commitAck]
  cases hp : rt.pendingDelivery with
  | none => exact .inl ⟨_,rfl⟩
  | some p =>
    simp only
    by_cases hi : p.deliveryId = tk.deliveryId
    · by_cases he : p.ackEpoch = tk.epoch
      · rw [if_neg (by simpa using hi),if_neg (by simpa using he)]
        exact .inr ⟨⟨p,rfl,hi,he⟩,commitPrefix_outcome h hpo as⟩
      · rw [if_neg (by simpa using hi),if_pos he]
        exact .inl ⟨_,rfl⟩
    · rw [if_pos hi]
      exact .inl ⟨_,rfl⟩

/-- What a commit with any token does to the runtime: only the store may have been written to,
or the next `count` events became durable. -/
inductive CommitEffect (rt : CdcRuntime S H) (answers : CommitAnswers) : CdcRuntime S H → Prop
  | refused (rt' : CdcRuntime S H) (hsame : {rt' with checkpoint := rt.checkpoint} = rt)
      (hstore : rt.RefusedStore answers rt'.checkpoint) : CommitEffect rt answers rt'
  | durable (count : ℕ) (rt' : CdcRuntime S H) (hpos : 0 < count)
      (hle : count ≤ rt.uncommittedEvents.length) (hcore : rt'.core = rt.core.advance count)
      (hrest : rt'.remainder = rt.remainder) (hstream : Told rt.stream rt'.stream)
      (hpersist : (rt.persistSnapshotCheckpointBeforeCommit count answers.snapshotSave).2 = .ok ())
      (hstore : Stored rt.commitBarrier count (rt.snapshotStore count answers) rt'.checkpoint) :
      CommitEffect rt answers rt'

lemma commitAck_effect (h : rt.core.Balanced) (tk : AckToken) (as : CommitAnswers) :
    CommitEffect rt as (rt.commitAck .release (.required tk) as).1 := by
  by_cases hz : tk.eventCount = 0
  · have hsa : (rt.commitAck .release (.required tk) as).1 = rt := by
      simp only [commitAck,commitPrefix,hz,if_true]
      split
      · rfl
      · split_ifs <;> rfl
    rw [hsa]
    exact .refused rt rfl (.untouched rfl)
  · rcases commitAck_outcome h (Nat.pos_of_ne_zero hz) as with ⟨e,he⟩ | ⟨_,ho⟩
    · rw [he]
      exact .refused rt rfl (.untouched rfl)
    · generalize rt.commitAck .release (.required tk) as = result at ho
      cases ho with
      | refused rt' e hsa hs => exact .refused rt' hsa hs
      | durable rt' ending _ hl hc hr hst hp hs =>
        exact .durable _ rt' (Nat.pos_of_ne_zero hz) hl hc hr hst hp hs

omit [SnapshotHandle S] [StreamHandle H] in
lemma uncommittedEvents_advance (hc : rt'.core = rt.core.advance count) :
    rt'.uncommittedEvents = rt.uncommittedEvents.drop count := by
  have hpe : rt'.pendingDelivery = _ := congrArg DeliveryCore.pendingDelivery hc
  simp only [DeliveryCore.advance,core] at hpe
  cases hp : rt.pendingDelivery with
  | none =>
    rw [hp,Option.bind_none] at hpe
    simp [uncommittedEvents,hp,hpe]
  | some p =>
    rw [hp,Option.bind_some] at hpe
    by_cases hd : p.events.length ≤ p.committedPrefix+count
    · rw [if_pos hd] at hpe
      simp [uncommittedEvents,hp,hpe,remaining,hd]
    · rw [if_neg hd] at hpe
      simp [uncommittedEvents,hp,hpe,remaining,Nat.add_comm]

def drained (rt rt' : CdcRuntime S H) : ℕ := rt.commitBarrier.pendingCount-rt'.commitBarrier.pendingCount

omit [SnapshotHandle S] [StreamHandle H] in
lemma drained_refused (hs : {rt' with checkpoint := rt.checkpoint} = rt) :
    rt.drained rt' = 0 := by
  rw [drained,← hs]
  simp

omit [SnapshotHandle S] [StreamHandle H] in
lemma drained_durable (h : rt.core.Balanced) (hl : count ≤ rt.uncommittedEvents.length)
    (hc : rt'.core = rt.core.advance count) :
    rt.drained rt' = count := by
  have hb : rt'.commitBarrier = _ := congrArg DeliveryCore.commitBarrier hc
  have hr : rt.commitBarrier.pendingRecords.length = rt.bufferedEvents.length+rt.uncommittedEvents.length := h.records
  simp only [drained,hb,DeliveryCore.advance,core,pendingCount,List.length_drop]
  omega
end Rustcdc.CdcRuntime
