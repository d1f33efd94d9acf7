import Rustcdc.Lib.Run
import Rustcdc.Runtime.Settle

/-! The acknowledgement protocol over whole runs: every interleaving of polls and commits, any
token ever issued presented at any time, any write or confirmation refused. -/
namespace Rustcdc
open List PendingDelivery CdcRuntime Machine

/-- A token with the delivery it was issued for and the position its batch started at. -/
structure IssuedToken where
  token : AckToken
  delivery : ℕ
  start : ℕ

/-- A runtime with its history: every delivery, every committed event, every token issued. -/
structure Session (S H : Type) where
  runtime : CdcRuntime S H
  deliveries : List (List Event)
  committed : List Event
  issued : List IssuedToken

/-- A caller's move: poll, or present the token issued at `index`, narrowed or whole. -/
inductive SessionCall (S H : Type) [SnapshotHandle S] [StreamHandle H] [Handoff S H]
  | poll (answers : PollAnswers S H)
  | ack (index : ℕ) (narrow : Option ℕ) (answers : CommitAnswers)

namespace Session
variable {S H : Type}

def start (runtime : CdcRuntime S H) : Session S H := ⟨runtime,[],[],[]⟩
section
variable [SnapshotHandle S] [StreamHandle H] [Handoff S H] (s : Session S H)

def present (index : ℕ) (narrow : Option ℕ) : Option IssuedToken :=
  match s.issued[index]?, narrow with
  | none, _ => none
  | some issued, none => some issued
  | some issued, some n =>
    match issued.token.acceptPrefix n with
    | .ok token => some {issued with token := token}
    | .error _ => none

/-- Record a poll's batch: a batch with a token is a new delivery unless one was in flight. -/
def received (runtime : CdcRuntime S H) (batch : EventBatch) : Session S H :=
  match batch.ackToken with
  | none => {s with runtime := runtime}
  | some token =>
    let deliveries := if s.runtime.pendingDelivery.isSome then s.deliveries
      else s.deliveries++[batch.events]
    {s with
      runtime := runtime
      deliveries := deliveries
      issued := s.issued++[⟨token,deliveries.length-1,batch.offset⟩]}

/-- Record a commit: what left the barrier became durable. -/
def acknowledged (runtime : CdcRuntime S H) : Session S H := {s with
    runtime := runtime
    committed := s.committed++s.runtime.commitWindow
      (s.runtime.commitBarrier.pendingCount-runtime.commitBarrier.pendingCount)}

def step : SessionCall S H → Session S H
  | .poll answers =>
    match s.runtime.pollEventBatch answers with
    | none => s
    | some (runtime,.error _) => {s with runtime := runtime}
    | some (runtime,.ok batch) => s.received runtime batch
  | .ack index narrow answers =>
    match s.present index narrow with
    | none => s
    | some issued =>
      s.acknowledged (s.runtime.commitAck .release (.required issued.token) answers).1
end
/-- The id of the delivery at an index: ids count up from one until they saturate. -/
def deliveryId (index : ℕ) : ℕ := min (index+1) (2^64-1)
lemma deliveryId_inj {i j : ℕ} (hi : i < 2^64-1) (hj : j < 2^64-1) (h : deliveryId i = deliveryId j) : i = j := by
  simp only [deliveryId] at h
  omega

structure Sound (s : Session S H) : Prop where
  balanced : s.runtime.core.Balanced
  nextId : s.runtime.nextDeliveryId.toNat = deliveryId s.deliveries.length
  idle : s.runtime.pendingDelivery = none → s.committed = s.deliveries.flatten
  inFlight : ∀ pending, s.runtime.pendingDelivery = some pending →
    ∃ earlier, s.deliveries = earlier++[pending.events] ∧ pending.deliveryId.toNat = deliveryId earlier.length ∧
      s.committed = earlier.flatten++pending.events.take pending.committedPrefix
  origin : ∀ i ∈ s.issued, i.delivery < s.deliveries.length ∧
    i.token.deliveryId.toNat = deliveryId i.delivery ∧ 0 < i.token.eventCount
  current : ∀ pending, s.runtime.pendingDelivery = some pending → ∀ i ∈ s.issued,
    i.delivery+1 = s.deliveries.length → i.token.epoch.toNat ≤ pending.ackEpoch.toNat ∧
      (i.token.epoch = pending.ackEpoch → i.start = pending.committedPrefix)

variable {s : Session S H}

lemma Sound.of_core {s' : Session S H} (h : s.Sound) (hb : s'.runtime.core.Balanced)
    (hid : s'.runtime.nextDeliveryId = s.runtime.nextDeliveryId)
    (hp : s'.runtime.pendingDelivery = s.runtime.pendingDelivery)
    (hd : s'.deliveries = s.deliveries) (hc : s'.committed = s.committed)
    (hi : s'.issued = s.issued) : s'.Sound := by
  refine ⟨hb,?_,?_,?_,?_,?_⟩
  · rw [hid,hd]; exact h.nextId
  · rw [hp,hc,hd]; exact h.idle
  · rw [hp,hc,hd]; exact h.inFlight
  · rw [hi,hd]; exact h.origin
  · rw [hp,hi,hd]; exact h.current

variable {rn : CdcRuntime S H} {i : IssuedToken} {narrow : Option ℕ} {p : PendingDelivery}

lemma Sound.redelivered (h : s.Sound) (hp : s.runtime.pendingDelivery = some p) (hc : rn.core = s.runtime.core) :
    (s.received rn ⟨p.events,p.committedPrefix,some ⟨p.deliveryId,p.remaining.length,p.ackEpoch⟩⟩).Sound := by
  have hid : rn.nextDeliveryId = s.runtime.nextDeliveryId := congrArg DeliveryCore.nextDeliveryId hc
  have hpe : rn.pendingDelivery = s.runtime.pendingDelivery := congrArg DeliveryCore.pendingDelivery hc
  obtain ⟨ea,hd,hpi,_⟩ := h.inFlight p hp
  have hpa := h.balanced.partly p hp
  have hle : s.deliveries.length = ea.length+1 := by simp [hd]
  simp only [received,hp,Option.isSome_some,if_true]
  refine ⟨by rw [hc]; exact h.balanced,?_,?_,?_,?_,?_⟩
  · rw [hid]; exact h.nextId
  · rw [hpe]; exact h.idle
  · rw [hpe]; exact h.inFlight
  · intro i hi
    rcases mem_append.mp hi with hi | hi
    · exact h.origin i hi
    · obtain rfl := mem_singleton.mp hi
      refine ⟨by simp only; omega,by simp only [hle,Nat.add_sub_cancel]; exact hpi,?_⟩
      simp only [remaining,length_drop]
      omega
  · intro pe' hp' i hi hl
    rw [hpe] at hp'
    rcases mem_append.mp hi with hi | hi
    · exact h.current pe' hp' i hi hl
    · obtain rfl := mem_singleton.mp hi
      obtain rfl := Option.some.inj (hp.symm.trans hp')
      exact ⟨le_refl _,fun _ => rfl⟩

lemma Sound.delivered (h : s.Sound) {es : List Event} (hne : es ≠ [])
    (hno : s.runtime.pendingDelivery = none) (hb : rn.core.Balanced)
    (hpe : rn.pendingDelivery = some ⟨s.runtime.nextDeliveryId,es,0,0⟩)
    (hid : rn.nextDeliveryId = saturatingAdd s.runtime.nextDeliveryId 1) :
    (s.received rn ⟨es,0,some ⟨s.runtime.nextDeliveryId,es.length,0⟩⟩).Sound := by
  have hn := h.nextId
  simp only [received,hno,Option.isSome_none,Bool.false_eq_true,if_false]
  refine ⟨hb,?_,?_,?_,?_,?_⟩
  · rw [hid,saturatingAdd_toNat,hn]
    simp only [UInt64.toNat_one,deliveryId,length_append,length_cons,length_nil]
    omega
  · simp [hpe]
  · intro p hp
    obtain rfl := Option.some.inj (hpe.symm.trans hp)
    exact ⟨s.deliveries,rfl,hn,by simpa using h.idle hno⟩
  · intro i hi
    rcases mem_append.mp hi with hi | hi
    · obtain ⟨hlt,hr⟩ := h.origin i hi
      exact ⟨by simp only [length_append]; omega,hr⟩
    · obtain rfl := mem_singleton.mp hi
      refine ⟨by simp,by simpa using hn,length_pos_iff.mpr hne⟩
  · intro p hp i hi hl
    obtain rfl := Option.some.inj (hpe.symm.trans hp)
    rcases mem_append.mp hi with hi | hi
    · have hlt := (h.origin i hi).1
      simp only [length_append,length_cons,length_nil] at hl
      omega
    · obtain rfl := mem_singleton.mp hi
      exact ⟨le_refl _,fun _ => rfl⟩

lemma present_origin {ind : ℕ} (h : s.Sound) (hi : s.present ind narrow = some i) :
    0 < i.token.eventCount ∧ ∃ j ∈ s.issued, i.delivery = j.delivery ∧ i.start = j.start ∧
      i.token.deliveryId = j.token.deliveryId ∧ i.token.epoch = j.token.epoch := by
  unfold present at hi
  split at hi
  · cases hi
  · rename_i issued hg
    cases hi
    have hm := mem_of_getElem? hg
    exact ⟨(h.origin _ hm).2.2,_,hm,rfl,rfl,rfl,rfl⟩
  · rename_i issued n hg
    have hm := mem_of_getElem? hg
    unfold AckToken.acceptPrefix at hi
    by_cases hb : n = 0 ∨ issued.token.eventCount < n
    · rw [if_pos hb] at hi
      cases hi
    · rw [if_neg hb] at hi
      cases hi
      exact ⟨by simp only; omega,_,hm,rfl,rfl,rfl,rfl⟩

/-- What presenting a token does: it is refused and only the store may have been written to, or
it commits exactly the first `eventCount` events its batch showed, in the delivery it was issued
for, right after everything committed before. -/
def AckExact [SnapshotHandle S] [StreamHandle H] (s : Session S H) (i : IssuedToken) (answers : CommitAnswers) : Prop :=
  let result := s.runtime.commitAck .release (.required i.token) answers
  let delivery := s.deliveries.getD i.delivery []
  ((∃ e, result.2 = .err e) ∧ {result.1 with checkpoint := s.runtime.checkpoint} = s.runtime ∧
    (s.acknowledged result.1).committed = s.committed) ∨
  ((result.2 = .ok () ∨ ∃ detail, result.2 = .err (.postCommitConfirmFailed true detail)) ∧
    s.committed = (s.deliveries.take i.delivery).flatten++delivery.take i.start ∧
    i.start+i.token.eventCount ≤ delivery.length ∧
    (s.acknowledged result.1).committed = s.committed++(delivery.drop i.start).take i.token.eventCount)

lemma Sound.ack_durable (h : s.Sound) {count : ℕ} (hpo : 0 < count)
    (hp : s.runtime.pendingDelivery = some p) (hle : count ≤ p.remaining.length)
    (hco : rn.core = s.runtime.core.advance count) :
    (s.acknowledged rn).Sound ∧ (s.acknowledged rn).committed = s.committed++p.remaining.take count := by
  have hu : s.runtime.core.uncommitted = p.remaining := by
    simp only [DeliveryCore.uncommitted,core,hp]
  have hba := h.balanced.advance hpo (hu ▸ hle)
  have hpe : rn.pendingDelivery = _ := congrArg DeliveryCore.pendingDelivery hco
  have hid : rn.nextDeliveryId = s.runtime.nextDeliveryId := congrArg DeliveryCore.nextDeliveryId hco
  have hb : rn.commitBarrier = _ := congrArg DeliveryCore.commitBarrier hco
  simp only [DeliveryCore.advance,core,hp,Option.bind_some] at hpe
  have hd : s.runtime.commitBarrier.pendingCount-rn.commitBarrier.pendingCount = count := by
    have hr := h.balanced.records
    rw [hu] at hr
    rw [hb]
    simp only [CommitBarrier.pendingCount,DeliveryCore.advance,core,length_drop] at hr ⊢
    omega
  have hc : (s.acknowledged rn).committed = s.committed++p.remaining.take count := by
    simp only [acknowledged,hd,commitWindow,uncommittedEvents,hp]
  obtain ⟨ea,hde,hpi,hcom⟩ := h.inFlight p hp
  have ht : p.events.take p.committedPrefix++p.remaining.take count =
      p.events.take (p.committedPrefix+count) := (take_add ..).symm
  refine ⟨⟨hco ▸ hba,?_,?_,?_,h.origin,?_⟩,hc⟩
  · exact hid ▸ h.nextId
  · intro hn
    have hdo : p.events.length ≤ p.committedPrefix+count := by
      by_contra hm
      rw [if_neg hm] at hpe
      cases hpe.symm.trans hn
    rw [hc,hcom,append_assoc,ht,take_of_length_le hdo]
    simp [acknowledged,hde]
  · intro pe' hp'
    obtain ⟨-,hs⟩ := Option.ite_none_left_eq_some.mp (hpe.symm.trans hp')
    cases hs
    exact ⟨ea,hde,hpi,by rw [hc,hcom,append_assoc,ht]⟩
  · intro pe' hp' i hi hl
    have hs := h.balanced.epoch_succ (show s.runtime.core.pendingDelivery = some p from hp)
    have hcu := h.current p hp i hi hl
    obtain ⟨-,hne⟩ := Option.ite_none_left_eq_some.mp (hpe.symm.trans hp')
    cases hne
    refine ⟨by simp only; omega,fun he => ?_⟩
    have hv := congrArg UInt64.toNat he
    simp only at hv
    omega

lemma acknowledged_refused (hs : {rn with checkpoint := s.runtime.checkpoint} = s.runtime) :
    (s.acknowledged rn).committed = s.committed ∧ rn.core = s.runtime.core := by
  have hc : rn.core = s.runtime.core := by
    rw [← hs]
    rfl
  have hb : rn.commitBarrier = s.runtime.commitBarrier := congrArg DeliveryCore.commitBarrier hc
  exact ⟨by simp [acknowledged,hb,commitWindow],hc⟩

lemma Sound.committed_append (h : s.Sound) : s.committed++s.runtime.uncommittedEvents = s.deliveries.flatten := by
  cases hp : s.runtime.pendingDelivery with
  | none => simpa [uncommittedEvents,hp] using h.idle hp
  | some p =>
    obtain ⟨ea,hd,_,hc⟩ := h.inFlight p hp
    simp [uncommittedEvents,hp,hc,hd,remaining]

section
variable (c : RuntimeConfig) (cp : Checkpoint Offset) (co : UInt64) (g : Option EventIdempotencyGuard)
variable (s : Option S) (st : Option H)

lemma started_balanced : (started c cp co g s st).core.Balanced := by
  constructor <;> simp [started,core,DeliveryCore.uncommitted,CommitBarrier.pendingCount]

lemma start_sound : (start (started c cp co g s st)).Sound where
  balanced := started_balanced c cp co g s st
  nextId := by simp [start,started,deliveryId]
  idle := by simp [start]
  inFlight := by simp [start,started]
  origin := by simp [start]
  current := by simp [start]
end
variable [SnapshotHandle S] [StreamHandle H]

/-- Presenting a token keeps the session sound and is exact. -/
theorem Sound.ack (h : s.Sound) (hids : s.deliveries.length < 2^64) {ind : ℕ}
    (hi : s.present ind narrow = some i) (answers : CommitAnswers) :
    (s.acknowledged (s.runtime.commitAck .release (.required i.token) answers).1).Sound ∧ s.AckExact i answers := by
  obtain ⟨hpos,j,hj,hdel,hs,hid,hep⟩ := present_origin h hi
  have hr : ∀ rn e, s.runtime.commitAck .release (.required i.token) answers = (rn,.err e) →
      {rn with checkpoint := s.runtime.checkpoint} = s.runtime →
      (s.acknowledged (s.runtime.commitAck .release (.required i.token) answers).1).Sound ∧ s.AckExact i answers := by
    intro rn e heq hsa
    obtain ⟨hcom,hco⟩ := acknowledged_refused hsa
    rw [AckExact,heq]
    exact ⟨h.of_core (hco ▸ h.balanced) (congrArg DeliveryCore.nextDeliveryId hco)
      (congrArg DeliveryCore.pendingDelivery hco) rfl hcom rfl,.inl ⟨⟨e,rfl⟩,hsa,hcom⟩⟩
  rcases commitAck_outcome h.balanced hpos answers with ⟨e,he⟩ | ⟨⟨p,hp,hpi,hpe⟩,ho⟩
  · exact hr _ e he rfl
  · generalize hre : s.runtime.commitAck .release (.required i.token) answers = result at ho
    cases ho with
    | refused rn e hsa => exact hre ▸ hr rn e hre hsa
    | durable rn ending hen hle hco =>
      have hle' : i.token.eventCount ≤ p.remaining.length := by
        simpa [DeliveryCore.uncommitted,core,hp] using hle
      obtain ⟨hso,hc⟩ := h.ack_durable hpos hp hle' hco
      obtain ⟨earlier,hd,hea,hcom⟩ := h.inFlight p hp
      have hl : s.deliveries.length = earlier.length+1 := by simp [hd]
      -- the ids have not saturated, so the matching id names the in-flight delivery
      have hin : j.delivery = earlier.length := by
        obtain ⟨hjl,hji,_⟩ := h.origin j hj
        apply deliveryId_inj (by omega) (by omega)
        rw [← hji,← hea,hpi,hid]
      have hpo : i.start = p.committedPrefix :=
        hs.trans ((h.current p hp j hj (by omega)).2 (hep.symm.trans hpe.symm))
      have hde : s.deliveries.getD i.delivery [] = p.events := by
        rw [hdel,hin,hd]
        simp
      have ht : s.deliveries.take i.delivery = earlier := by
        rw [hdel,hin,hd]
        simp
      refine ⟨hso,.inr ?_⟩
      rw [hre]
      simp only [hde,ht,hpo]
      refine ⟨hen,hcom,?_,hc⟩
      simp only [remaining,length_drop] at hle'
      omega
variable [Handoff S H]

lemma Sound.poll (h : s.Sound) (as : PollAnswers S H) : (s.step (.poll as)).Sound := by
  simp only [step]
  cases hr : s.runtime.pollEventBatch as with
  | none => exact h
  | some re =>
    obtain ⟨rn,r⟩ := re
    obtain ⟨hb,hop,ho⟩ := pollEventBatch_poll h.balanced hr
    cases ho with
    | redelivered p hp hc => exact h.redelivered hp hc
    | nothing hn hn' hi =>
      exact h.of_core hb hi (hn'.trans hn.symm) rfl rfl rfl
    | failed e hp hi => exact h.of_core hb hi hp rfl rfl rfl
    | delivered es hne hn hp hi => exact h.delivered hne hn hb hp hi

lemma deliveries_le_step (s : Session S H) (ca : SessionCall S H) :
    s.deliveries.length ≤ (s.step ca).deliveries.length := by
  cases ca with
  | poll =>
    simp only [step]
    split
    · exact le_refl _
    · exact le_refl _
    · unfold received
      split
      · exact le_refl _
      · simp only
        split <;> simp
  | ack =>
    simp only [step]
    split <;> exact le_refl _

lemma Sound.step (h : s.Sound) (hid : s.deliveries.length < 2^64) (ca : SessionCall S H) : (s.step ca).Sound := by
  cases ca with
  | poll as => exact h.poll as
  | ack ind narrow as =>
    simp only [Session.step]
    cases hi : s.present ind narrow with
    | none => exact h
    | some => exact (h.ack hid hi as).1

/-- A run that stays below the saturation of delivery ids is sound throughout. -/
theorem run_sound_of_ids (h : s.Sound) (ca : List (SessionCall S H)) (hi : (run step s ca).deliveries.length < 2^64) :
    (run step s ca).Sound := by
  induction ca generalizing s with
  | nil => exact h
  | cons cal ca ih =>
    have hm : ∀ (ca : List (SessionCall S H)) (t : Session S H),
        t.deliveries.length ≤ (run step t ca).deliveries.length := by
      intro ca
      induction ca with
      | nil => exact fun t => le_refl _
      | cons c cs ih => exact fun t => (deliveries_le_step t c).trans (ih (t.step c))
    have hl : s.deliveries.length < 2^64 := lt_of_le_of_lt (hm (cal::ca) s) hi
    exact ih (h.step hl cal) hi

/-- The acknowledgement protocol.  In every run of fewer than `2^64` deliveries, the committed
events are the delivered ones up to what is still in flight, the barrier holds one record for
each buffered or uncommitted event, and presenting any token ever issued, narrowed or not,
either changes nothing or commits exactly the events that token was given for. -/
theorem ack_protocol (config : RuntimeConfig) (checkpoint : Checkpoint Offset) (count : UInt64)
    (guard : Option EventIdempotencyGuard) (snapshot : Option S) (stream : Option H)
    (calls : List (SessionCall S H)) :
    let s := Machine.run step (start (CdcRuntime.started config checkpoint count guard snapshot stream)) calls
    s.deliveries.length < 2^64 → s.committed++s.runtime.uncommittedEvents = s.deliveries.flatten ∧
      s.runtime.commitBarrier.pendingCount = s.runtime.bufferedEvents.length+s.runtime.uncommittedEvents.length ∧
      s.runtime.deliveredNotCommitted = s.runtime.uncommittedEvents.length ∧
      ∀ index narrow i answers, s.present index narrow = some i → s.AckExact i answers := by
  intro s hid
  have hs := run_sound_of_ids (start_sound config checkpoint count guard snapshot stream) calls hid
  exact ⟨hs.committed_append,hs.balanced.records,hs.balanced.inFlight,
    fun index narrow i answers hi => (hs.ack hid hi answers).2⟩
end Session
/-- No snapshot runs. -/
instance : SnapshotHandle Empty where
  Answer := Unit
  nextChunk h := h.elim
  checkpoint h := h.elim

instance (H : Type) : Handoff Empty H where
  Answer := Unit
  performHandoff h := h.elim

namespace Session
/-- One-event buffers, no retries, no transforms, no deduplication. -/
def plainOptions : RuntimeOptions where
  maxBufferSize := 1
  maxEventBytes := none
  transformErrorPolicy := .halt
  postCommitSourceConfirmPolicy := .failFast
  validateEvents := false
  connectionRetry := none
  transactionBoundary := .split
  bufferPos := by decide
  bufferWord := by decide

def pairOptions : RuntimeOptions := {plainOptions with
    maxBufferSize := 2
    bufferPos := by decide
    bufferWord := by decide}

def tripleOptions : RuntimeOptions := {plainOptions with
    maxBufferSize := 3
    bufferPos := by decide
    bufferWord := by decide}

def plainConfig : RuntimeConfig where
  source := .custom
  incrementalSnapshot := false
  options := plainOptions
  transformPipeline := ⟨true,fun e => .ok (some e),.ok⟩
  hash := fun _ => 0

def plainEvent : Event where
  before := none
  after := some .null
  op := .insert
  source := ⟨"custom","1",1⟩
  ts := 1
  schema := none
  table := "t"
  primaryKey := none
  snapshot := none
  transaction := none
  envelopeVersion := 1
  beforeIsKeyOnly := false
  unavailableColumns := []
  beforeUnavailableColumns := []

def pollAnswers (events : List Event) : PollAnswers Empty ScriptedStream where
  confirm := .ok ()
  now := 1
  schemaHistory := fun _ => none
  chunk := ()
  handoff := ()
  attempts := [⟨⟨.ok (),.ok (),.ok ⟨⟩⟩,.ok events,⟨.ok (),.ok (),.ok ⟨⟩⟩⟩]

def plainStart : Session Empty ScriptedStream := start (CdcRuntime.started plainConfig ⟨[]⟩ 0 none none (some ⟨⟩))
def accepting : CommitAnswers := ⟨.ok (),.ok (),.ok ()⟩

/-- A poll, a refused write, a partial retry with the same token, and a replay of it. -/
def sampleCalls : List (SessionCall Empty ScriptedStream) := [.poll (pollAnswers [plainEvent,plainEvent]),
    .ack 0 none ⟨.ok (),.error (.checkpointError "disk full"),.ok ()⟩,.ack 0 (some 1) accepting,
    .ack 0 none accepting,.poll (pollAnswers [])]

theorem ack_protocol_sample :
    let s := Machine.run step plainStart sampleCalls
    s.committed = [plainEvent] ∧ s.deliveries = [[plainEvent],[plainEvent]] ∧
      s.runtime.commitBarrier.pendingCount = 1 := by
  refine ⟨by decide,by decide,?_⟩
  have h := ack_protocol plainConfig ⟨[]⟩ 0 none none (some ⟨⟩) sampleCalls (by decide)
  exact h.2.1

open CdcRuntime
variable (n : ℕ)

/-- The id the runtime holds after `n` deliveries. -/
def plainId : UInt64 := UInt64.ofNat (deliveryId n)

lemma plainId_toNat : (plainId n).toNat = deliveryId n := by
  apply UInt64.toNat_ofNat_of_lt'
  simp only [deliveryId,UInt64.size]
  omega

lemma plainId_succ : saturatingAdd (plainId n) 1 = plainId (n+1) := by
  apply UInt64.toNat_inj.mp
  rw [saturatingAdd_toNat,plainId_toNat,plainId_toNat]
  simp only [UInt64.toNat_one,deliveryId]
  omega

variable (checkpoint : Checkpoint Offset)
section
variable (count : UInt64)

/-- The session after `n+1` one-event deliveries, each committed with its own token. -/
def plainIdle : Session Empty ScriptedStream where
  runtime := {CdcRuntime.started plainConfig checkpoint count none none (some ⟨⟩) with
    nextDeliveryId := plainId (n+1)
    commitBarrier := ⟨[],.committed,1,count⟩}
  deliveries := List.replicate (n+1) [plainEvent]
  committed := List.replicate (n+1) plainEvent
  issued := (List.range (n+1)).map fun i => ⟨⟨plainId i,1,0⟩,i,0⟩

def plainInFlight : Session Empty ScriptedStream where
  runtime := {CdcRuntime.started plainConfig checkpoint count none none (some ⟨⟩) with
    nextDeliveryId := plainId (n+2)
    deliveredNotCommitted := 1
    pendingDelivery := some ⟨plainId (n+1),[plainEvent],0,0⟩
    commitBarrier := ⟨[⟨some (.generic "custom" "1"),false⟩],.opened,1,count⟩}
  deliveries := List.replicate (n+2) [plainEvent]
  committed := List.replicate (n+1) plainEvent
  issued := (List.range (n+2)).map fun i => ⟨⟨plainId i,1,0⟩,i,0⟩

lemma plainIdle_poll : (plainIdle n checkpoint count).step (.poll (pollAnswers [plainEvent])) =
      plainInFlight n checkpoint count := by
  have hp : (plainIdle n checkpoint count).runtime.pollEventBatch (pollAnswers [plainEvent]) =
      some ((plainInFlight n checkpoint count).runtime,.ok ⟨[plainEvent],0,some ⟨plainId (n+1),1,0⟩⟩) := by
    unfold plainInFlight
    rw [← plainId_succ (n+1)]
    rfl
  simp only [step,hp,received]
  simp [plainIdle,plainInFlight,started,replicate_succ',range_succ]

/-- The record a commit of the plain event adds to the store. -/
def plainSaved : Checkpoint Offset := ⟨checkpoint.saved++[(.generic "custom" "1",count+1)]⟩
end
lemma plainInFlight_commit (co : UInt64) : (plainInFlight n checkpoint co).runtime.commitAck .release
        (.required ⟨plainId (n+1),1,0⟩) accepting =
      ((plainIdle (n+1) (plainSaved checkpoint co) (co+1)).runtime,.ok ()) := by
  simp only [commitAck,plainInFlight]
  rw [if_neg (by simp),if_neg (by simp)]
  rfl

lemma plainInFlight_ack (co : UInt64) : (plainInFlight n checkpoint co).step (.ack (n+1) none accepting) =
      plainIdle (n+1) (plainSaved checkpoint co) (co+1) := by
  have hp : (plainInFlight n checkpoint co).present (n+1) none = some ⟨⟨plainId (n+1),1,0⟩,n+1,0⟩ := by
    simp [present,plainInFlight]
  simp only [step,hp,plainInFlight_commit,acknowledged]
  simp [plainIdle,plainInFlight,started,CommitBarrier.pendingCount,commitWindow,
    uncommittedEvents,remaining,replicate_succ' (n := n+1)]

lemma plainIdle_reached : ∃ cs checkpoint count, run step plainStart cs = plainIdle n checkpoint count := by
  induction n with
  | zero =>
    exact ⟨[.poll (pollAnswers [plainEvent]),.ack 0 none accepting],plainSaved ⟨[]⟩ 0,1,rfl⟩
  | succ n ih =>
    obtain ⟨cs,checkpoint,count,hr⟩ := ih
    refine ⟨cs++[.poll (pollAnswers [plainEvent]),.ack (n+1) none accepting],plainSaved checkpoint count,count+1,?_⟩
    rw [run_append,hr,run_cons,run_cons,run_nil,plainIdle_poll,plainInFlight_ack]

/-- Once two consecutive deliveries share an id, the spent token of the first commits the second. -/
theorem plainInFlight_stale (co : UInt64) (hs : plainId n = plainId (n+1)) :
    let s := plainInFlight n checkpoint co
    let i : IssuedToken := ⟨⟨plainId n,1,0⟩,n,0⟩
    s.present n none = some i ∧ i.delivery+2 = s.deliveries.length ∧
      (s.runtime.commitAck .release (.required i.token) accepting).2 = .ok () ∧
      ¬ s.AckExact i accepting := by
  have hc := plainInFlight_commit n checkpoint co
  rw [← hs] at hc
  refine ⟨by simp [present,plainInFlight],by simp [plainInFlight],by rw [hc],?_⟩
  unfold AckExact
  rw [hc]
  -- the token was issued for the delivery before the last, whose event is already committed
  rintro (⟨⟨e,he⟩,_⟩ | ⟨_,hco,_⟩)
  · cases he
  · have hl := congrArg List.length hco
    simp [plainInFlight] at hl

/-- After `2^64` deliveries the ids have saturated: the token of the delivery before, already
committed, is accepted and commits the new one. -/
theorem stale_token_accepted : ∃ (calls : List (SessionCall Empty ScriptedStream)) (index : ℕ) (i : IssuedToken),
    let s := Machine.run step plainStart calls
    s.present index none = some i ∧ i.delivery+2 = s.deliveries.length ∧
      (s.runtime.commitAck .release (.required i.token) accepting).2 = .ok () ∧
      ¬ s.AckExact i accepting := by
  obtain ⟨n,hs⟩ : ∃ n, plainId n = plainId (n+1) := ⟨2^64,UInt64.toNat_inj.mp (by simp [plainId_toNat,deliveryId])⟩
  obtain ⟨calls,checkpoint,count,hr⟩ := plainIdle_reached n
  refine ⟨calls++[.poll (pollAnswers [plainEvent])],n,⟨⟨plainId n,1,0⟩,n,0⟩,?_⟩
  rw [Machine.run_append,hr,Machine.run_cons,Machine.run_nil,plainIdle_poll]
  exact plainInFlight_stale n checkpoint count hs
end Session
end Rustcdc
