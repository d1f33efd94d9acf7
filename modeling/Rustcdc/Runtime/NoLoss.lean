import Rustcdc.Runtime.Ack
import Rustcdc.Runtime.Flow

/-! No received event is lost.  A ledger lists what the caller is owed: what the stages made of
each received batch, or the batch's new events when a stage failed.  An owed event has to be
held or committed, or else be left for the source to send again. -/
namespace Rustcdc
open Machine Session
open CdcRuntime

/-- An event the caller is owed, with the received events it may have been made from. -/
structure Owed where
  event : Event
  sources : List Event

/-- `Settled seen c owed events`: each owed event is among the events, in order, of which the
first `c` are committed; or the source has sent it again; or it can be sent again, because the
guard has not recorded it and no event after it is committed. -/
inductive Settled (seen : Event → Prop) : ℕ → List Owed → List Event → Prop
  | done (c : ℕ) : Settled seen c [] []
  | held {c : ℕ} (x : Owed) {owed : List Owed} {events : List Event}
      (h : Settled seen (c-1) owed events) : Settled seen c (x::owed) (x.event::events)
  | replayed {c : ℕ} (x : Owed) {owed : List Owed} {events : List Event}
      (hagain : x.event ∈ owed.map (·.event)) (h : Settled seen c owed events) :
      Settled seen c (x::owed) events
  | replayable (x : Owed) {owed : List Owed} {events : List Event}
      (hunseen : ∀ e ∈ x.sources, ¬ seen e) (h : Settled seen 0 owed events) :
      Settled seen 0 (x::owed) events

namespace Settled
variable {seen : Event → Prop} {events : List Event} {o : List Owed}

lemma of_eq (h : events = o.map (·.event)) (c : ℕ) : Settled seen c o events := by
  subst h
  induction o generalizing c with
  | nil => exact .done c
  | cons x o ih => exact .held x (ih (c-1))

lemma first {c : ℕ} {x : Owed} (h : Settled seen c (x::o) events) :
    events.head? = some x.event ∨ x.event ∈ o.map (·.event) ∨ c = 0 := by
  cases h with
  | held => exact .inl rfl
  | replayed _ ha => exact .inr (.inl ha)
  | replayable => exact .inr (.inr rfl)
end Settled
namespace CdcRuntime
variable {S H : Type} [SnapshotHandle S] [StreamHandle H]

/-- The guard would suppress the event. -/
def seen (rt : CdcRuntime S H) (e : Event) : Bool :=
  match rt.idempotencyGuard, fingerprintEventTransient rt.config.hash e with
  | some guard, .ok fingerprint => eventIsIdentifiable e && guard.contains fingerprint
  | _, _ => false

variable [Handoff S H]

/-- What a received batch owes the caller. -/
def owedFor (rt : CdcRuntime S H) (answers : PollAnswers S H) (events : List Event) : List Owed :=
  let fresh := rt.unsuppressed answers.now events
  match (rt.stages answers.now answers.schemaHistory events).2 with
  | .ok transformed => transformed.map (⟨·,fresh⟩)
  | .error _ => fresh.map fun e => ⟨e,[e]⟩

lemma owedFor_safe {rt : CdcRuntime S H} {as : PollAnswers S H} {events : List Event}
    (hsa : rt.batchSafe as events = true) :
    (rt.owedFor as events).map (·.event) = (rt.passed as.now events).toOption.getD [] := by
  simp only [batchSafe,Bool.and_eq_true] at hsa
  obtain ⟨⟨hs,hfi⟩,hc⟩ := hsa
  obtain ⟨⟨⟩,hs⟩ := isOk_eq_true hs
  obtain ⟨g,ps,hfr⟩ := rt.filterIdempotentEvents_frame as.now events
  have hf := filterIdempotentEvents_cases hfi as.now
  simp only [owedFor,stages,hs]
  generalize rt.filterIdempotentEvents as.now events = filtered at hfr hf ⊢
  obtain ⟨rt₁,out⟩ := filtered
  simp only at hfr hf
  subst hfr
  rcases hf with rfl | ⟨hst,e,rfl⟩
  · have ht : ({rt with idempotencyGuard := g, unconfirmedStallPolls := ps} :
        CdcRuntime S H).applyTransforms (rt.unsuppressed as.now events) =
        rt.passed as.now events := rfl
    dsimp only
    rw [ht]
    cases hp : rt.passed as.now events with
    | error => simp [hp] at hc
    | ok => simp [Except.toOption,Function.comp_def]
  · simp [hst,passed,applyTransforms_nil,Except.toOption]
end CdcRuntime
/-- A runtime with what it owes and what has been committed. -/
structure Ledger (S H : Type) where
  runtime : CdcRuntime S H
  owed : List Owed
  committed : List Event

/-- A call: a poll, or a commit with any token whatever. -/
inductive RuntimeCall (S H : Type) [SnapshotHandle S] [StreamHandle H] [Handoff S H]
  | poll (answers : PollAnswers S H)
  | commit (token : AckToken) (answers : CommitAnswers)

namespace Ledger
variable {S H : Type} [SnapshotHandle S] [StreamHandle H] [Handoff S H]

def start (runtime : CdcRuntime S H) : Ledger S H := ⟨runtime,[],[]⟩

def step (s : Ledger S H) : RuntimeCall S H → Ledger S H
  | .poll answers =>
    match s.runtime.pollEventBatch answers with
    | none => s
    | some (runtime,_) =>
      {s with
        runtime := runtime
        owed := s.owed++match s.runtime.arrival answers with
          | none => []
          | some (rt,events) => rt.owedFor answers events}
  | .commit token answers =>
    let runtime := (s.runtime.commitAck .release (.required token) answers).1
    {s with
      runtime := runtime
      committed := s.committed++s.runtime.commitWindow (s.runtime.drained runtime)}

/-- No event is lost: whatever the caller is owed is settled. -/
def NoLoss (s : Ledger S H) : Prop :=
  Settled (s.runtime.seen · = true) s.committed.length s.owed (s.committed++s.runtime.held)

/-- Nothing fails between the source and the buffer in this call. -/
def Safe (s : Ledger S H) : RuntimeCall S H → Prop
  | .poll answers => s.runtime.pollSafe answers = true
  | .commit _ _ => True

instance (s : Ledger S H) (call : RuntimeCall S H) : Decidable (s.Safe call) := by
  unfold Safe
  split <;> infer_instance

/-- Between calls: the bookkeeping balances, the runtime runs, and nothing owed is missing. -/
structure Complete (s : Ledger S H) : Prop where
  balanced : s.runtime.core.Balanced
  running : s.runtime.state = .running
  whole : s.committed++s.runtime.held = s.owed.map (·.event)

variable {s : Ledger S H}

lemma Complete.poll (h : s.Complete) {as : PollAnswers S H}
    (hs : s.runtime.pollSafe as = true) : (s.step (.poll as)).Complete := by
  simp only [step]
  cases hr : s.runtime.pollEventBatch as with
  | none => exact h
  | some re =>
    obtain ⟨rn,r⟩ := re
    have hh := pollEventBatch_held h.balanced hs hr
    refine ⟨(pollEventBatch_poll h.balanced hr).1,(congrArg (·.2.1) (pollEventBatch_setup hr)).trans h.running,?_⟩
    rw [pollSafe,Bool.and_eq_true] at hs
    simp only [admitted] at hh ⊢
    rw [hh,← List.append_assoc,h.whole,List.map_append]
    cases ha : s.runtime.arrival as with
    | none => simp
    | some ar =>
      obtain ⟨rt,events⟩ := ar
      rw [ha] at hs
      simp only [owedFor_safe hs.2]

/-- Whatever becomes of a commit, what it moves out of the runtime is committed, in order. -/
lemma step_commit (hb : s.runtime.core.Balanced) (tk : AckToken) (as : CommitAnswers) :
    let s' := s.step (.commit tk as)
    s'.runtime.core.Balanced ∧ s'.runtime.state = s.runtime.state ∧
      s'.runtime.injectedEvents = s.runtime.injectedEvents ∧
      s'.committed++s'.runtime.held = s.committed++s.runtime.held := by
  have he := commitAck_effect hb tk as
  simp only [step]
  generalize (s.runtime.commitAck .release (.required tk) as).1 = runtime at he ⊢
  cases he with
  | refused _ hs =>
    have hc : runtime.core = s.runtime.core := by
      rw [← hs]
      rfl
    have hh : runtime.held = s.runtime.held := by
      rw [← hs]
      rfl
    refine ⟨hc ▸ hb,by rw [← hs],by rw [← hs],?_⟩
    rw [drained_refused hs,hh,commitWindow,List.take_zero,List.append_nil]
  | durable n _ hp hl hc hr =>
    refine ⟨hc ▸ hb.advance hp hl,congrArg Remainder.state hr,congrArg Remainder.injectedEvents hr,?_⟩
    rw [drained_durable hb hl hc,List.append_assoc,← held_durable hc hr]

lemma Complete.commit (h : s.Complete) (tk : AckToken) (as : CommitAnswers) : (s.step (.commit tk as)).Complete := by
  obtain ⟨hb,hr,_,hw⟩ := step_commit h.balanced tk as
  exact ⟨hb,hr.trans h.running,hw.trans h.whole⟩

lemma Complete.step {c : RuntimeCall S H} (h : s.Complete) (hs : s.Safe c) : (s.step c).Complete := by
  cases c with
  | poll => exact h.poll hs
  | commit tk as => exact h.commit tk as

omit [SnapshotHandle S] [StreamHandle H] [Handoff S H] in
lemma start_complete (cf : RuntimeConfig) (cp : Checkpoint Offset) (n : UInt64)
    (g : Option EventIdempotencyGuard) (sn : Option S) (st : Option H) :
    (start (CdcRuntime.started cf cp n g sn st)).Complete where
  balanced := started_balanced cf cp n g sn st
  running := rfl
  whole := rfl

/-- No received event is lost in a run whose polls do not fail between the source and the
buffer, whatever else fails: every event the caller is owed is settled, and under the split
policy the next poll with nothing in flight hands out the oldest events still held. -/
theorem no_event_lost (config : RuntimeConfig) (checkpoint : Checkpoint Offset) (count : UInt64)
    (guard : Option EventIdempotencyGuard) (snapshot : Option S) (stream : Option H)
    (calls : List (RuntimeCall S H))
    (hsafe : Meets step Safe (start (CdcRuntime.started config checkpoint count guard snapshot stream)) calls) :
    let s := run step (start (CdcRuntime.started config checkpoint count guard snapshot stream)) calls
    s.NoLoss ∧ ∀ answers, s.runtime.config.options.transactionBoundary = .split →
        s.runtime.pendingDelivery = none → s.runtime.held ≠ [] → s.Safe (.poll answers) →
        ∃ runtime batch, s.runtime.pollEventBatch answers = some (runtime,.ok batch) ∧
          batch.visible ≠ [] ∧ batch.visible <+: s.runtime.held := by
  intro s
  have hc : s.Complete := run_invariant_of_meets step (fun _ _ h hsafe => h.step hsafe)
    (start_complete config checkpoint count guard snapshot stream) hsafe
  refine ⟨Settled.of_eq hc.whole _,fun answers hs hn hne hp => ?_⟩
  simp only [Safe,pollSafe,Bool.and_eq_true] at hp
  exact pollEventBatch_delivers hc.balanced hc.running hs hn hne hp.1

/-- Two-event buffers with validation on; the guard hashes an event's offset. -/
def guardedConfig : RuntimeConfig := {plainConfig with
    options := {pairOptions with validateEvents := true}
    hash := fun image => UInt64.ofNat image.offset.toList.length}

def offsetEvent (offset : String) : Event := {plainEvent with
    source := ⟨"custom",offset,1⟩
    transaction := some ⟨1,none,0⟩}

/-- An insert without a row image does not validate. -/
def invalidEvent (offset : String) : Event := {offsetEvent offset with after := none}

def guardedStart : Ledger Empty ScriptedStream :=
  start (CdcRuntime.started guardedConfig ⟨[]⟩ 0 (some ⟨16,none,[],[]⟩) none (some ⟨⟩))

/-- Three events in two deliveries: the first committed, the write for the second refused. -/
def safeCalls : List (RuntimeCall Empty ScriptedStream) :=
  [.poll (pollAnswers [offsetEvent "1",offsetEvent "22",offsetEvent "333"]),
    .commit ⟨1,2,0⟩ accepting,.poll (pollAnswers []),
    .commit ⟨2,1,0⟩ ⟨.ok (),.error (.checkpointError "disk full"),.ok ()⟩]

theorem no_event_lost_sample :
    let s := run step guardedStart safeCalls
    s.committed = [offsetEvent "1",offsetEvent "22"] ∧ s.runtime.held = [offsetEvent "333"] ∧ s.NoLoss := by
  have hs : Meets step Safe guardedStart safeCalls := by decide
  have h := no_event_lost (S := Empty) (H := ScriptedStream) guardedConfig ⟨[]⟩ 0
    (some ⟨16,none,[],[]⟩) none (some ⟨⟩) safeCalls hs
  exact ⟨by decide,by decide,h.1⟩

/-- A batch whose first event does not validate, then a batch that is delivered and committed. -/
def failingCalls : List (RuntimeCall Empty ScriptedStream) :=
  [.poll (pollAnswers [invalidEvent "1",offsetEvent "22"]),
    .poll (pollAnswers [offsetEvent "333"]),.commit ⟨1,1,0⟩ accepting]

/-- The valid event of the failed batch is gone: it is not held, the guard will suppress it if
the source sends it again, and an event after it is committed. -/
theorem failed_poll_loses_event :
    let s := run step guardedStart failingCalls
    s.owed.map (·.event) = [invalidEvent "1",offsetEvent "22",offsetEvent "333"] ∧
      s.committed = [offsetEvent "333"] ∧ s.runtime.held = [] ∧
      s.runtime.seen (offsetEvent "22") = true ∧ ¬ s.NoLoss := by
  refine ⟨by decide,by decide,by decide,by decide,fun h => ?_⟩
  have ho : ∃ x rest, (run step guardedStart failingCalls).owed = x::rest ∧
      x.event = invalidEvent "1" ∧ invalidEvent "1" ∉ rest.map (·.event) :=
    ⟨_,_,rfl,by decide,by decide⟩
  obtain ⟨x,rest,ho,hx,hr⟩ := ho
  rw [NoLoss,ho] at h
  rcases h.first with hh | ha | hz
  · rw [hx] at hh
    cases hh
  · exact hr (hx ▸ ha)
  · cases hz
end Ledger
end Rustcdc
