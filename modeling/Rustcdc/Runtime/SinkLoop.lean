import Rustcdc.Runtime.Drain

/-! `run_to_completion`: the built-in loop that polls, sends, flushes and only then acknowledges.  A
trace keeps what the sink took and what became committed, over any number of runs with polls and
commits of the caller's own between them. -/
namespace Rustcdc
open List CdcRuntime Session
variable {S H : Type} [SnapshotHandle S] [StreamHandle H] [Handoff S H]

/-- What one turn of the loop meets.  The sink refuses the event at an index of the batch with the
error `send` gives for it. -/
structure Turn (S H : Type) [SnapshotHandle S] [StreamHandle H] [Handoff S H] where
  poll : PollAnswers S H
  send : ℕ → Option Error
  flush : Except Error Unit
  commit : CommitAnswers

/-- What is done, in order.  From `committing` until the call ends the store may be written to, for
the acknowledgement of the batch it names. -/
inductive SinkAct
  | delivered (events : List Event)
  | sent (event : Event)
  | flushed
  | committing (batch : List Event)
  | committed (events : List Event)
  | acknowledged (events : List Event)

/-- The events the sink takes of a batch, and its refusal of the next. -/
def sendEvents (send : ℕ → Option Error) : ℕ → List Event → List Event × Option Error
  | _, [] => ([],none)
  | i, event::events =>
    match send i with
    | some e => ([],some e)
    | none => (event::(sendEvents send (i+1) events).1,(sendEvents send (i+1) events).2)

lemma sendEvents_all {send : ℕ → Option Error} {i : ℕ} {events : List Event}
    (h : (sendEvents send i events).2 = none) : (sendEvents send i events).1 = events := by
  induction events generalizing i with
  | nil => rfl
  | cons e events ih =>
    rw [sendEvents] at h ⊢
    cases hs : send i with
    | some =>
      rw [hs] at h
      cases h
    | none =>
      rw [hs] at h
      rw [ih h]

lemma take_prefix_sendEvents {send : ℕ → Option Error} {i n : ℕ} (events : List Event)
    (h : ∀ j < n, send (i+j) = none) : events.take n <+: (sendEvents send i events).1 := by
  induction n generalizing i events with
  | zero => exact nil_prefix
  | succ n ih =>
    cases events with
    | nil => exact nil_prefix
    | cons e events =>
      rw [sendEvents,show send i = none from h 0 (Nat.succ_pos n),take_succ_cons]
      refine prefix_cons_inj e |>.mpr (ih events fun j hj => ?_)
      rw [show i+1+j = i+(j+1) by omega]
      exact h (j+1) (by omega)

lemma sendEvents_none {send : ℕ → Option Error} {i : ℕ} {events : List Event}
    (h : ∀ j < events.length, send (i+j) = none) : (sendEvents send i events).2 = none := by
  induction events generalizing i with
  | nil => rfl
  | cons e events ih =>
    rw [sendEvents,show send i = none from h 0 (Nat.succ_pos _)]
    refine ih fun j hj => ?_
    rw [show i+1+j = i+(j+1) by omega]
    exact h (j+1) (Nat.succ_lt_succ hj)

structure SinkTrace (S H : Type) where
  runtime : CdcRuntime S H
  acts : List SinkAct

namespace SinkTrace
def start (runtime : CdcRuntime S H) : SinkTrace S H := ⟨runtime,[]⟩

variable (t : SinkTrace S H)

/-- A poll's batch; it is a new delivery unless one was in flight. -/
def received (runtime : CdcRuntime S H) (batch : EventBatch) : SinkTrace S H :=
  ⟨runtime,t.acts++if t.runtime.pendingDelivery.isSome then [] else [.delivered batch.visible]⟩

/-- The events a call took from the barrier. -/
def released (runtime : CdcRuntime S H) : List Event := t.runtime.commitWindow (t.runtime.drained runtime)

def acknowledge (batch : EventBatch) (answers : CommitAnswers) : SinkTrace S H × Ending Unit :=
  let result := t.runtime.commitAck .release batch.ackMode answers
  (⟨result.1,t.acts++[.committing batch.visible,.committed (t.released result.1)]⟩,result.2)

/-- One turn, with the number of events it delivered; nothing if the poll does not return. -/
def turn (a : Turn S H) : SinkTrace S H × Option (Ending ℕ) :=
  match t.runtime.pollEventBatch a.poll with
  | none => (t,none)
  | some (runtime,.error e) => (⟨runtime,t.acts⟩,some (.err e))
  | some (runtime,.ok batch) =>
    let t := t.received runtime batch
    if batch.isEmpty then (t,some (.ok 0))
    else
      let taken := sendEvents a.send 0 batch.visible
      let t : SinkTrace S H := ⟨t.runtime,t.acts++taken.1.map .sent⟩
      match taken.2, a.flush with
      | some e, _ => (t,some (.err e))
      | none, .error e => (t,some (.err e))
      | none, .ok () =>
        match acknowledge ⟨t.runtime,t.acts++[.flushed]⟩ batch a.commit with
        | (t,.ok ()) => (t,some (.ok batch.visible.length))
        | (t,.err e) => (t,some (.err e))
        | (t,.panicked) => (t,some .panicked)

/-- The loop, until it fails or sees the shutdown between two polls. -/
def runSinkLoop (t : SinkTrace S H) (delivered : UInt64) : List (Turn S H) → SinkTrace S H × Option (Ending UInt64)
  | [] => (t,some (.ok delivered))
  | a::turns =>
    match t.turn a with
    | (t,some (.ok count)) =>
      runSinkLoop t (saturatingAdd delivered (UInt64.ofNat count)) turns
    | (t,some (.err e)) => (t,some (.err e))
    | (t,some .panicked) => (t,some .panicked)
    | (t,none) => (t,none)

def runToCompletion (registeredSink : Bool) (turns : List (Turn S H)) : SinkTrace S H × Option (Ending UInt64) :=
  if registeredSink then t.runSinkLoop 0 turns
  else (t,some (.err (.configError ("run_to_completion needs a sink to deliver to; call "++
    "CdcRuntime::register_sink(...) before start(), or drive poll_event_batch/commit_ack yourself"))))
end SinkTrace
inductive SinkCall (S H : Type) [SnapshotHandle S] [StreamHandle H] [Handoff S H]
  | poll (answers : PollAnswers S H)
  | commit (token : AckToken) (answers : CommitAnswers)
  | run (registeredSink : Bool) (turns : List (Turn S H))

def SinkTrace.step (t : SinkTrace S H) : SinkCall S H → SinkTrace S H
  | .poll answers =>
    match t.runtime.pollEventBatch answers with
    | none => t
    | some (runtime,.error _) => ⟨runtime,t.acts⟩
    | some (runtime,.ok batch) => t.received runtime batch
  | .commit token answers =>
    let runtime := (t.runtime.commitAck .release (.required token) answers).1
    ⟨runtime,t.acts++[.acknowledged (t.released runtime)]⟩
  | .run registeredSink turns => (t.runToCompletion registeredSink turns).1
section
namespace SinkAct
def delivers : SinkAct → List Event
  | .delivered events => events
  | _ => []
def sends : SinkAct → List Event
  | .sent event => [event]
  | _ => []
def commits : SinkAct → List Event
  | .committed events => events
  | _ => []

/-- What was committed, by the loop or by the caller. -/
def settles : SinkAct → List Event
  | .committed events | .acknowledged events => events
  | _ => []
end SinkAct
open SinkAct

@[simp] lemma sends_map (events : List Event) : (events.map SinkAct.sent).flatMap sends = events := by
  induction events with
  | nil => rfl
  | cons e events ih => rw [map_cons,flatMap_cons,ih]; rfl

lemma sent_quiet {f : SinkAct → List Event} (hf : ∀ e, f (.sent e) = [])
    (es : List Event) : (es.map SinkAct.sent).flatMap f = [] := by
  simp [hf]

@[simp] lemma delivers_map (es : List Event) :
    (es.map SinkAct.sent).flatMap delivers = [] := sent_quiet (fun _ => rfl) es
@[simp] lemma commits_map (es : List Event) :
    (es.map SinkAct.sent).flatMap commits = [] := sent_quiet (fun _ => rfl) es
@[simp] lemma settles_map (es : List Event) :
    (es.map SinkAct.sent).flatMap settles = [] := sent_quiet (fun _ => rfl) es

/-- All of `events` was sent, in this order, and a flush came after the last thing sent. -/
def FlushedAfter (acts : List SinkAct) (events : List Event) : Prop :=
  ∃ before after, acts = before++ .flushed::after ∧ after.flatMap sends = [] ∧
    List.Sublist events (before.flatMap sends)

/-- Whenever an acknowledgement begins, all that was committed and the batch it is for are with the
sink. -/
def SentFirst (acts : List SinkAct) : Prop := ∀ before batch, before++[.committing batch] <+: acts →
    FlushedAfter before (before.flatMap commits++batch)

lemma SentFirst.concat {acts : List SinkAct} (h : SentFirst acts) {act : SinkAct}
    (ha : ∀ batch, act = .committing batch → FlushedAfter acts (acts.flatMap commits++batch)) :
    SentFirst (acts++[act]) := by
  intro b batch hp
  rcases prefix_concat_iff.mp hp with hl | he
  · obtain ⟨hb,hl⟩ := append_inj' hl rfl
    rw [hb]
    exact ha batch (List.cons.inj hl).1.symm
  · exact h b batch he

lemma SentFirst.append {acts m : List SinkAct} (h : SentFirst acts)
    (hq : ∀ batch, .committing batch ∉ m) : SentFirst (acts++m) := by
  induction m using List.reverseRecOn with
  | nil => simpa using h
  | append_singleton m act ih =>
    rw [← append_assoc]
    refine (ih fun batch hm => hq batch (mem_append_left _ hm)).concat ?_
    rintro batch rfl
    exact absurd (mem_append_right _ (mem_singleton.mpr rfl)) (hq batch)

namespace SinkTrace
structure Ordered (t : SinkTrace S H) : Prop where
  balanced : t.runtime.core.Balanced
  settled : t.acts.flatMap settles++t.runtime.uncommittedEvents = t.acts.flatMap delivers
  covered : List.Sublist (t.acts.flatMap commits) (t.acts.flatMap sends)
  sentFirst : SentFirst t.acts

variable {t : SinkTrace S H}

omit [SnapshotHandle S] [StreamHandle H] [Handoff S H] in
lemma uncommitted_of_pending {rt rt' : CdcRuntime S H}
    (h : rt'.pendingDelivery = rt.pendingDelivery) : rt'.uncommittedEvents = rt.uncommittedEvents := by
  rw [uncommittedEvents,uncommittedEvents,h]

variable {runtime : CdcRuntime S H} {batch : EventBatch} {answers : PollAnswers S H}

lemma Ordered.failed (h : t.Ordered) {e : Error} (hr : t.runtime.pollEventBatch answers = some (runtime,.error e)) :
    Ordered ⟨runtime,t.acts⟩ := by
  obtain ⟨hb,-,ho⟩ := pollEventBatch_poll h.balanced hr
  refine ⟨hb,?_,h.covered,h.sentFirst⟩
  cases ho with
  | failed e hp => rw [uncommitted_of_pending hp]; exact h.settled

lemma poll_uncommitted {rt : CdcRuntime S H} (hb : rt.core.Balanced)
    (hr : rt.pollEventBatch answers = some (runtime,.ok batch)) :
    batch.visible = runtime.uncommittedEvents ∧
      (rt.pendingDelivery.isSome = true → runtime.uncommittedEvents = rt.uncommittedEvents) ∧
      (rt.pendingDelivery.isSome = false → rt.uncommittedEvents = []) := by
  obtain ⟨-,-,ho⟩ := pollEventBatch_poll hb hr
  have hi : rt.pendingDelivery = none → rt.uncommittedEvents = [] := by
    intro hn
    rw [uncommittedEvents,hn]
  cases ho with
  | redelivered pending hp hc =>
    have hp' : rt.pendingDelivery = some pending := hp
    have hsa : runtime.pendingDelivery = rt.pendingDelivery := congrArg DeliveryCore.pendingDelivery hc
    have hu := uncommitted_of_pending hsa
    refine ⟨?_,fun _ => hu,fun hn => ?_⟩
    · rw [hu,uncommittedEvents,hp']
      rfl
    · rw [hp'] at hn
      cases hn
  | nothing hn hn' =>
    have hn : rt.pendingDelivery = none := hn
    have hn' : runtime.pendingDelivery = none := hn'
    refine ⟨?_,fun hs => ?_,fun _ => hi hn⟩
    · rw [uncommittedEvents,hn']
      rfl
    · rw [hn] at hs
      cases hs
  | delivered es hne hn hp =>
    have hn : rt.pendingDelivery = none := hn
    have hp : runtime.pendingDelivery = _ := hp
    refine ⟨?_,fun hs => ?_,fun _ => hi hn⟩
    · rw [uncommittedEvents,hp]
      rfl
    · rw [hn] at hs
      cases hs

lemma Ordered.received (h : t.Ordered) (hr : t.runtime.pollEventBatch answers = some (runtime,.ok batch)) :
    (t.received runtime batch).Ordered := by
  obtain ⟨hv,hso,hn⟩ := poll_uncommitted h.balanced hr
  have hb : runtime.core.Balanced := (pollEventBatch_poll h.balanced hr).1
  have hs := h.settled
  rw [SinkTrace.received]
  cases hp : t.runtime.pendingDelivery.isSome with
  | true =>
    refine ⟨hb,?_,by simpa using h.covered,by simpa using h.sentFirst⟩
    rw [hso hp]
    simpa using hs
  | false =>
    rw [hn hp,append_nil] at hs
    refine ⟨hb,?_,?_,h.sentFirst.append (by simp)⟩
    · simp [settles,delivers,hs,hv]
    · simpa [commits,sends] using h.covered

omit [SnapshotHandle S] [StreamHandle H] [Handoff S H] in
lemma Ordered.sent (h : t.Ordered) (es : List Event) : Ordered ⟨t.runtime,t.acts++es.map .sent⟩ := by
  refine ⟨h.balanced,?_,?_,h.sentFirst.append (by simp)⟩
  · simpa using h.settled
  · simpa using h.covered.trans (sublist_append_left _ es)

omit [Handoff S H] in
lemma released_append (h : t.runtime.core.Balanced) (mode : AckMode) (answers : CommitAnswers) :
    (t.runtime.commitAck .release mode answers).1.core.Balanced ∧
      t.released (t.runtime.commitAck .release mode answers).1++
        (t.runtime.commitAck .release mode answers).1.uncommittedEvents = t.runtime.uncommittedEvents := by
  cases mode with
  | notRequired => exact ⟨h,by simp [commitAck,released,drained,commitWindow]⟩
  | required tk =>
    have he := commitAck_effect h tk answers
    generalize (t.runtime.commitAck .release (.required tk) answers).1 = rt' at he
    cases he with
    | refused rt' hs =>
      have hc : rt'.core = t.runtime.core := by
        rw [← hs]
        rfl
      have hp : rt'.pendingDelivery = t.runtime.pendingDelivery := congrArg DeliveryCore.pendingDelivery hc
      refine ⟨hc ▸ h,?_⟩
      rw [released,drained_refused hs,uncommitted_of_pending hp]
      rfl
    | durable n rt' hpo hl hc =>
      refine ⟨hc ▸ h.advance hpo hl,?_⟩
      rw [released,drained_durable h hl hc,commitWindow,uncommittedEvents_advance hc,take_append_drop]

omit [Handoff S H] in
lemma Ordered.acknowledge (h : t.Ordered) (hv : batch.visible = t.runtime.uncommittedEvents)
    (hf : FlushedAfter t.acts (t.acts.flatMap commits++batch.visible))
    (answers : CommitAnswers) : (t.acknowledge batch answers).1.Ordered := by
  obtain ⟨hba,hr⟩ := released_append h.balanced batch.ackMode answers
  refine ⟨hba,?_,?_,?_⟩
  · simp [SinkTrace.acknowledge,settles,delivers,hr,h.settled]
  · obtain ⟨bef,a,hac,ha,hse⟩ := hf
    have hp : List.Sublist (t.released (t.runtime.commitAck .release batch.ackMode answers).1) batch.visible := by
      rw [hv,← hr]
      exact sublist_append_left _ _
    have hs : t.acts.flatMap sends = bef.flatMap sends := by
      rw [hac]
      simp [ha,sends]
    simp only [SinkTrace.acknowledge,flatMap_append,flatMap_cons,flatMap_nil,commits,sends,nil_append,append_nil,hs]
    exact (hp.append_left _).trans hse
  · have hc : SentFirst (t.acts++[.committing batch.visible]) := by
      refine h.sentFirst.concat fun b hb => ?_
      rw [← SinkAct.committing.inj hb]
      exact hf
    have hbo : SentFirst (t.acts++[.committing batch.visible]++[.committed
        (t.released (t.runtime.commitAck .release batch.ackMode answers).1)]) :=
      hc.append (by simp)
    simpa [SinkTrace.acknowledge] using hbo

lemma Ordered.turn (h : t.Ordered) (a : Turn S H) : (t.turn a).1.Ordered := by
  rw [SinkTrace.turn]
  cases hre : t.runtime.pollEventBatch a.poll with
  | none => exact h
  | some re =>
    obtain ⟨runtime,r⟩ := re
    cases r with
    | error => exact h.failed hre
    | ok batch =>
      have hr := h.received hre
      have hv := (poll_uncommitted h.balanced hre).1
      generalize ht : t.received runtime batch = t' at hr
      have hru : t'.runtime = runtime := by rw [← ht]; rfl
      dsimp only
      rw [ht]
      split
      · exact hr
      · have hs := hr.sent (sendEvents a.send 0 batch.visible).1
        split
        · exact hs
        · exact hs
        · rename_i hal hfl
          rw [sendEvents_all hal] at hs ⊢
          -- the whole batch is with the sink, after all that was sent for earlier ones
          have ho : Ordered ⟨t'.runtime,t'.acts++batch.visible.map .sent++[.flushed]⟩ := by
            refine ⟨hs.balanced,?_,?_,hs.sentFirst.append (by simp)⟩
            · simpa [settles,delivers] using hs.settled
            · simpa [commits,sends] using hs.covered
          have hf : FlushedAfter (t'.acts++batch.visible.map SinkAct.sent++[SinkAct.flushed])
              ((t'.acts++batch.visible.map SinkAct.sent++[SinkAct.flushed]).flatMap commits++ batch.visible) := by
            refine ⟨_,[],rfl,rfl,?_⟩
            simpa [commits] using hr.covered.append (List.Sublist.refl batch.visible)
          have ha := ho.acknowledge (by rw [hv,hru]) hf a.commit
          split <;> rename_i he <;> rw [he] at ha <;> exact ha

lemma Ordered.runSinkLoop (h : t.Ordered) (delivered : UInt64) (turns : List (Turn S H)) :
    (t.runSinkLoop delivered turns).1.Ordered := by
  induction turns generalizing t delivered with
  | nil => exact h
  | cons a turns ih =>
    have ht := h.turn a
    rw [SinkTrace.runSinkLoop]
    split <;> rename_i he <;> rw [he] at ht
    · exact ih ht _
    · exact ht
    · exact ht
    · exact ht

lemma Ordered.step (h : t.Ordered) (c : SinkCall S H) : (t.step c).Ordered := by
  cases c with
  | poll answers =>
    rw [SinkTrace.step]
    cases hre : t.runtime.pollEventBatch answers with
    | none => exact h
    | some re =>
      obtain ⟨runtime,r⟩ := re
      cases r with
      | error => exact h.failed hre
      | ok => exact h.received hre
  | commit tk answers =>
    obtain ⟨hb,hr⟩ := released_append h.balanced (.required tk) answers
    refine ⟨hb,?_,?_,h.sentFirst.append (by simp)⟩
    · simp [SinkTrace.step,settles,delivers,hr,h.settled]
    · simpa [SinkTrace.step,commits,sends] using h.covered
  | run registeredSink turns =>
    rw [SinkTrace.step,runToCompletion]
    split
    · exact h.runSinkLoop 0 turns
    · exact h

lemma turn_extends (t : SinkTrace S H) (a : Turn S H) : t.acts <+: (t.turn a).1.acts := by
  rw [SinkTrace.turn]
  split
  · exact prefix_rfl
  · exact prefix_rfl
  · dsimp only
    split
    · exact prefix_append _ _
    · split
      · exact (prefix_append _ _).trans (prefix_append _ _)
      · exact (prefix_append _ _).trans (prefix_append _ _)
      · have hp : ∀ more, t.acts <+: t.acts++more := prefix_append _
        split <;> rename_i he <;> rw [← congrArg Prod.fst he] <;>
          simp only [SinkTrace.acknowledge,SinkTrace.received,append_assoc] <;> exact hp _

lemma runSinkLoop_extends (t : SinkTrace S H) (delivered : UInt64) (turns : List (Turn S H)) :
    t.acts <+: (t.runSinkLoop delivered turns).1.acts := by
  induction turns generalizing t delivered with
  | nil => exact prefix_rfl
  | cons a turns ih =>
    have ht := t.turn_extends a
    rw [SinkTrace.runSinkLoop]
    split <;> rename_i he <;> rw [he] at ht
    · exact ht.trans (ih _ _)
    · exact ht
    · exact ht
    · exact ht

lemma runSinkLoop_cons_extends (t : SinkTrace S H) (delivered : UInt64) (a : Turn S H) (turns : List (Turn S H)) :
    (t.turn a).1.acts <+: (t.runSinkLoop delivered (a::turns)).1.acts := by
  rw [SinkTrace.runSinkLoop]
  split <;> rename_i he <;> rw [he]
  · exact runSinkLoop_extends _ _ _

/-- The number of events delivered so far decides nothing. -/
lemma runSinkLoop_delivered (t : SinkTrace S H) (d d' : UInt64) (turns : List (Turn S H)) :
    (t.runSinkLoop d turns).1 = (t.runSinkLoop d' turns).1 := by
  induction turns generalizing t d d' with
  | nil => rfl
  | cons a turns ih =>
    rw [SinkTrace.runSinkLoop,SinkTrace.runSinkLoop]
    split
    · exact ih _ _ _
    · rfl
    · rfl
    · rfl

/-- What a turn does with the batch its poll returned. -/
lemma turn_batch {a : Turn S H}
    (hr : t.runtime.pollEventBatch a.poll = some (runtime,.ok batch)) (hne : batch.visible ≠ []) :
    ∃ received, received.flatMap sends = [] ∧
      (t.acts++received++(sendEvents a.send 0 batch.visible).1.map .sent) <+: (t.turn a).1.acts ∧
      ((sendEvents a.send 0 batch.visible).2 = none → a.flush = .ok () →
        (t.turn a).1.acts = t.acts++received++batch.visible.map .sent++[.flushed,.committing batch.visible,
          .committed ((⟨runtime,[]⟩ : SinkTrace S H).released (runtime.commitAck .release batch.ackMode a.commit).1)]) := by
  have he : batch.isEmpty = false := by simpa [EventBatch.isEmpty] using hne
  obtain ⟨received,hre,hq⟩ : ∃ received, (t.received runtime batch).acts = t.acts++received ∧
      received.flatMap sends = [] := ⟨_,rfl,by split <;> rfl⟩
  refine ⟨received,hq,?_⟩
  rw [SinkTrace.turn,hr]
  simp only [he,Bool.false_eq_true,if_false,hre]
  constructor
  · split
    · exact prefix_rfl
    · exact prefix_rfl
    · split <;> rename_i hac <;> rw [← congrArg Prod.fst hac] <;>
        simp only [SinkTrace.acknowledge,append_assoc,prefix_append_right_inj,prefix_append]
  · intro hs hf
    rw [hs,hf]
    dsimp only
    split <;> rename_i hac <;> rw [← congrArg Prod.fst hac] <;>
      simp [SinkTrace.acknowledge,SinkTrace.received,sendEvents_all hs,SinkTrace.released]

/-- An acknowledgement that ends well commits the whole batch. -/
lemma released_all {rt : CdcRuntime S H} (hb : rt.core.Balanced)
    (hr : rt.pollEventBatch answers = some (runtime,.ok batch)) (hne : batch.visible ≠ []) {commit : CommitAnswers}
    (hok : (runtime.commitAck .release batch.ackMode commit).2 = .ok ()) :
    (⟨runtime,[]⟩ : SinkTrace S H).released (runtime.commitAck .release batch.ackMode commit).1 = batch.visible := by
  have hp := pollEventBatch_poll hb hr
  obtain ⟨hv,tk,hm,hc,hpo⟩ := polled_batch hp (by simpa [EventBatch.isEmpty] using hne)
  rw [hm] at hok ⊢
  rw [hv]
  exact committed_window hp.1 hc hpo hok

/-- What a run does first: it sends the batch its first poll returns up to the first refusal, and if
there is none and the flush succeeds it acknowledges the batch, which commits all of it unless that
fails.  After a turn that ends well the run goes on as a run does. -/
structure Delivers (t : SinkTrace S H) : Prop where
  sends : ∀ (a : Turn S H) turns runtime batch, t.runtime.pollEventBatch a.poll = some (runtime,.ok batch) →
    batch.visible ≠ [] → ∃ acts, (t.step (.run true (a::turns))).acts = t.acts++acts ∧
      (∀ n, (∀ i < n, a.send i = none) → batch.visible.take n <+: acts.flatMap SinkAct.sends) ∧
      ((∀ i < batch.visible.length, a.send i = none) → a.flush = .ok () → .committing batch.visible ∈ acts ∧
        ((runtime.commitAck .release batch.ackMode a.commit).2 = .ok () → .committed batch.visible ∈ acts))
  goesOn : ∀ (a : Turn S H) turns count, (t.runToCompletion true [a]).2 = some (.ok count) →
    t.step (.run true (a::turns)) = (t.step (.run true [a])).step (.run true turns)

lemma Ordered.delivers (h : t.Ordered) : t.Delivers := by
  refine ⟨fun a turns runtime batch hr hne => ?_,fun a turns count hok => ?_⟩
  · obtain ⟨received,hq,hs,hc⟩ := turn_batch hr hne
    have hx := t.runSinkLoop_cons_extends 0 a turns
    obtain ⟨more,hm⟩ := hs.trans hx
    refine ⟨received++(sendEvents a.send 0 batch.visible).1.map .sent++more,?_,fun n hn => ?_,fun hn hf => ?_⟩
    · rw [← append_assoc,← append_assoc]
      exact hm.symm
    · simp only [flatMap_append,hq,nil_append,sends_map]
      exact (take_prefix_sendEvents _ (by simpa using hn)).trans (prefix_append _ _)
    · have hno := @sendEvents_none a.send 0 batch.visible (by simpa using hn)
      have hp := hc hno hf ▸ hx
      rw [sendEvents_all hno] at hm ⊢
      have hl : (t.runSinkLoop 0 (a::turns)).1.acts = t.acts++received++batch.visible.map .sent++more := hm.symm
      rw [hl,prefix_append_right_inj] at hp
      refine ⟨mem_append_right _ (hp.subset (by simp)),fun hok => mem_append_right _ (hp.subset ?_)⟩
      rw [released_all h.balanced hr hne hok]
      simp
  · change (t.runSinkLoop 0 (a::turns)).1 = ((t.runSinkLoop 0 [a]).1.runSinkLoop 0 turns).1
    have hok' : (t.runSinkLoop 0 [a]).2 = some (.ok count) := hok
    rw [SinkTrace.runSinkLoop] at hok' ⊢
    rw [SinkTrace.runSinkLoop]
    split at hok'
    · exact runSinkLoop_delivered _ _ _ _
    · cases hok'
    · cases hok'
    · cases hok'

/-- The order of the built-in loop, with the caller's own polls and commits between its runs: when a run
begins to acknowledge a batch, the only time it may write to the store, the sink has taken all the runs
committed before and then the batch, in the order of delivery, and a flush came after.  What is
committed, followed by what is in flight, is what was delivered, and a poll shows all that is in flight
again. -/
theorem sink_loop_ordered (config : RuntimeConfig) (checkpoint : Checkpoint Offset) (count : UInt64)
    (guard : Option EventIdempotencyGuard) (snapshot : Option S) (stream : Option H)
    (calls : List (SinkCall S H)) :
    let t := Machine.run step (start (CdcRuntime.started config checkpoint count guard snapshot stream)) calls
    (∀ before batch, before++[.committing batch] <+: t.acts → FlushedAfter before (before.flatMap commits++batch)) ∧
    List.Sublist (t.acts.flatMap commits) (t.acts.flatMap sends) ∧
    t.acts.flatMap settles++t.runtime.uncommittedEvents = t.acts.flatMap delivers ∧
    t.Delivers ∧ ∀ answers result, t.runtime.pollEventBatch answers = some result → result.1.checkpoint = t.runtime.checkpoint ∧
      ∀ batch, result.2 = .ok batch → t.runtime.uncommittedEvents ≠ [] →
        batch.visible = t.runtime.uncommittedEvents := by
  intro t
  have ho : t.Ordered := by
    refine Machine.run_invariant _ (fun t call h => h.step call) ?_ calls
    exact ⟨started_balanced config checkpoint count guard snapshot stream,rfl,
      List.Sublist.refl _,fun before batch hpr => by simp [start] at hpr⟩
  refine ⟨ho.sentFirst,ho.covered,ho.settled,ho.delivers,fun answers result hr => ⟨?_,?_⟩⟩
  · exact congrArg (fun setup => setup.2.2) (pollEventBatch_setup hr)
  · intro batch hok hne
    obtain ⟨runtime,r⟩ := result
    obtain rfl : r = .ok batch := hok
    obtain ⟨hv,hs,hn⟩ := poll_uncommitted ho.balanced hr
    cases hp : t.runtime.pendingDelivery.isSome with
    | true => rw [hv,hs hp]
    | false => exact absurd (hn hp) hne
end SinkTrace
end
end Rustcdc
