import Rustcdc.Runtime.Withhold

/-! `stop` and `drain_and_stop`: every batch is committed as it is drained, and the drained events
are handed over when the runtime has stopped. -/
namespace Rustcdc.CdcRuntime
open Session
variable {S H : Type} [SnapshotHandle S] [StreamHandle H]

/-- The error of a stop with events that are not committed. -/
def uncommittedError (pending : ℕ) : Error := .stateError ("runtime has "++toString pending++
    " uncommitted events; commit acknowledgements before stop or call force_stop()")

/-- `stop`; the answer is that of the registered sink to its close, if there is a sink. -/
def stop (rt : CdcRuntime S H) (sinkClose : Option (Except Error Unit)) :
    CdcRuntime S H × Except Error (List Event) :=
  match rt.state with
  | .idle | .stopped => ({rt with state := .stopped},.ok [])
  | .stopping => (rt,.error (.stateError "runtime already stopping"))
  | .running =>
    let pending := rt.commitBarrier.pendingCount+rt.injectedEvents.length+ rt.pendingSourceEvents.length
    if 0 < pending then (rt,.error (uncommittedError pending))
    else
      ({rt with
        state := .stopped
        deliveredNotCommitted := 0
        pendingDelivery := none
        snapshot := none
        stream := none},
        match sinkClose with
        | some (.error e) => .error e
        | _ => .ok [])

variable [Handoff S H]

/-- What the environment answers to one turn of the drain loop. -/
structure DrainRound (S H : Type) [SnapshotHandle S] [StreamHandle H] [Handoff S H] where
  poll : PollAnswers S H
  commit : CommitAnswers

/-- The drain loop with what has been drained; `none` says that the rounds given are not enough for
the call to return. -/
def drainLoop (sinkClose : Option (Except Error Unit)) (rt : CdcRuntime S H)
    (drained : List Event) : List (DrainRound S H) → Option (CdcRuntime S H × Ending (List Event))
  | [] => none
  | round::rounds =>
    match rt.pollEventBatch round.poll with
    | none => none
    | some (rt,.error e) => some (rt,.err e)
    | some (rt,.ok batch) =>
      if batch.isEmpty then
        match rt.stop sinkClose with
        | (rt,.error e) => some (rt,.err e)
        | (rt,.ok _) => some (rt,.ok drained)
      else
        match rt.commitAck .release batch.ackMode round.commit with
        | (rt,.ok ()) => drainLoop sinkClose rt (drained++batch.visible) rounds
        | (rt,.err e) => some (rt,.err e)
        | (rt,.panicked) => some (rt,.panicked)

def drainAndStop (rt : CdcRuntime S H) (sinkClose : Option (Except Error Unit))
    (rounds : List (DrainRound S H)) : Option (CdcRuntime S H × Ending (List Event)) :=
  drainLoop sinkClose rt [] rounds

/-- The events whose commit becomes durable during the call. -/
def durableDuring (rt : CdcRuntime S H) : List (DrainRound S H) → List Event
  | [] => []
  | round::rounds =>
    match rt.pollEventBatch round.poll with
    | some (rt,.ok batch) =>
      if batch.isEmpty then []
      else
        let committed := rt.commitAck .release batch.ackMode round.commit
        rt.commitWindow (rt.drained committed.1)++
          match committed.2 with
          | .ok () => durableDuring committed.1 rounds
          | _ => []
    | _ => []

/-- The events the caller receives. -/
def valueOf : Ending (List Event) → List Event
  | .ok events => events
  | _ => []

/-- Once a commit of the call is durable nothing fails any more: no poll, no commit, not its
confirmation, and not the stop. -/
def Unbroken (sinkClose : Option (Except Error Unit)) (rt : CdcRuntime S H) (begun : Bool) :
    List (DrainRound S H) → Prop
  | [] => True
  | round::rounds =>
    match rt.pollEventBatch round.poll with
    | none => True
    | some (_,.error _) => begun = false
    | some (rt,.ok batch) =>
      if batch.isEmpty then begun = true → (rt.stop sinkClose).2.isOk = true
      else
        match rt.commitAck .release batch.ackMode round.commit with
        | (rt,.ok ()) => Unbroken sinkClose rt true rounds
        | (rt',_) => begun = false ∧ rt.drained rt' = 0

instance unbrokenDecidable (sinkClose : Option (Except Error Unit)) :
    (rt : CdcRuntime S H) → (begun : Bool) → (rounds : List (DrainRound S H)) →
      Decidable (rt.Unbroken sinkClose begun rounds)
  | _, _, [] => .isTrue trivial
  | rt, begun, round::rounds => by
    have := fun rt begun => unbrokenDecidable sinkClose rt begun rounds
    unfold Unbroken
    split
    · infer_instance
    · infer_instance
    · split
      · infer_instance
      · split <;> infer_instance

lemma polled_batch {c c' : DeliveryCore} {b : EventBatch} (h : Poll c c' (.ok b)) (hne : b.isEmpty = false) :
    b.visible = c'.uncommitted ∧ ∃ tk, b.ackMode = .required tk ∧
      tk.eventCount = c'.uncommitted.length ∧ 0 < tk.eventCount := by
  obtain ⟨hb,_,ho⟩ := h
  cases ho with
  | redelivered p hp heq =>
    subst heq
    have hr : c'.uncommitted = p.remaining := by rw [DeliveryCore.uncommitted,hp]
    refine ⟨hr.symm,_,rfl,by rw [hr],?_⟩
    have := (hb.partly p hp).1
    simp only [PendingDelivery.remaining,List.length_drop]
    omega
  | nothing => cases hne
  | delivered events he hn hp =>
    have hr : c'.uncommitted = events := by
      rw [DeliveryCore.uncommitted,hp]
      rfl
    exact ⟨hr.symm,_,rfl,by rw [hr],List.length_pos_iff.mpr he⟩

omit [Handoff S H] in
lemma committed_window {rt : CdcRuntime S H} (hb : rt.core.Balanced) {tk : AckToken}
    (hc : tk.eventCount = rt.core.uncommitted.length) (hp : 0 < tk.eventCount)
    {as : CommitAnswers} (hok : (rt.commitAck .release (.required tk) as).2 = .ok ()) :
    rt.commitWindow (rt.drained (rt.commitAck .release (.required tk) as).1) = rt.core.uncommitted := by
  rcases commitAck_outcome hb hp as with ⟨e,hr⟩ | ⟨_,ho⟩
  · rw [hr] at hok
    cases hok
  · generalize rt.commitAck .release (.required tk) as = result at hok ho
    cases ho with
    | refused => cases hok
    | durable rt' ending he hl hco =>
      rw [drained_durable hb hl hco,hc]
      exact List.take_length

/-- The call hands over what it made durable if and only if it is not broken: an error leaves the
caller with nothing, whatever has been drained. -/
lemma drainLoop_value {sinkClose : Option (Except Error Unit)} {rounds : List (DrainRound S H)}
    {rt rt' : CdcRuntime S H} {drained : List Event} {begun : Bool} {ending : Ending (List Event)}
    (hb : rt.core.Balanced) (hbe : begun = false ↔ drained = [])
    (hr : drainLoop sinkClose rt drained rounds = some (rt',ending)) :
    valueOf ending = drained++rt.durableDuring rounds ↔ rt.Unbroken sinkClose begun rounds := by
  induction rounds generalizing rt drained begun with
  | nil => exact absurd hr (by simp [drainLoop])
  | cons round rounds ih =>
    rw [drainLoop] at hr
    rw [Unbroken,durableDuring]
    cases hpo : rt.pollEventBatch round.poll with
    | none => simp [hpo] at hr
    | some polled =>
      obtain ⟨rt₁,r⟩ := polled
      have hp := pollEventBatch_poll hb hpo
      simp only [hpo] at hr ⊢
      cases r with
      | error =>
        obtain ⟨_,rfl⟩ := Prod.mk.inj (Option.some.inj hr)
        rw [List.append_nil,hbe]
        exact eq_comm
      | ok b =>
        by_cases he : b.isEmpty = true
        · simp only [he,if_true,List.append_nil] at hr ⊢
          cases hs : rt₁.stop sinkClose with
          | mk rt₂ stopped =>
            simp only [hs] at hr ⊢
            cases stopped with
            | error =>
              obtain ⟨_,rfl⟩ := Prod.mk.inj (Option.some.inj hr)
              have hn : (begun = true → (Except.error (α := List Event) ‹Error›).isOk = true) ↔ begun = false := by
                cases begun <;> simp [Except.isOk,Except.toBool]
              rw [hn,hbe]
              exact eq_comm
            | ok =>
              obtain ⟨_,rfl⟩ := Prod.mk.inj (Option.some.inj hr)
              exact iff_of_true rfl fun _ => rfl
        · rw [Bool.not_eq_true] at he
          obtain ⟨hv,tk,hm,hc,hpos⟩ := polled_batch hp he
          have hne : rt₁.core.uncommitted ≠ [] := List.length_pos_iff.mp (hc ▸ hpos)
          have hne' : rt₁.uncommittedEvents ≠ [] := hne
          simp only [he,hm,Bool.false_eq_true,if_false] at hr ⊢
          have hw : (rt₁.commitAck .release (.required tk) round.commit).2 = .ok () → _ :=
            committed_window hp.1 hc hpos
          have hk := (commitAck_keeps hp.1 (.required tk) round.commit).1
          generalize rt₁.commitAck .release (.required tk) round.commit = committed at *
          obtain ⟨rt₂,oc⟩ := committed
          cases oc with
          | ok =>
            dsimp only at hw hr ⊢
            rw [← ih hk (show true = false ↔ _ by simp [hv,hne]) hr,hw rfl,hv,List.append_assoc]
          | err | panicked =>
            obtain ⟨_,rfl⟩ := Prod.mk.inj (Option.some.inj hr)
            simp [valueOf,commitWindow,hbe,hne']

/-- Whatever run led here and whatever is queued, the call hands over exactly the events whose
commit became durable during it if and only if nothing fails after the first of these commits. -/
theorem drained_reach_caller (config : RuntimeConfig) (checkpoint : Checkpoint Offset)
    (count : UInt64) (guard : Option EventIdempotencyGuard) (snapshot : Option S)
    (stream : Option H) (calls : List (RuntimeCall S H)) (injected : List Event)
    (sinkClose : Option (Except Error Unit)) (rounds : List (DrainRound S H)) :
    let rt := {(Machine.run Ledger.step
      (Ledger.start (CdcRuntime.started config checkpoint count guard snapshot stream))
      calls).runtime with injectedEvents := injected}
    ∀ rt' ending, rt.drainAndStop sinkClose rounds = some (rt',ending) →
      (valueOf ending = rt.durableDuring rounds ↔ rt.Unbroken sinkClose false rounds) := by
  intro rt rt' ending hr
  have hb : rt.core.Balanced := (run_balanced config checkpoint count guard snapshot stream calls).1
  have hv := drainLoop_value hb (iff_of_true rfl rfl) hr
  rwa [List.nil_append] at hv

def drainStart : CdcRuntime Empty ScriptedStream :=
  {(Machine.run Ledger.step (Ledger.start (CdcRuntime.started (S := Empty) (H := ScriptedStream)
    plainConfig ⟨[]⟩ 0 none none (some ⟨⟩))) []).runtime with injectedEvents := []}

/-- A round whose poll returns these events and whose commit goes through. -/
def drainRound (events : List Event) : DrainRound Empty ScriptedStream := ⟨pollAnswers events,accepting⟩

/-- A round whose poll fails. -/
def brokenRound : DrainRound Empty ScriptedStream := {drainRound [] with
    poll := {pollAnswers [] with
      attempts := (pollAnswers []).attempts.map ({· with events := .error (.sourceError "connection reset")})}}

def oneThenNone : List (DrainRound Empty ScriptedStream) := [drainRound [plainEvent],drainRound []]
def oneThenBroken : List (DrainRound Empty ScriptedStream) := [drainRound [plainEvent],brokenRound]

/-- How the call ends and what the runtime still holds. -/
def drainResult (sinkClose : Option (Except Error Unit)) (rounds : List (DrainRound Empty ScriptedStream)) :
    Option (List Event × List Event × List Event) :=
  (drainStart.drainAndStop sinkClose rounds).map fun result =>
    (valueOf result.2,result.1.held,result.1.injectedEvents)

theorem drained_reach_caller_sample : drainResult none oneThenNone = some ([plainEvent],[],[]) ∧
      ∀ rt' ending, drainStart.drainAndStop none oneThenNone = some (rt',ending) →
        valueOf ending = drainStart.durableDuring oneThenNone := by
  have h := drained_reach_caller (S := Empty) (H := ScriptedStream) plainConfig ⟨[]⟩ 0 none
    none (some ⟨⟩) [] [] none oneThenNone
  exact ⟨by decide,fun rt' ending hr => (h rt' ending hr).mpr (by decide)⟩

/-- The event is durably committed and then dropped: a later poll fails, or the sink does not close
after the drain is complete. -/
theorem drained_event_dropped : drainStart.durableDuring oneThenBroken = [plainEvent] ∧
      drainResult none oneThenBroken = some ([],[],[]) ∧
      drainStart.durableDuring oneThenNone = [plainEvent] ∧
      drainResult (some (.error (.ioError "flush failed"))) oneThenNone = some ([],[],[]) := by
  decide
end Rustcdc.CdcRuntime
