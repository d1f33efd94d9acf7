import Rustcdc.Runtime.Boundary

/-! Withholding under `PreserveTransactions`: what is queued to its end is delivered. -/
namespace Rustcdc
open List Machine CdcRuntime Session
namespace CdcRuntime
variable {S H : Type} [SnapshotHandle S] [StreamHandle H]

/-- The queue holds the end of a transaction at this place: the event there has no transaction,
or says that it is its transaction's last and the next one is of another. -/
def completeAt (queue : List Event) (place : ℕ) : Bool :=
  match queue.drop place with
  | [] => false
  | last::after => last.transaction.isNone || last.declaresEnd && after.head?.all (·.txId != last.txId)

/-- The first transaction fills a batch. -/
def frontFills (options : RuntimeOptions) (queue : List Event) : Bool := options.maxBufferSize ≤ queue.length &&
    match queue.head?.bind (·.txId) with
    | none => false
    | some tx => (queue.take options.maxBufferSize).all (·.txId == some tx)

/-- There is a transaction to deliver: one is queued to its end, or the first fills a batch. -/
def Ready (rt : CdcRuntime S H) : Prop := (∃ place, completeAt rt.pendingSourceEvents place = true) ∨
    frontFills rt.config.options rt.pendingSourceEvents = true

/-- Transactions are kept whole, only one is queued, and the byte budget cuts inside it. -/
structure Stalls (rt : CdcRuntime S H) : Prop where
  preserves : rt.config.options.transactionBoundary = .preserveTransactions
  one : ∃ tx, ∀ e ∈ rt.pendingSourceEvents, e.txId = some tx
  inside : ∀ last ∈ (rt.pendingSourceEvents.take rt.cut).getLast?, last.declaresEnd = false
  short : rt.cut < rt.pendingSourceEvents.length
  small : rt.cut < rt.config.options.maxBufferSize

variable {rt : CdcRuntime S H}

omit [SnapshotHandle S] [StreamHandle H] in
/-- A queue with a transaction to deliver is not withheld whole, unless the byte budget cuts
inside the only one. -/
theorem flushLen_pos_of_ready (hro : rt.commitBarrier.pendingCount < rt.config.options.maxBufferSize) (hr : rt.Ready)
    (hst : ¬ rt.Stalls) : 0 < rt.flushLen := by
  have hne : rt.pendingSourceEvents ≠ [] := by
    intro hni
    have hb := rt.config.options.bufferPos
    rcases hr with ⟨p,hp⟩ | hf
    · simp [completeAt,hni] at hp
    · simp [frontFills,hni] at hf
  cases hpo : rt.config.options.transactionBoundary with
  | split => exact flushLen_pos hpo hro hne
  | preserveTransactions =>
    have hpos : 0 < rt.cut := cutLen_pos _ (Nat.sub_pos_of_lt hro) hne
    have hcu := rt.cut_le.2
    have hc : (rt.pendingSourceEvents.take rt.cut).length = rt.cut := by
      rw [length_take]
      omega
    obtain ⟨last,hl⟩ : ∃ last, (rt.pendingSourceEvents.take rt.cut).getLast? = some last := by
      rw [← Option.ne_none_iff_exists',ne_eq,List.getLast?_eq_none_iff]
      exact ne_nil_of_length_pos (hc.symm ▸ hpos)
    have ht : Trimmed rt.config.options (rt.pendingSourceEvents.take rt.cut)
        (rt.pendingSourceEvents.drop rt.cut) last rt.flushLen := trimLen_trimmed hpo hl
    generalize rt.flushLen = kept at ht
    cases ht with
    | whole | oversized => exact hc.symm ▸ hpos
    | withheld kept hk hbe ha hre htx ho hs =>
      by_contra hz
      obtain rfl : kept = 0 := by omega
      have hon : ∀ e ∈ rt.pendingSourceEvents, e.txId = last.txId := by
        intro e he
        rw [← take_append_drop rt.cut rt.pendingSourceEvents,mem_append] at he
        rcases he with he | he
        · exact ha e he
        · exact hre e he
      have hs := hs rfl
      rw [hc] at hs
      -- the queue is one transaction, and within the limits it is cut at its end only
      have hal : rt.cut = rt.pendingSourceEvents.length := by
        by_contra hi
        obtain ⟨tx,htx'⟩ := Option.ne_none_iff_exists'.mp fun h => htx (Event.txId_eq_none.mp h)
        refine hst ⟨hpo,⟨tx,fun e he => (hon e he).trans htx'⟩,fun l hl' => ?_,by omega,hs⟩
        obtain rfl := Option.some.inj (hl.symm.trans hl')
        exact ho
      rw [hal,take_length] at hl
      rcases hr with ⟨p,hp⟩ | hf
      · unfold completeAt at hp
        cases hd : rt.pendingSourceEvents.drop p with
        | nil => simp [hd] at hp
        | cons found a =>
          have hm : ∀ e ∈ found::a, e.txId = last.txId := fun e he =>
            hon e (mem_of_mem_drop (hd ▸ he))
          have hfo := hm found mem_cons_self
          have hso : found.transaction.isNone = false := by
            rw [Option.isNone_eq_false_iff,Option.isSome_iff_ne_none]
            intro hn
            rw [Event.txId_eq_none.mpr hn] at hfo
            exact htx (Event.txId_eq_none.mp hfo.symm)
          cases a with
          | nil =>
            have hl' : rt.pendingSourceEvents.getLast? = some found := by
              rw [← take_append_drop p rt.pendingSourceEvents,hd]
              simp
            obtain rfl := Option.some.inj (hl'.symm.trans hl)
            simp [hd,hso,ho] at hp
          | cons n =>
            have hnex := hm n (by simp)
            simp [hd,hso,hfo,hnex] at hp
      · rw [frontFills,Bool.and_eq_true,decide_eq_true_eq] at hf
        omega

omit [SnapshotHandle S] [StreamHandle H] in
/-- Then the whole cut is withheld. -/
theorem Stalls.flushLen (h : rt.Stalls) : rt.flushLen = 0 := by
  obtain ⟨tx,htx⟩ := h.one
  have hc : (rt.pendingSourceEvents.take rt.cut).length = rt.cut := by
    rw [length_take]
    have := h.short
    omega
  have hch : ∀ e ∈ rt.pendingSourceEvents.take rt.cut, e.txId = some tx := fun e he => htx e (mem_of_mem_take he)
  cases hl : (rt.pendingSourceEvents.take rt.cut).getLast? with
  | none =>
    have hn := List.getLast?_eq_none_iff.mp hl
    have hle := trimLen_le rt.config.options (rt.pendingSourceEvents.take rt.cut) (rt.pendingSourceEvents.drop rt.cut)
    exact Nat.le_zero.mp (hle.trans_eq (by rw [hn]; rfl))
  | some last =>
    have hla := hch last (List.mem_of_getLast? hl)
    have ht : Trimmed rt.config.options (rt.pendingSourceEvents.take rt.cut)
        (rt.pendingSourceEvents.drop rt.cut) last rt.flushLen := trimLen_trimmed h.preserves hl
    generalize rt.flushLen = kept at ht
    cases ht with
    | whole hw =>
      rcases hw with hn | hd | ⟨e,he,hne⟩
      · rw [Event.txId_eq_none.mpr hn] at hla
        cases hla
      · rw [h.inside last hl] at hd
        cases hd
      · exact absurd ((htx e (mem_of_mem_drop he)).trans hla.symm) hne
    | oversized _ _ hf =>
      have := h.small
      omega
    | withheld kept hk hbe =>
      by_contra hz
      obtain ⟨e,he⟩ : ∃ e, ((rt.pendingSourceEvents.take rt.cut).take kept).getLast? = some e := by
        rw [← Option.ne_none_iff_exists',ne_eq,List.getLast?_eq_none_iff]
        refine ne_nil_of_length_pos ?_
        rw [length_take]
        omega
      exact hbe e he ((hch e (mem_of_mem_take (List.mem_of_getLast? he))).trans hla.symm)

omit [SnapshotHandle S] [StreamHandle H] in
lemma idle_of_pendingCount (hb : rt.core.Balanced) (he : rt.commitBarrier.pendingCount = 0) : rt.Idle := by
  have hre : rt.commitBarrier.pendingCount = rt.bufferedEvents.length+rt.core.uncommitted.length := hb.records
  refine ⟨?_,eq_nil_of_length_eq_zero (by omega)⟩
  cases hp : rt.pendingDelivery with
  | none => rfl
  | some p =>
    have hpa := (hb.partly p hp).1
    have hr : rt.core.uncommitted.length = p.events.length-p.committedPrefix := by
      simp [core,DeliveryCore.uncommitted,hp,PendingDelivery.remaining]
    omega

omit [SnapshotHandle S] in
/-- A flush that stalls changes nothing and delivers nothing. -/
lemma Stalls.flush (h : rt.Stalls) (hb : rt.core.Balanced) (hi : rt.Idle)
    (hro : rt.commitBarrier.pendingCount < rt.config.options.maxBufferSize) :
    rt.flushPendingSourceEvents = (rt,.ok .empty) := by
  have hch : rt.flushChunk = [] := by rw [flushChunk,h.flushLen,take_zero]
  rcases flushPendingSourceEvents_cases hb (by rw [hch]; rfl) with ⟨_,hf⟩ | ⟨hfu,_⟩ | ⟨_,_,hf⟩
  · exact hf
  · omega
  · rw [hf,flushed_eq_self hch,deliverBufferedBatch_nil hi.noBuffered]

lemma commitAck_keeps (hb : rt.core.Balanced) (mode : AckMode) (as : CommitAnswers) :
    let rt' := (rt.commitAck .release mode as).1
    rt'.core.Balanced ∧ rt'.remainder = rt.remainder ∧ rt'.bufferedEvents = rt.bufferedEvents := by
  intro rt'
  cases mode with
  | notRequired => exact ⟨hb,rfl,rfl⟩
  | required tk =>
    have he : CommitEffect rt as rt' := commitAck_effect hb tk as
    generalize rt' = after at he
    cases he with
    | refused _ hs =>
      have hc : after.core = rt.core := by
        rw [← hs]
        rfl
      have hr : after.remainder = rt.remainder := by
        rw [← hs]
        rfl
      exact ⟨hc ▸ hb,hr,congrArg DeliveryCore.bufferedEvents hc⟩
    | durable n _ hp hl hc hr => exact ⟨hc ▸ hb.advance hp hl,hr,congrArg DeliveryCore.bufferedEvents hc⟩

variable [Handoff S H]

lemma run_balanced (config : RuntimeConfig) (checkpoint : Checkpoint Offset) (count : UInt64)
    (guard : Option EventIdempotencyGuard) (snapshot : Option S) (stream : Option H)
    (calls : List (RuntimeCall S H)) :
    let s := run Ledger.step (Ledger.start (CdcRuntime.started config checkpoint count guard snapshot stream)) calls
    s.runtime.core.Balanced ∧ s.runtime.state = .running := by
  refine run_invariant Ledger.step
    (P := fun s => s.runtime.core.Balanced ∧ s.runtime.state = .running) (fun s c h => ?_)
    ⟨started_balanced config checkpoint count guard snapshot stream,rfl⟩ calls
  cases c with
  | poll as =>
    simp only [Ledger.step]
    cases hr : s.runtime.pollEventBatch as with
    | none => exact h
    | some =>
      exact ⟨(pollEventBatch_poll h.1 hr).1,(congrArg (·.2.1) (pollEventBatch_setup hr)).trans h.2⟩
  | commit tk as =>
    obtain ⟨hb,hs,_⟩ := commitAck_keeps h.1 (.required tk) as
    exact ⟨hb,(congrArg Remainder.state hs).trans h.2⟩

/-- Back pressure: what is buffered or delivered and not committed never exceeds `max_buffer_size`. -/
theorem back_pressure (config : RuntimeConfig) (checkpoint : Checkpoint Offset) (count : UInt64)
    (guard : Option EventIdempotencyGuard) (snapshot : Option S) (stream : Option H) (calls : List (RuntimeCall S H)) :
    let rt := (run Ledger.step (Ledger.start (started config checkpoint count guard snapshot stream)) calls).runtime
    rt.bufferedEvents.length+rt.uncommittedEvents.length ≤ rt.config.options.maxBufferSize ∧
      (rt.uncommittedEvents = [] ↔ rt.pendingDelivery = none) := by
  intro rt
  have hb : rt.core.Balanced := (run_balanced config checkpoint count guard snapshot stream calls).1
  refine ⟨hb.records ▸ hb.bounded,?_⟩
  unfold uncommittedEvents
  cases hp : rt.pendingDelivery with
  | none => simp
  | some p => simpa [PendingDelivery.remaining] using (hb.partly p hp).1
end CdcRuntime
/-- A runtime polled again and again, each batch committed before the next poll. -/
structure Rounds (S H : Type) where
  runtime : CdcRuntime S H
  delivered : List Event

namespace Rounds
variable {S H : Type} [SnapshotHandle S] [StreamHandle H] [Handoff S H]
section
variable (s : Rounds S H) (answers : PollAnswers S H × CommitAnswers)

def step : Rounds S H :=
  match s.runtime.pollEventBatch answers.1 with
  | some (rt,.ok batch) =>
    ⟨(rt.commitAck .release batch.ackMode answers.2).1,s.delivered++batch.visible⟩
  | some (rt,.error _) => {s with runtime := rt}
  | none => s

/-- The round's own side: the cut can be admitted, the commit goes through, and the byte budget
does not cut inside the only transaction queued once there is one to deliver. -/
def Unhindered : Prop := s.runtime.queueSafe answers.1.confirm = true ∧ (s.runtime.Ready → ¬ s.runtime.Stalls) ∧
    (s.step answers).runtime.pendingDelivery = none
end
lemma step_delivered (s : Rounds S H) (as : PollAnswers S H × CommitAnswers) :
    s.delivered <+: (s.step as).delivered := by
  unfold step
  split
  · exact prefix_append _ _
  · exact prefix_rfl
  · exact prefix_rfl

lemma run_delivered (s : Rounds S H) (rs : List (PollAnswers S H × CommitAnswers)) :
    s.delivered <+: (run step s rs).delivered :=
  run_invariant step (P := fun s' => s.delivered <+: s'.delivered)
    (fun s' as h => h.trans (s'.step_delivered as)) prefix_rfl rs

variable {s : Rounds S H}

/-- A round with a transaction to deliver takes events off the front of the queue. -/
theorem step_progress {as : PollAnswers S H × CommitAnswers} (hb : s.runtime.core.Balanced)
    (hr : s.runtime.state = .running) (hi : s.runtime.Idle) (hre : s.runtime.Ready)
    (hg : s.Unhindered as) :
    ∃ n, 0 < n ∧ (s.step as).delivered = s.delivered++s.runtime.pendingSourceEvents.take n ∧
      (s.step as).runtime.pendingSourceEvents = s.runtime.pendingSourceEvents.drop n ∧
      (s.step as).runtime.core.Balanced ∧ (s.step as).runtime.state = .running ∧
      (s.step as).runtime.Idle := by
  obtain ⟨hsa,hst,hs⟩ := hg
  have hro : s.runtime.commitBarrier.pendingCount < s.runtime.config.options.maxBufferSize := by
    rw [hi.pendingCount hb]
    exact s.runtime.config.options.bufferPos
  have hp := flushLen_pos_of_ready hro hre (hst hre)
  obtain ⟨rt',b,hres,_,hv,hbu,hrest⟩ := pollEventBatch_flushes hb hr hi hp hsa
  have hste : s.step as = ⟨(rt'.commitAck .release b.ackMode as.2).1,
      s.delivered++b.visible⟩ := by simp only [step,hres]
  rw [hste] at hs ⊢
  obtain ⟨hba,hrem,hbu'⟩ := commitAck_keeps (pollEventBatch_poll hb hres).1 b.ackMode as.2
  refine ⟨s.runtime.flushLen,hp,?_,(congrArg Remainder.pendingSourceEvents hrem).trans hrest,hba,?_,hs,hbu'.trans hbu⟩
  · rw [hv,flushChunk]
  · exact (congrArg Remainder.state hrem).trans ((congrArg (·.2.1) (pollEventBatch_setup hres)).trans hr)

lemma completeAt_drop {q : List Event} {n p : ℕ} (hl : n ≤ p)
    (h : completeAt q p = true) : completeAt (q.drop n) (p-n) = true := by
  unfold completeAt at h ⊢
  rwa [drop_drop,Nat.add_sub_cancel' hl]

/-- Enough rounds deliver everything up to the end of a queued transaction. -/
theorem run_progress {place : ℕ} {rs : List (PollAnswers S H × CommitAnswers)}
    (hb : s.runtime.core.Balanced) (hr : s.runtime.state = .running) (hi : s.runtime.Idle)
    (hp : completeAt s.runtime.pendingSourceEvents place = true)
    (hg : Meets step Unhindered s rs) (he : place < rs.length) :
    s.delivered++s.runtime.pendingSourceEvents.take (place+1) <+: (run step s rs).delivered := by
  induction rs generalizing s place with
  | nil => exact absurd he (Nat.not_lt_zero _)
  | cons as rs ih =>
    obtain ⟨n,hpo,hd,hq,hb',hr',hi'⟩ := step_progress hb hr hi (.inl ⟨place,hp⟩) hg.1
    rw [run_cons]
    by_cases hdo : place < n
    · -- the place is in the batch of this round
      refine List.IsPrefix.trans ?_ (run_delivered _ rs)
      rw [hd,prefix_append_right_inj]
      exact take_prefix_take_left hdo
    · have hl : n ≤ place := not_lt.mp hdo
      have hre := ih hb' hr' hi' (hq ▸ completeAt_drop hl hp) hg.2 (by rw [length_cons] at he; omega)
      rw [hd,hq,append_assoc,← take_add] at hre
      rwa [show n+(place-n+1) = place+1 by omega] at hre

/-- Withholding, whatever run led to an empty barrier: a queue with a transaction to deliver gives a
batch if and only if the byte budget does not cut inside the only transaction queued, and rounds of
polls and commits in which it does not deliver every transaction queued to its end. -/
theorem withholding_never_wedges (config : RuntimeConfig) (checkpoint : Checkpoint Offset)
    (count : UInt64) (guard : Option EventIdempotencyGuard) (snapshot : Option S)
    (stream : Option H) (calls : List (RuntimeCall S H)) :
    let rt := (run Ledger.step
      (Ledger.start (CdcRuntime.started config checkpoint count guard snapshot stream)) calls).runtime
    rt.commitBarrier.pendingCount = 0 → (rt.Ready → rt.flushChunk.all rt.admissible = true →
        ((∃ rt' batch, rt.flushPendingSourceEvents = (rt',.ok batch) ∧ batch.visible ≠ []) ↔ ¬ rt.Stalls)) ∧
      ∀ rounds place, Meets step Unhindered ⟨rt,[]⟩ rounds →
        completeAt rt.pendingSourceEvents place = true → place < rounds.length →
        rt.pendingSourceEvents.take (place+1) <+: (run step ⟨rt,[]⟩ rounds).delivered := by
  intro rt he
  obtain ⟨hb,hr⟩ := run_balanced config checkpoint count guard snapshot stream calls
  have hi : rt.Idle := idle_of_pendingCount hb he
  have hro : rt.commitBarrier.pendingCount < rt.config.options.maxBufferSize := by
    rw [he]
    exact rt.config.options.bufferPos
  refine ⟨fun hre hsa => ⟨?_,fun hs => ?_⟩,fun rounds place hg hp hen => ?_⟩
  · rintro ⟨rt',batch,heq,hn⟩ hs
    rw [hs.flush hb hi hro] at heq
    obtain ⟨_,hbatch⟩ := Prod.mk.inj heq
    exact hn (by rw [← Except.ok.inj hbatch]; rfl)
  · obtain ⟨rt',batch,heq,hn,_⟩ := flushPendingSourceEvents_delivers hb hi (flushLen_pos_of_ready hro hre hs) hsa
    exact ⟨rt',batch,heq,hn⟩
  · have hru := run_progress (s := ⟨rt,[]⟩) hb hr hi hp hg hen
    exact hru

/-- Buffers of three that keep transactions whole, under a byte budget. -/
def budgetConfig (bytes : ℕ) : RuntimeConfig := {plainConfig with
    options := {tripleOptions with
      maxEventBytes := some bytes
      transactionBoundary := .preserveTransactions}}

/-- A row of a transaction of two. -/
def halfOf (tx : UInt64) (index : UInt32) : Event := {plainEvent with transaction := some ⟨tx,some 2,index⟩}
def silent : PollAnswers Empty ScriptedStream × CommitAnswers := (pollAnswers [],accepting)

/-- Two transactions arrive at once; the first is delivered and committed. -/
def firstCommitted : List (RuntimeCall Empty ScriptedStream) :=
  [.poll (pollAnswers [halfOf 1 0,halfOf 1 1,halfOf 2 0,halfOf 2 1]),.commit ⟨1,2,0⟩ accepting]

def secondQueued : CdcRuntime Empty ScriptedStream := (run Ledger.step
    (Ledger.start (CdcRuntime.started (budgetConfig 1000) ⟨[]⟩ 0 none none (some ⟨⟩)))
    firstCommitted).runtime

theorem withholding_never_wedges_sample :
    (∃ rt' batch, secondQueued.flushPendingSourceEvents = (rt',.ok batch) ∧ batch.visible ≠ []) ∧
      [halfOf 2 0,halfOf 2 1] <+: (run step ⟨secondQueued,[]⟩ [silent,silent]).delivered := by
  have hu : Meets step Unhindered ⟨secondQueued,[]⟩ [silent,silent] :=
    ⟨⟨by decide,fun _ h => absurd h.short (by decide),by decide⟩,
      ⟨by decide,fun _ h => absurd h.short (by decide),by decide⟩,trivial⟩
  obtain ⟨hf,hr⟩ := withholding_never_wedges (S := Empty) (H := ScriptedStream)
    (budgetConfig 1000) ⟨[]⟩ 0 none none (some ⟨⟩) firstCommitted (by decide)
  exact ⟨(hf (.inl ⟨1,by decide⟩) (by decide)).mpr fun h => absurd h.short (by decide),
    hr [silent,silent] 1 hu (by decide) (by decide)⟩

/-- One transaction arrives whole, and the byte budget has room for one event only. -/
def overBudget : CdcRuntime Empty ScriptedStream := (run Ledger.step
    (Ledger.start (CdcRuntime.started (budgetConfig 1) ⟨[]⟩ 0 none none (some ⟨⟩)))
    [.poll (pollAnswers [halfOf 1 0,halfOf 1 1])]).runtime

/-- The transaction is never delivered. -/
theorem byte_budget_wedges : overBudget.commitBarrier.pendingCount = 0 ∧
      overBudget.pendingSourceEvents = [halfOf 1 0,halfOf 1 1] ∧ overBudget.Ready ∧
      overBudget.flushPendingSourceEvents = (overBudget,.ok .empty) ∧
      ∀ n, (run step ⟨overBudget,[]⟩ (List.replicate n silent)).delivered = [] := by
  refine ⟨by decide,by decide,.inl ⟨1,by decide⟩,rfl,fun n => ?_⟩
  have hs : (⟨overBudget,[]⟩ : Rounds Empty ScriptedStream).step silent = ⟨overBudget,[]⟩ := rfl
  induction n with
  | zero => rfl
  | succ n ih =>
    rw [List.replicate_succ,run_cons,hs]
    exact ih
end Rounds
end Rustcdc
