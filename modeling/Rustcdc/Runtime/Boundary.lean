import Rustcdc.Runtime.NoLoss

/-! Transactions in the queue: where a batch ends under `PreserveTransactions`, and when the
queue is held back. -/
namespace Rustcdc
open Machine Session
open Option List
namespace Event
def txId (e : Event) : Option UInt64 := e.transaction.map (·.txId)

/-- By its own metadata the event is the last of its transaction. -/
def declaresEnd (e : Event) : Bool :=
  match e.transaction with
  | none => false
  | some tx =>
    match tx.totalEvents with
    | none => false
    | some total => total.toNat ≤ min (tx.eventIndex.toNat+1) (2^32-1)

lemma txId_eq_none {e : Event} : e.txId = none ↔ e.transaction = none := map_eq_none_iff
end Event
/-- Each transaction's events stand together. -/
def Contiguous : List Event → Prop
  | [] => True
  | e::es => (e.txId ≠ none → ∀ later ∈ es.dropWhile (·.txId == e.txId), later.txId ≠ e.txId) ∧ Contiguous es

instance : (events : List Event) → Decidable (Contiguous events)
  | [] => .isTrue trivial
  | _::es => @instDecidableAnd _ _ _ (instDecidableContiguous es)

lemma Contiguous.gone {b a : List Event} {l n : Event} (h : Contiguous (b++l::n::a)) (hs : l.txId ≠ none)
    (hn : n.txId ≠ l.txId) : ∀ e ∈ n::a, e.txId ≠ l.txId := by
  induction b with
  | nil =>
    have hg := h.1 hs
    rwa [dropWhile_cons_of_neg (by simpa using hn)] at hg
  | cons e b ih => exact ih h.2

/-- The batch's last event has no transaction, or is the last of its transaction: it says so, or
no event of its transaction comes after it. -/
def AtBoundary (batch after : List Event) : Prop :=
  ∀ last ∈ batch.getLast?, last.transaction = none ∨ last.declaresEnd = true ∨ ∀ e ∈ after, e.txId ≠ last.txId

namespace CdcRuntime
/-- How a cut is trimmed, by the last event it takes from the queue. -/
inductive Trimmed (options : RuntimeOptions) (chunk rest : List Event) (last : Event) : ℕ → Prop
  | whole (h : last.transaction = none ∨ last.declaresEnd = true ∨ ∃ e ∈ rest, e.txId ≠ last.txId) :
      Trimmed options chunk rest last chunk.length
  | oversized (tx : UInt64) (hone : ∀ e ∈ chunk, e.txId = some tx)
      (hfull : options.maxBufferSize ≤ chunk.length) : Trimmed options chunk rest last chunk.length
  | withheld (kept : ℕ) (hkept : kept < chunk.length) (hbefore : ∀ e ∈ (chunk.take kept).getLast?, e.txId ≠ last.txId)
      (hafter : ∀ e ∈ chunk.drop kept, e.txId = last.txId) (hrest : ∀ e ∈ rest, e.txId = last.txId)
      (htx : last.transaction ≠ none) (hopen : last.declaresEnd = false)
      (hsmall : kept = 0 → chunk.length < options.maxBufferSize) :
      Trimmed options chunk rest last kept

lemma take_drop_rtakeWhile {α : Type*} (p : α → Bool) (xs : List α) :
    xs.take (xs.length-(xs.reverse.takeWhile p).length) = xs.rdropWhile p ∧
      xs.drop (xs.length-(xs.reverse.takeWhile p).length) = xs.rtakeWhile p := by
  have hs : xs.rdropWhile p++xs.rtakeWhile p = xs := rdropWhile_append_rtakeWhile
  have hl : xs.length-(xs.reverse.takeWhile p).length = (xs.rdropWhile p).length := by
    have h := congrArg List.length hs
    rw [length_append,List.rtakeWhile,length_reverse] at h
    omega
  have ht := @List.take_left _ (xs.rdropWhile p) (xs.rtakeWhile p)
  have hd := @List.drop_left _ (xs.rdropWhile p) (xs.rtakeWhile p)
  rw [hs] at ht hd
  rw [hl]
  exact ⟨ht,hd⟩

lemma trimLen_trimmed {options : RuntimeOptions}
    (hp : options.transactionBoundary = .preserveTransactions) {ck r : List Event}
    {last : Event} (hl : ck.getLast? = some last) :
    Trimmed options ck r last (trimLen options ck r) := by
  cases htx : last.transaction with
  | none =>
    have hlen : trimLen options ck r = ck.length := by simp [trimLen,hp,hl,htx]
    rw [hlen]
    exact .whole (.inl htx)
  | some tx =>
    have hi : last.txId = some tx.txId := by simp [Event.txId,htx]
    have hen : last.declaresEnd = match tx.totalEvents with
        | none => false
        | some n => decide (n.toNat ≤ min (tx.eventIndex.toNat+1) (2^32-1)) := by
      simp only [Event.declaresEnd,htx]
    let sameTx := fun e : Event => e.txId == some tx.txId
    have hsa : ∀ e, sameTx e = true ↔ e.txId = last.txId := by
      intro e
      rw [hi]
      exact beq_iff_eq
    have hlen : trimLen options ck r =
        if last.declaresEnd = true then ck.length
        else if r.any (!sameTx ·) then ck.length
        else
          if ck.length-(ck.reverse.takeWhile sameTx).length = 0 ∧ options.maxBufferSize ≤ ck.length then ck.length
          else ck.length-(ck.reverse.takeWhile sameTx).length := by
      rw [hen]
      simp only [trimLen,hp,hl,bind_some,htx]
      rfl
    rw [hlen]
    split
    · rename_i hd
      exact .whole (.inr (.inl hd))
    · rename_i hd
      split
      · rename_i ho
        obtain ⟨e,he,hne⟩ := any_eq_true.mp ho
        refine .whole (.inr (.inr ⟨e,he,fun heq => ?_⟩))
        rw [(hsa e).mpr heq] at hne
        cases hne
      · rename_i ho
        obtain ⟨ht,hdr⟩ := take_drop_rtakeWhile sameTx ck
        have hru : ∀ e ∈ ck.rtakeWhile sameTx, e.txId = last.txId := by
          intro e he
          exact (hsa e).mp (mem_rtakeWhile_imp he)
        split_ifs with hw
        · rw [hw.1,drop_zero] at hdr
          refine .oversized tx.txId (fun e he => ?_) hw.2
          rw [← hi]
          exact hru e (hdr ▸ he)
        · refine .withheld _ ?_ ?_ ?_ ?_ (by simp [htx]) (by simpa using hd) ?_
          · -- the last event itself is in the trailing run
            refine lt_of_not_ge fun hle => ?_
            rw [drop_of_length_le hle] at hdr
            obtain ⟨before,rfl⟩ := List.getLast?_eq_some_iff.mp hl
            rw [rtakeWhile_concat_pos _ _ _ ((hsa last).mpr rfl)] at hdr
            simp at hdr
          · intro e he hs
            rw [ht] at he
            have hne : ck.rdropWhile sameTx ≠ [] := by
              intro hn
              simp [hn] at he
            have hno := rdropWhile_last_not sameTx ck hne
            rw [List.getLast?_eq_getLast_of_ne_nil hne] at he
            rw [mem_some_iff.mp he] at hno
            exact hno ((hsa e).mpr hs)
          · rw [hdr]
            exact hru
          · intro e he
            by_contra hne
            refine ho (any_eq_true.mpr ⟨e,he,?_⟩)
            rw [Bool.not_eq_true',Bool.eq_false_iff]
            exact fun h => hne ((hsa e).mp h)
          · intro hz
            exact not_le.mp fun hle => hw ⟨hz,hle⟩

/-- The batch is of one transaction that does not fit. -/
def Oversized (options : RuntimeOptions) (batch : List Event) : Prop :=
  options.maxBufferSize ≤ batch.length ∧ ∃ tx : UInt64, ∀ e ∈ batch, e.txId = some tx

/-- The batch ends at a transaction boundary, as far as the next queued event tells. -/
def EndsBefore (batch after : List Event) : Prop :=
  ∀ last ∈ batch.getLast?, last.transaction = none ∨ last.declaresEnd = true ∨
    ∃ next ∈ after.head?, next.txId ≠ last.txId

lemma EndsBefore.append {b a : List Event} (h : EndsBefore b a) (m : List Event) : EndsBefore b (a++m) := by
  intro l hl
  rcases h l hl with hn | hd | ⟨n,hnex,hne⟩
  · exact .inl hn
  · exact .inr (.inl hd)
  · refine .inr (.inr ⟨n,?_,hne⟩)
    rw [List.head?_append,mem_def.mp hnex]
    rfl

lemma EndsBefore.atBoundary {bef b after : List Event} (h : EndsBefore b after)
    (hc : Contiguous (bef++b++after)) : AtBoundary b after := by
  intro l hl
  rcases h l hl with hn | hd | ⟨n,hnex,hne⟩
  · exact .inl hn
  · exact .inr (.inl hd)
  · by_cases hn : l.transaction = none
    · exact .inl hn
    obtain ⟨after',rfl⟩ : ∃ after', after = n::after' := by
      cases after with
      | nil => simp at hnex
      | cons f after' => exact ⟨after',by rw [Option.some.inj hnex]⟩
    obtain ⟨b',rfl⟩ := List.getLast?_eq_some_iff.mp hl
    have hs : Contiguous ((bef++b')++l::n::after') := by simpa using hc
    exact .inr (.inr (hs.gone (fun h => hn (Event.txId_eq_none.mp h)) hne))

variable {S H : Type} [SnapshotHandle S] [StreamHandle H]
section
variable (rt : CdcRuntime S H)

/-- How much of the queue the limits let into the next batch. -/
def cut : ℕ := cutLen rt.config.options.maxEventBytes 0 true
    (rt.config.options.maxBufferSize-rt.commitBarrier.pendingCount) rt.pendingSourceEvents

/-- The limits cut inside a transaction, and another transaction is queued behind it. -/
def cutsInside : Bool :=
  match (rt.pendingSourceEvents.take rt.cut).getLast?, (rt.pendingSourceEvents.drop rt.cut).head? with
  | some last, some next =>
    last.txId.isSome && !last.declaresEnd && next.txId == last.txId &&
      (rt.pendingSourceEvents.drop rt.cut).any (·.txId != last.txId)
  | _, _ => false

omit [SnapshotHandle S] [StreamHandle H] in
lemma cut_le : rt.cut ≤ rt.config.options.maxBufferSize-rt.commitBarrier.pendingCount ∧
      rt.cut ≤ rt.pendingSourceEvents.length := cutLen_le _ _ _ _ _
end
omit [SnapshotHandle S] [StreamHandle H] in
/-- The next batch of a queue that is not cut inside a transaction with another behind it. -/
theorem flushChunk_ends {rt : CdcRuntime S H} (hp : rt.config.options.transactionBoundary = .preserveTransactions)
    (hc : rt.cutsInside = false) :
    Oversized rt.config.options rt.flushChunk ∨
      EndsBefore rt.flushChunk (rt.pendingSourceEvents.drop rt.flushLen) := by
  have hcu := rt.cut_le.2
  have hch : (rt.pendingSourceEvents.take rt.cut).length = rt.cut := by
    rw [length_take]
    omega
  have hf : rt.flushLen = trimLen rt.config.options (rt.pendingSourceEvents.take rt.cut)
      (rt.pendingSourceEvents.drop rt.cut) := rfl
  unfold flushChunk
  cases hl : (rt.pendingSourceEvents.take rt.cut).getLast? with
  | none =>
    rw [List.getLast?_eq_none_iff] at hl
    have hz : rt.flushLen = 0 := by
      have hle := trimLen_le rt.config.options (rt.pendingSourceEvents.take rt.cut)
        (rt.pendingSourceEvents.drop rt.cut)
      rw [← hf,hl] at hle
      exact Nat.le_zero.mp hle
    rw [hz]
    exact .inr (by simp [EndsBefore])
  | some l =>
    have ht : Trimmed rt.config.options (rt.pendingSourceEvents.take rt.cut)
        (rt.pendingSourceEvents.drop rt.cut) l rt.flushLen := trimLen_trimmed hp hl
    generalize rt.flushLen = kept at ht
    cases ht with
    | whole h =>
      right
      rw [hch]
      intro l' hl'
      rw [hl,mem_some_iff] at hl'
      subst hl'
      rcases h with hno | hd | ⟨e,he,hne⟩
      · exact .inl hno
      · exact .inr (.inl hd)
      · -- something else is queued behind: then it is queued right behind
        unfold cutsInside at hc
        rw [hl] at hc
        cases hr : rt.pendingSourceEvents.drop rt.cut with
        | nil => simp [hr] at he
        | cons ne r =>
          rw [hr] at hc he
          by_cases hno : l.transaction = none
          · exact .inl hno
          by_cases hd : l.declaresEnd = true
          · exact .inr (.inl hd)
          refine .inr (.inr ⟨ne,rfl,fun hs => ?_⟩)
          have ho : (ne::r).any (·.txId != l.txId) = true := any_eq_true.mpr ⟨e,he,by simpa using hne⟩
          have hso : l.txId.isSome = true := by
            rw [isSome_iff_ne_none]
            exact fun h => hno (Event.txId_eq_none.mp h)
          simp [ho,hso,hs,hd] at hc
    | oversized tx hon hfu =>
      left
      rw [hch] at hfu ⊢
      exact ⟨hch.symm ▸ hfu,tx,hon⟩
    | withheld kept hk hb ha =>
      right
      rw [hch] at hk
      intro e he
      rw [take_take,Nat.min_eq_left (Nat.le_of_lt hk)] at hb
      obtain ⟨ne,after,hnex⟩ : ∃ ne after, rt.pendingSourceEvents.drop kept = ne::after :=
        exists_cons_of_ne_nil fun hni => by
          rw [drop_eq_nil_iff] at hni
          omega
      have hm : ne ∈ (rt.pendingSourceEvents.take rt.cut).drop kept := by
        rw [drop_take,hnex]
        obtain ⟨n,hn⟩ : ∃ n, rt.cut-kept = n+1 := ⟨rt.cut-kept-1,by omega⟩
        rw [hn,take_succ_cons]
        exact mem_cons_self
      refine .inr (.inr ⟨ne,by rw [hnex]; rfl,?_⟩)
      rw [ha ne hm]
      exact (hb e he).symm

/-- The batch may be delivered with these events left in the queue. -/
def MayEnd (options : RuntimeOptions) (batch after : List Event) : Prop :=
  Oversized options batch ∨ EndsBefore batch after

/-- Whatever left the queue last, buffered or in flight, was cut off where it may end. -/
structure Placed (options : RuntimeOptions) (rt : CdcRuntime S H) : Prop where
  options_eq : rt.config.options = options
  buffered : rt.pendingDelivery = none → rt.bufferedEvents.length ≤ options.maxBufferSize ∧
    (rt.bufferedEvents ≠ [] → MayEnd options rt.bufferedEvents rt.pendingSourceEvents)
  delivered : ∀ pending, rt.pendingDelivery = some pending →
    rt.bufferedEvents = [] ∧ MayEnd options pending.events rt.pendingSourceEvents

lemma CommitEffect.sameEvents {rt rt' : CdcRuntime S H} {answers : CommitAnswers}
    (h : CommitEffect rt answers rt') {p : PendingDelivery}
    (hp : rt'.pendingDelivery = some p) :
    ∃ b, rt.pendingDelivery = some b ∧ b.events = p.events := by
  cases h with
  | refused _ hs =>
    refine ⟨p,?_,rfl⟩
    rw [← hs]
    exact hp
  | durable n _ hpo hl hc =>
    have hd : rt'.pendingDelivery = _ := congrArg DeliveryCore.pendingDelivery hc
    rw [hp] at hd
    obtain ⟨b,hb,ha⟩ := bind_eq_some_iff.mp hd.symm
    refine ⟨b,hb,?_⟩
    split at ha
    · cases ha
    · rw [← Option.some.inj ha]

namespace Placed
variable {o : RuntimeOptions} {rt : CdcRuntime S H}

omit [SnapshotHandle S] in
lemma retryPendingConfirmation (h : Placed o rt) (cf : Except Error Unit) :
    Placed o (rt.retryPendingConfirmation cf) := by
  obtain ⟨_,_,_,hf⟩ := rt.retryPendingConfirmation_frame cf
  rw [hf]
  exact ⟨h.options_eq,h.buffered,h.delivered⟩

omit [SnapshotHandle S] [StreamHandle H] in
lemma deliverBufferedBatch (h : Placed o rt) (hn : rt.pendingDelivery = none) :
    Placed o rt.deliverBufferedBatch.1 := by
  by_cases he : rt.bufferedEvents = []
  · rw [deliverBufferedBatch_nil he]
    exact h
  · obtain ⟨hl,hen⟩ := h.buffered hn
    rw [← h.options_eq] at hl
    unfold CdcRuntime.deliverBufferedBatch
    simp only [List.take_of_length_le hl,List.drop_of_length_le hl,List.isEmpty_iff,he,if_false]
    refine ⟨h.options_eq,fun hs => absurd hs (by simp),fun p hp => ?_⟩
    rw [← Option.some.inj hp]
    exact ⟨rfl,hen he⟩

omit [SnapshotHandle S] in
lemma flushed (h : Placed o rt) (hpr : o.transactionBoundary = .preserveTransactions) (hi : rt.Idle)
    (hc : rt.cutsInside = false) : Placed o rt.flushed := by
  have hb : rt.flushed.bufferedEvents = rt.flushChunk := by
    change rt.bufferedEvents++rt.flushChunk = rt.flushChunk
    rw [hi.noBuffered,nil_append]
  refine ⟨h.options_eq,fun _ => ?_,fun p hp => ?_⟩
  · rw [hb]
    have hl := rt.flushLen_le.1
    rw [h.options_eq] at hl
    refine ⟨?_,fun _ => ?_⟩
    · rw [flushChunk,length_take]
      omega
    · have he := flushChunk_ends (h.options_eq ▸ hpr) hc
      rw [h.options_eq] at he
      exact he
  · have hn : rt.flushed.pendingDelivery = none := hi.noDelivery
    rw [hn] at hp
    cases hp

omit [SnapshotHandle S] [StreamHandle H] in
lemma queued (h : Placed o rt) (hi : rt.Idle) (g : Option EventIdempotencyGuard)
    (ps : ℕ) (es : List Event) : Placed o (rt.queued g ps es) := by
  refine ⟨h.options_eq,fun hn => ⟨(h.buffered hn).1,fun hne => ?_⟩,fun p hp => ?_⟩
  · exact absurd hi.noBuffered hne
  · have hn : (rt.queued g ps es).pendingDelivery = none := hi.noDelivery
    rw [hn] at hp
    cases hp

lemma commit (h : Placed o rt) {answers : CommitAnswers} {rt' : CdcRuntime S H}
    (he : CommitEffect rt answers rt') : Placed o rt' := by
  have hev := fun p (hp : rt'.pendingDelivery = some p) =>
    he.sameEvents hp
  cases he with
  | refused _ hs =>
    rw [← hs] at h
    exact ⟨h.options_eq,h.buffered,h.delivered⟩
  | durable n _ hpo hl hco hr =>
    have hc : rt'.config = rt.config := congrArg Remainder.config hr
    have hq : rt'.pendingSourceEvents = rt.pendingSourceEvents := congrArg Remainder.pendingSourceEvents hr
    have hb : rt'.bufferedEvents = rt.bufferedEvents := congrArg DeliveryCore.bufferedEvents hco
    have hem : rt.bufferedEvents = [] := by
      cases hp : rt.pendingDelivery with
      | none =>
        simp only [uncommittedEvents,hp,length_nil] at hl
        omega
      | some p => exact (h.delivered p hp).1
    refine ⟨hc ▸ h.options_eq,fun _ => ?_,fun p' hp' => ?_⟩
    · rw [hb,hem]
      exact ⟨Nat.zero_le _,fun hn => absurd rfl hn⟩
    · obtain ⟨p,hp,hs⟩ := hev p' hp'
      rw [hb,hq,← hs]
      exact h.delivered p hp
end Placed
section
variable [Handoff S H]

/-- Neither flush of the poll cuts inside a transaction with another queued behind it. -/
def pollClean (rt : CdcRuntime S H) (answers : PollAnswers S H) : Bool := !rt.cutsInside &&
    match rt.arrival answers with
    | none => true
    | some (rt,events) =>
      match rt.passed answers.now events with
      | .error _ => true
      | .ok transformed =>
        !({rt with pendingSourceEvents := rt.pendingSourceEvents++transformed} :
          CdcRuntime S H).cutsInside

variable {rt : CdcRuntime S H} {as : PollAnswers S H}

lemma arrival_idle {rt' : CdcRuntime S H} (hb : rt.core.Balanced) {es : List Event}
    (ha : rt.arrival as = some (rt',es)) : rt'.Idle := by
  obtain ⟨rt₁,hq,hr⟩ := arrival_receive ha
  exact (pollQueues_idle hb hq).of_core (receive_core hr)

lemma Placed.pollEventBatch {options : RuntimeOptions} (h : Placed options rt)
    (hpr : options.transactionBoundary = .preserveTransactions) (hb : rt.core.Balanced)
    (hs : rt.pollSafe as = true) (hc : rt.pollClean as = true)
    {r : CdcRuntime S H × Except Error EventBatch}
    (hre : rt.pollEventBatch as = some r) : Placed options r.1 := by
  rw [pollClean,Bool.and_eq_true,Bool.not_eq_true'] at hc
  -- the cut of a queue nobody has taken from is clean
  refine (pollEventBatch_rule (I := fun rt => Placed options rt ∧ (rt.Idle → rt.cutsInside = false)) ?_ ?_ ?_ hb
    ⟨h,fun _ => hc.1⟩ hs ?_ ?_ hre).1
  · rintro rt cf ⟨hp,hcu⟩
    obtain ⟨_,_,_,hf⟩ := rt.retryPendingConfirmation_frame cf
    refine ⟨hp.retryPendingConfirmation cf,fun hi => ?_⟩
    rw [hf] at hi ⊢
    exact hcu ⟨hi.noDelivery,hi.noBuffered⟩
  · rintro rt ⟨hp,hcu⟩ hn
    refine ⟨hp.deliverBufferedBatch hn,fun hi => ?_⟩
    by_cases he : rt.bufferedEvents = []
    · rw [deliverBufferedBatch_nil he]
      exact hcu ⟨hn,he⟩
    · have hn' := hi.noDelivery
      rw [deliverBufferedBatch_inFlight he] at hn'
      cases hn'
  · rintro rt ⟨hp,hcu⟩ hi _
    refine ⟨hp.flushed hpr hi (hcu hi),fun hi' => ?_⟩
    have he : rt.flushChunk = [] := (append_eq_nil_iff.mp hi'.noBuffered).2
    rw [flushed_eq_self he]
    exact hcu hi
  · rintro rt₁ rt₂ rc ⟨hp,hcu⟩ _ hr
    obtain ⟨_,_,_,_,hf⟩ := receive_frame hr
    dsimp only at hf
    rw [hf]
    exact ⟨⟨hp.options_eq,hp.buffered,hp.delivered⟩,fun hi => hcu ⟨hi.noDelivery,hi.noBuffered⟩⟩
  · rintro rt₂ es g ps tr ⟨hp,_⟩ ha hpa
    refine ⟨hp.queued (arrival_idle hb ha) g ps tr,fun _ => ?_⟩
    have hcu := hc.2
    rw [ha] at hcu
    simp only [hpa,Bool.not_eq_true'] at hcu
    exact hcu
end
end CdcRuntime
open CdcRuntime

/-- A ledger with every batch delivered. -/
structure Deliveries (S H : Type) where
  ledger : Ledger S H
  batches : List (List Event)

namespace Deliveries
variable {S H : Type} [SnapshotHandle S] [StreamHandle H] [Handoff S H]

def start (runtime : CdcRuntime S H) : Deliveries S H := ⟨Ledger.start runtime,[]⟩

/-- The batch a call delivers, unless it is empty. -/
def batchOf (rt : CdcRuntime S H) : RuntimeCall S H → Option (List Event)
  | .poll answers =>
    match rt.pollEventBatch answers with
    | some (_,.ok batch) => if batch.isEmpty then none else some batch.events
    | _ => none
  | .commit _ _ => none

def step (s : Deliveries S H) (call : RuntimeCall S H) : Deliveries S H where
  ledger := s.ledger.step call
  batches := s.batches++(batchOf s.ledger.runtime call).toList

/-- Every event that ever reached the queue. -/
def queued (s : Deliveries S H) : List Event := s.ledger.owed.map (·.event)

/-- Nothing fails between the source and the buffer, and no cut falls inside a transaction that
another is queued behind. -/
def Clean (s : Deliveries S H) : RuntimeCall S H → Prop
  | .poll answers =>
    s.ledger.runtime.pollSafe answers = true ∧ s.ledger.runtime.pollClean answers = true
  | .commit _ _ => True

instance (s : Deliveries S H) (call : RuntimeCall S H) : Decidable (s.Clean call) :=
  match call with
  | .poll _ => inferInstanceAs (Decidable (_ ∧ _))
  | .commit _ _ => inferInstanceAs (Decidable True)

/-- Every batch stands in the queue's history where it may end. -/
structure Bounded (options : RuntimeOptions) (s : Deliveries S H) : Prop where
  complete : s.ledger.Complete
  placed : Placed options s.ledger.runtime
  inFlight : ∀ pending, s.ledger.runtime.pendingDelivery = some pending → pending.events ∈ s.batches
  batches : ∀ batch ∈ s.batches, ∃ before after, s.queued = before++batch++after ∧ MayEnd options batch after

variable {options : RuntimeOptions} {s : Deliveries S H} {answers : PollAnswers S H}

/-- A poll delivers a new batch, which is then in flight, or leaves what is in flight and can
only repeat it. -/
theorem batchOf_poll {rt rt' : CdcRuntime S H} (hb : rt.core.Balanced) {r : Except Error EventBatch}
    (hr : rt.pollEventBatch answers = some (rt',r)) :
    (∃ events, rt'.pendingDelivery = some ⟨rt.nextDeliveryId,events,0,0⟩ ∧ batchOf rt (.poll answers) = some events) ∨
    rt'.pendingDelivery = rt.pendingDelivery ∧ ∀ events ∈ batchOf rt (.poll answers),
      ∃ p, rt.pendingDelivery = some p ∧ p.events = events := by
  have ho := (pollEventBatch_poll hb hr).2.2
  simp only [batchOf,hr]
  cases ho with
  | redelivered p h heq =>
    refine .inr ⟨congrArg DeliveryCore.pendingDelivery heq,fun events he => ⟨p,h,?_⟩⟩
    dsimp only at he
    split at he
    · cases he
    · exact Option.some.inj he
  | nothing h h' =>
    refine .inr ⟨h'.trans h.symm,?_⟩
    simp [EventBatch.isEmpty,EventBatch.visible,EventBatch.empty]
  | failed e h => exact .inr ⟨h,by simp⟩
  | delivered events hn h h' =>
    exact .inl ⟨events,h',by simp [EventBatch.isEmpty,EventBatch.visible,hn]⟩

lemma step_queued (s : Deliveries S H) (call : RuntimeCall S H) : ∃ more, (s.step call).queued = s.queued++more := by
  cases call with
  | commit => exact ⟨[],(append_nil _).symm⟩
  | poll =>
    simp only [step,Ledger.step,queued]
    split
    · exact ⟨[],(append_nil _).symm⟩
    · exact ⟨_,map_append⟩

lemma Bounded.kept (h : s.Bounded options) (c : RuntimeCall S H) {b : List Event}
    (hb : b ∈ s.batches) : ∃ bef after, (s.step c).queued = bef++b++after ∧ MayEnd options b after := by
  obtain ⟨bef,after,hq,he⟩ := h.batches b hb
  obtain ⟨m,hm⟩ := s.step_queued c
  refine ⟨bef,after++m,by rw [hm,hq,append_assoc],?_⟩
  rcases he with hbi | he
  · exact .inl hbi
  · exact .inr (he.append m)

lemma Bounded.poll (h : s.Bounded options) (hpr : options.transactionBoundary = .preserveTransactions)
    (hcl : s.Clean (.poll answers)) : (s.step (.poll answers)).Bounded options := by
  have hc : (s.step (.poll answers)).ledger.Complete := h.complete.poll hcl.1
  have hk := fun b (hb : b ∈ s.batches) => h.kept (.poll answers) hb
  cases hres : s.ledger.runtime.pollEventBatch answers with
  | none =>
    have hs : (s.step (.poll answers)) = s := by simp [step,Ledger.step,batchOf,hres]
    rwa [hs]
  | some re =>
    obtain ⟨rt',r⟩ := re
    have hr : (s.step (.poll answers)).ledger.runtime = rt' := by
      simp [step,Ledger.step,hres]
    have hpl := h.placed.pollEventBatch hpr h.complete.balanced hcl.1 hcl.2 hres
    refine ⟨hc,hr ▸ hpl,fun p hp => ?_,fun b hb => ?_⟩
    · rw [hr] at hp
      rcases batchOf_poll h.complete.balanced hres with ⟨es,hn,he⟩ | ⟨hs,_⟩
      · rw [hn] at hp
        rw [← Option.some.inj hp]
        simp [step,he]
      · exact mem_append_left _ (h.inFlight p (hs ▸ hp))
    · rcases mem_append.mp hb with ho | hn
      · exact hk b ho
      · rw [mem_toList] at hn
        rcases batchOf_poll h.complete.balanced hres with ⟨es,hd,he⟩ | ⟨_,hre⟩
        · -- a new batch is all that is in flight, and nothing is buffered behind it
          obtain rfl := Option.some.inj (he.symm.trans hn)
          obtain ⟨hbu,hen⟩ := hpl.delivered _ hd
          refine ⟨(s.step (.poll answers)).ledger.committed,rt'.pendingSourceEvents,?_,hen⟩
          have hw := hc.whole
          rw [hr] at hw
          rw [queued,← hw,held,hbu]
          simp [uncommittedEvents,hd,PendingDelivery.remaining]
        · obtain ⟨p,hp,rfl⟩ := hre b hn
          exact hk _ (h.inFlight p hp)

lemma Bounded.commit (h : s.Bounded options) (tk : AckToken) (answers : CommitAnswers) :
    (s.step (.commit tk answers)).Bounded options := by
  have he := commitAck_effect h.complete.balanced tk answers
  have hb : (s.step (.commit tk answers)).batches = s.batches := by simp [step,batchOf]
  refine ⟨h.complete.commit tk answers,h.placed.commit he,fun p hp => ?_,
    fun b hba => h.kept (.commit tk answers) (hb ▸ hba)⟩
  obtain ⟨bef,hbe,hs⟩ := he.sameEvents hp
  rw [hb,← hs]
  exact h.inFlight bef hbe

/-- Under `PreserveTransactions` every batch ends at a transaction boundary or is of a transaction
that does not fit, in every run in which nothing fails between the source and the buffer and no
cut falls inside a transaction that another is queued behind. -/
theorem batches_end_at_boundaries (config : RuntimeConfig)
    (hpreserve : config.options.transactionBoundary = .preserveTransactions)
    (checkpoint : Checkpoint Offset) (count : UInt64) (guard : Option EventIdempotencyGuard)
    (snapshot : Option S) (stream : Option H) (calls : List (RuntimeCall S H))
    (hclean : Meets step Clean (start (started config checkpoint count guard snapshot stream)) calls)
    (hcontiguous : Contiguous (run step
      (start (started config checkpoint count guard snapshot stream)) calls).queued) :
    let s := run step (start (started config checkpoint count guard snapshot stream)) calls
    ∀ batch ∈ s.batches, ∃ before after, s.queued = before++batch++after ∧
      (AtBoundary batch after ∨ Oversized config.options batch) := by
  intro s batch hba
  have hb : s.Bounded config.options := by
    refine run_invariant_of_meets step (P := Bounded config.options) (fun s call h hclean => ?_) ?_ hclean
    · cases call with
      | poll => exact h.poll hpreserve hclean
      | commit token answers => exact h.commit token answers
    · have hn : ∀ pending, (started config checkpoint count guard snapshot
          stream).pendingDelivery ≠ some pending := by simp [started]
      exact ⟨Ledger.start_complete config checkpoint count guard snapshot stream,
        ⟨rfl,fun _ => ⟨Nat.zero_le _,fun hne => absurd rfl hne⟩, fun pending h => absurd h (hn pending)⟩,
        fun pending h => absurd h (hn pending),by simp [start]⟩
  obtain ⟨before,after,hq,he⟩ := hb.batches batch hba
  refine ⟨before,after,hq,?_⟩
  rcases he with hbi | he
  · exact .inr hbi
  · exact .inl (he.atBoundary (hq ▸ hcontiguous))

/-- Three-event buffers that keep transactions whole. -/
def wholeConfig : RuntimeConfig := {plainConfig with
    options := {tripleOptions with
      validateEvents := true
      transactionBoundary := .preserveTransactions}}

/-- An event of a transaction of unknown size. -/
def rowOf (tx : UInt64) (index : UInt32) : Event := {plainEvent with transaction := some ⟨tx,none,index⟩}
def wholeStart : Deliveries Empty ScriptedStream := start (started wholeConfig ⟨[]⟩ 0 none none (some ⟨⟩))

/-- A transaction that waits until the next one begins. -/
def waitingCalls : List (RuntimeCall Empty ScriptedStream) :=
  [.poll (pollAnswers [rowOf 1 0,rowOf 1 1]),.poll (pollAnswers [rowOf 2 0]),
    .commit ⟨1,2,0⟩ accepting,.poll (pollAnswers [])]

theorem batches_end_at_boundaries_sample :
    let s := run step wholeStart waitingCalls
    s.batches = [[rowOf 1 0,rowOf 1 1]] ∧ ∀ batch ∈ s.batches, ∃ before after, s.queued = before++batch++after ∧
        (AtBoundary batch after ∨ Oversized wholeConfig.options batch) := by
  have hcl : Meets step Clean wholeStart waitingCalls := by decide
  have hc : Contiguous (run step wholeStart waitingCalls).queued := by decide
  have h := batches_end_at_boundaries (S := Empty) (H := ScriptedStream) wholeConfig rfl ⟨[]⟩ 0 none
    none (some ⟨⟩) waitingCalls hcl hc
  exact ⟨by decide,h⟩

def threeTransactions : Deliveries Empty ScriptedStream := run step wholeStart
    [.poll (pollAnswers [rowOf 1 0,rowOf 1 1,rowOf 2 0,rowOf 2 1,rowOf 3 0])]

/-- A row that does not validate. -/
def invalidRow : Event := {rowOf 1 1 with after := none}

/-- A transaction with such a row, and one more poll. -/
def partlyInvalid : Deliveries Empty ScriptedStream :=
  run step wholeStart [.poll (pollAnswers [rowOf 1 0,invalidRow,rowOf 1 2]),.poll (pollAnswers [])]

/-- The second of three transactions is split although it fits, because the third is queued
behind it; and the part of a transaction before an invalid row is delivered alone. -/
theorem transaction_split : (Contiguous threeTransactions.queued ∧ Contiguous partlyInvalid.queued) ∧
    (threeTransactions.batches = [[rowOf 1 0,rowOf 1 1,rowOf 2 0]] ∧
      ∀ before after, threeTransactions.queued = before++[rowOf 1 0,rowOf 1 1,rowOf 2 0]++after →
        ¬ AtBoundary [rowOf 1 0,rowOf 1 1,rowOf 2 0] after ∧
        ¬ Oversized wholeConfig.options [rowOf 1 0,rowOf 1 1,rowOf 2 0]) ∧
    partlyInvalid.batches = [[rowOf 1 0]] ∧ ∀ before after, partlyInvalid.queued = before++[rowOf 1 0]++after →
        ¬ AtBoundary [rowOf 1 0] after ∧ ¬ Oversized wholeConfig.options [rowOf 1 0] := by
  have ht : threeTransactions.queued = [rowOf 1 0,rowOf 1 1,rowOf 2 0,rowOf 2 1,rowOf 3 0] := by decide
  have hp : partlyInvalid.queued = [rowOf 1 0,invalidRow,rowOf 1 2] := by decide
  refine ⟨⟨by decide,by decide⟩,⟨by decide,fun before after h => ?_⟩,by decide,fun before after h => ?_⟩
  · have ha : after = [rowOf 2 1,rowOf 3 0] := by
      rw [ht] at h
      cases before with
      | nil => simpa using h.symm
      | cons =>
        have hm : rowOf 1 0 ∈ [rowOf 1 1,rowOf 2 0,rowOf 2 1,rowOf 3 0] := by
          rw [(List.cons.inj h).2]
          simp
        nomatch hm
    refine ⟨fun he => ?_,fun ⟨_,tx,ho⟩ => ?_⟩
    · rw [ha] at he
      rcases he (rowOf 2 0) rfl with hn | hd | hg
      · nomatch hn
      · nomatch hd
      · exact hg (rowOf 2 1) (by simp) rfl
    · have hf : (some 1 : Option UInt64) = some tx := ho (rowOf 1 0) (by simp)
      have hl : (some 2 : Option UInt64) = some tx := ho (rowOf 2 0) (by simp)
      nomatch (hf.trans hl.symm)
  · have ha : after = [invalidRow,rowOf 1 2] := by
      rw [hp] at h
      cases before with
      | nil => simpa using h.symm
      | cons =>
        have hm : rowOf 1 0 ∈ [invalidRow,rowOf 1 2] := by
          rw [(List.cons.inj h).2]
          simp
        nomatch hm
    refine ⟨fun he => ?_,fun hb => absurd hb.1 (by decide)⟩
    rw [ha] at he
    rcases he (rowOf 1 0) rfl with hn | hd | hg
    · nomatch hn
    · nomatch hd
    · exact hg (rowOf 1 2) (by simp) rfl
end Deliveries
end Rustcdc
