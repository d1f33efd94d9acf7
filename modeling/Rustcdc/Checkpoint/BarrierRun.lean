import Rustcdc.Lib.Run
import Rustcdc.Checkpoint.BarrierSpec

/-! Whole runs of the commit barrier: every sequence of calls, with every answer the
checkpoint store may give, and the two guarantees callers rely on. -/
namespace Rustcdc.CommitBarrier
open List Machine
variable {O : Type}

/-- A call on the barrier together with the store's answer to the write it may make. -/
inductive Call (O : Type)
  | addEvent (offset : O)
  | addNonPersistentEvent
  | notifyConsumerAccepted (eventCount : UInt64)
  | acceptAndCommit (eventCount : UInt64) (answer : Except Error Unit)
  | commit (answer : Except Error Unit)
  | hydrate (count : UInt64)
  | clearPending

/-- A barrier, the store it writes to, and the history its guarantees speak about: the count
it was last hydrated with and the offsets of the records drained since. -/
structure Trace (O : Type) where
  barrier : CommitBarrier O
  checkpoint : Checkpoint O
  hydrated : UInt64
  drained : List (Option O)

namespace Trace
def start (maxBufferSize : ℕ) : Trace O := ⟨.new maxBufferSize,⟨[]⟩,0,[]⟩

/-- Record the outcome of a commit: what left the front of the queue was drained. -/
def settle (t : Trace O) (result : CommitBarrier O × Checkpoint O × Ending Unit) : Trace O := {t with
    barrier := result.1
    checkpoint := result.2.1
    drained := t.drained++(t.barrier.pendingRecords.take
      (t.barrier.pendingCount-result.1.pendingCount)).map (·.offset)}

def step (p : Profile) (t : Trace O) : Call O → Trace O
  | .addEvent offset => {t with barrier := (t.barrier.addEvent offset).1}
  | .addNonPersistentEvent => {t with barrier := t.barrier.addNonPersistentEvent.1}
  | .notifyConsumerAccepted n => {t with barrier := (t.barrier.notifyConsumerAccepted p n).1}
  | .acceptAndCommit n answer => t.settle (t.barrier.acceptAndCommit p n answer t.checkpoint)
  | .commit answer => t.settle (t.barrier.commit p answer t.checkpoint)
  | .hydrate count =>
    match t.barrier.hydrateCommittedEventCount count with
    | (barrier,.ok ()) => {t with barrier := barrier, hydrated := count, drained := []}
    | (barrier,_) => {t with barrier := barrier}
  | .clearPending => {t with barrier := t.barrier.clearPending}

/-- The committed count with the records this call would drain fits in a `u64`. -/
def CountFits (p : Profile) (t : Trace O) : Call O → Prop
  | .acceptAndCommit n _ => t.barrier.committedEventCount.toNat+
      (t.barrier.notifyConsumerAccepted p n).1.commitLen < 2^64
  | .commit _ => t.barrier.committedEventCount.toNat+t.barrier.commitLen < 2^64
  | _ => True

instance (p : Profile) (t : Trace O) (call : Call O) : Decidable (t.CountFits p call) := by
  cases call <;> unfold CountFits <;> infer_instance

/-- The run invariant of the barrier. -/
structure Sound (t : Trace O) : Prop where
  acceptedPrefix : AcceptedPrefix t.barrier.pendingRecords
  capacity : t.barrier.pendingCount ≤ t.barrier.maxBufferSize
  notFlushing : t.barrier.barrierState ≠ .flushing
  counted : t.barrier.committedEventCount.toNat = t.hydrated.toNat+t.drained.length

/-- A write made by the call carries the last offset of exactly the prefix it drained and the
hydrated count plus everything drained. -/
def SaveExact (t t' : Trace O) : Prop := t'.checkpoint = t.checkpoint ∨
    ∃ k offset count, t'.checkpoint.saved = t.checkpoint.saved++[(offset,count)] ∧
      t'.drained = t.drained++(t.barrier.pendingRecords.take k).map (·.offset) ∧
      t'.barrier.pendingRecords.map (·.offset) = (t.barrier.pendingRecords.drop k).map (·.offset) ∧
      lastPersistable (t.barrier.pendingRecords.take k) = some offset ∧
      count.toNat = t'.hydrated.toNat+t'.drained.length

variable {t : Trace O}

/-- The barrier differs from the trace's only in its acceptance marks. -/
structure Remarked (t : Trace O) (b : CommitBarrier O) : Prop where
  acceptedPrefix : AcceptedPrefix b.pendingRecords
  offsets : b.pendingRecords.map (·.offset) = t.barrier.pendingRecords.map (·.offset)
  state : b.barrierState = t.barrier.barrierState
  capacity : b.maxBufferSize = t.barrier.maxBufferSize
  count : b.committedEventCount = t.barrier.committedEventCount

variable {b : CommitBarrier O}

lemma Remarked.length (h : t.Remarked b) : b.pendingRecords.length = t.barrier.pendingRecords.length := by
  simpa using congrArg List.length h.offsets
section
variable (h : t.Sound)
include h

lemma Sound.remarked : t.Remarked t.barrier := ⟨h.acceptedPrefix,rfl,rfl,rfl,rfl⟩

lemma Sound.remarked_notify (p : Profile) (n : UInt64) : t.Remarked (t.barrier.notifyConsumerAccepted p n).1 := by
  obtain ⟨rs,he,hp,ho⟩ := notify_keeps p h.acceptedPrefix n
  rw [he]
  exact ⟨hp,ho,rfl,rfl,rfl⟩

lemma Sound.keep (hb : t.Remarked b) (ending : Ending Unit) : (t.settle (b,t.checkpoint,ending)).Sound := by
  have hl := hb.length
  refine ⟨hb.acceptedPrefix,?_,?_,?_⟩
  · simpa [settle,pendingCount,hl,hb.capacity] using h.capacity
  · simpa [settle,hb.state] using h.notFlushing
  · simpa [settle,pendingCount,hl,hb.count] using h.counted

lemma Sound.settle_commit (p : Profile) (an : Except Error Unit)
    (hb : t.Remarked b) (hf : t.barrier.committedEventCount.toNat+b.commitLen < 2^64) :
    (t.settle (b.commit p an t.checkpoint)).Sound ∧ SaveExact t (t.settle (b.commit p an t.checkpoint)) := by
  have hlen := hb.length
  have hle := commitLen_le b
  have hc := h.counted
  have hca := h.capacity
  have hs : (UInt64.ofNat b.commitLen).toNat = b.commitLen :=
    UInt64.toNat_ofNat_of_lt' (by simp only [UInt64.size]; omega)
  have ha' := p.add_of_fits (a := b.committedEventCount) (b := UInt64.ofNat b.commitLen)
    (by rw [hs,hb.count]; exact hf)
  have hr := commit_result p an b t.checkpoint
  generalize b.commit p an t.checkpoint = result at hr ⊢
  cases hr with
  | empty =>
    refine ⟨⟨hb.acceptedPrefix,?_,by simp [settle],?_⟩,.inl rfl⟩
    · simpa [settle,pendingCount,hlen,hb.capacity] using hca
    · simpa [settle,pendingCount,hlen,hb.count] using hc
  | noPrefix | failed => exact ⟨h.keep hb _,.inl rfl⟩
  | overflow _ ha => cases ha'.symm.trans ha
  | drained n cp' hp ha hcp =>
    have hco : n.toNat = t.barrier.committedEventCount.toNat+b.commitLen := by
      rw [← Option.some.inj (ha'.symm.trans ha),UInt64.toNat_add,hs,hb.count,Nat.mod_eq_of_lt hf]
    have ht : t.barrier.pendingRecords.length-(b.pendingRecords.length-b.commitLen) = b.commitLen := by omega
    have hto : n.toNat = t.hydrated.toNat+
        (t.drained++(t.barrier.pendingRecords.take b.commitLen).map (·.offset)).length := by
      rw [hco,hc,length_append,length_map,length_take]
      omega
    constructor
    · refine ⟨hb.acceptedPrefix.drop_commitLen,?_,?_,?_⟩
      · simp only [settle,pendingCount,length_drop,hb.capacity] at hca ⊢
        omega
      · simp only [settle]
        split <;> simp
      · simpa only [settle,pendingCount,length_drop,ht] using hto
    · rcases hcp with ⟨_,rfl⟩ | ⟨o,hl,rfl⟩
      · exact .inl rfl
      · refine .inr ⟨b.commitLen,o,n,rfl,?_,?_,?_,?_⟩
        · simp [settle,pendingCount,ht]
        · simpa only [settle,map_drop] using congrArg (List.drop b.commitLen) hb.offsets
        · rw [← hl]
          apply lastPersistable_congr
          simpa only [map_take] using (congrArg (List.take b.commitLen) hb.offsets).symm
        · simpa only [settle,pendingCount,length_drop,ht] using hto

lemma Sound.push (o : Option O) : ({t with barrier := (t.barrier.pushRecord o).1} : Trace O).Sound := by
  unfold pushRecord
  split_ifs with hf hfu
  · exact h
  · exact h
  · obtain ⟨xs,ys,hrs,hx,hy⟩ := h.acceptedPrefix.split
    refine ⟨?_,?_,by simp,h.counted⟩
    · simp only [hrs,append_assoc]
      apply acceptedPrefix_append hx
      simpa [or_imp,forall_and] using hy
    · simp only [pendingCount,length_append,length_cons,length_nil]
      omega

/-- One call keeps the run sound, and any write it makes is exact. -/
theorem Sound.step {p : Profile} {c : Call O} (hf : t.CountFits p c) :
    (t.step p c).Sound ∧ SaveExact t (t.step p c) := by
  cases c with
  | addEvent o => exact ⟨h.push (some o),.inl rfl⟩
  | addNonPersistentEvent => exact ⟨h.push none,.inl rfl⟩
  | notifyConsumerAccepted n =>
    have hb := h.remarked_notify p n
    exact ⟨⟨hb.acceptedPrefix,by simpa [Trace.step,pendingCount,hb.length,hb.capacity] using h.capacity,
      by simpa [Trace.step,hb.state] using h.notFlushing,
      by simpa [Trace.step,hb.count] using h.counted⟩,.inl rfl⟩
  | acceptAndCommit n a =>
    have hb := h.remarked_notify p n
    simp only [Trace.step]
    rcases acceptAndCommit_cases p h.acceptedPrefix n a t.checkpoint with
      ⟨e,he⟩ | he | he | ⟨e,he⟩ <;> rw [he]
    · exact ⟨h.keep h.remarked _,.inl rfl⟩
    · exact ⟨h.keep hb _,.inl rfl⟩
    · exact h.settle_commit p a hb hf
    · exact ⟨h.keep hb _,.inl rfl⟩
  | commit a => exact h.settle_commit p a h.remarked hf
  | hydrate =>
    simp only [Trace.step,hydrateCommittedEventCount]
    by_cases hem : t.barrier.pendingRecords.isEmpty = true
    · rw [if_pos hem]
      exact ⟨⟨h.acceptedPrefix,h.capacity,h.notFlushing,by simp⟩,.inl rfl⟩
    · rw [if_neg hem]
      exact ⟨h,.inl rfl⟩
  | clearPending =>
    exact ⟨⟨by simp [Trace.step,clearPending,AcceptedPrefix],by simp [Trace.step,clearPending,pendingCount],
      by simp [Trace.step,clearPending],h.counted⟩,.inl rfl⟩
end
lemma start_sound (maxBufferSize : ℕ) : (start maxBufferSize : Trace O).Sound :=
  ⟨by simp [start,new,AcceptedPrefix],by simp [start,new,pendingCount],by simp [start,new],
    by simp [start,new]⟩

/-- In every run whose commits keep the count within a `u64`, the state reached is sound and
the next call, if it writes, writes exactly what it drains. -/
theorem run_sound (p : Profile) (maxBufferSize : ℕ) (calls : List (Call O)) (call : Call O)
    (hfits : Meets (step p) (CountFits p) (start maxBufferSize) (calls++[call])) :
    let t := run (step p) (start maxBufferSize) calls
    t.Sound ∧ (t.step p call).Sound ∧ SaveExact t (t.step p call) := by
  rw [meets_append] at hfits
  have hso := run_invariant_of_meets (step p) (P := Sound) (C := CountFits p)
    (fun _ _ hs hl => (hs.step hl).1) (start_sound maxBufferSize) hfits.1
  exact ⟨hso,hso.step hfits.2.1⟩

/-- Calls with a refused write, a partial acceptance and a non-persistent record. -/
def sampleCalls : List (Call ℕ) := [.hydrate 5,.addEvent 1,.addEvent 2,.addNonPersistentEvent,
    .acceptAndCommit 2 (.error (.checkpointError "disk full")),.notifyConsumerAccepted 3]

theorem run_sound_sample :
    let t := run (step .release) (start 3) sampleCalls
    (t.step .release (.commit (.ok ()))).checkpoint.saved = [(2,8)] ∧ (t.step .release (.commit (.ok ()))).Sound :=
  ⟨by decide,(run_sound .release 3 sampleCalls (.commit (.ok ())) (by decide)).2.1⟩

/-- Hydrated with the largest count, the barrier persists a wrapped count in a release build
and is left flushing by the panic of a checked build. -/
theorem count_overflow :
    let t : Trace ℕ := ⟨⟨[⟨some 7,false⟩],.opened,1,UInt64.ofNat (2^64-1)⟩,⟨[]⟩,UInt64.ofNat (2^64-1),[]⟩
    let call : Call ℕ := .acceptAndCommit 1 (.ok ())
    (∀ p, t = run (step p) (start 1) [.hydrate (UInt64.ofNat (2^64-1)),.addEvent 7]) ∧
      (t.step .release call).checkpoint.saved = [(7,0)] ∧
      ¬ SaveExact t (t.step .release call) ∧
      (t.step .debug call).barrier.barrierState = .flushing := by
  intro t call
  have hs : (t.step .release call).checkpoint.saved = [(7,0)] := by decide
  have hh : (t.step .release call).hydrated.toNat = 2^64-1 := by decide
  refine ⟨fun p => rfl,hs,?_,by decide⟩
  rintro (he | ⟨k,offset,count,hw,-,-,-,hc⟩)
  · cases he
  · have hz : count = 0 := by
      rw [hs] at hw
      simp only [t,List.nil_append,List.cons.injEq,Prod.mk.injEq,and_true] at hw
      exact hw.2.symm
    rw [hz,hh] at hc
    simp at hc
    omega
end Trace
variable {b : CommitBarrier O}

lemma commit_acceptedPrefix (p : Profile) (a : Except Error Unit)
    (h : AcceptedPrefix b.pendingRecords) (cp : Checkpoint O) :
    AcceptedPrefix (b.commit p a cp).1.pendingRecords := by
  have hr := commit_result p a b cp
  generalize b.commit p a cp = result at hr ⊢
  cases hr with
  | empty | noPrefix | overflow | failed => exact h
  | drained => exact h.drop_commitLen

/-- The accepted records come first in every reachable state, overflow or not. -/
theorem run_acceptedPrefix (p : Profile) (maxBufferSize : ℕ) (cs : List (Call O)) :
    AcceptedPrefix (run (Trace.step p) (.start maxBufferSize) cs).barrier.pendingRecords := by
  refine run_invariant (Trace.step p) (P := fun t => AcceptedPrefix t.barrier.pendingRecords)
    (fun t c h => ?_) (by simp [Trace.start,new,AcceptedPrefix]) cs
  have hpu : ∀ o, AcceptedPrefix (t.barrier.pushRecord o).1.pendingRecords := by
    intro o
    obtain ⟨xs,ys,hrs,hx,hy⟩ := h.split
    unfold pushRecord
    split_ifs
    · exact h
    · exact h
    · simp only [hrs,append_assoc]
      exact acceptedPrefix_append hx (by simpa [or_imp,forall_and] using hy)
  cases c with
  | addEvent | addNonPersistentEvent => exact hpu _
  | notifyConsumerAccepted n =>
    obtain ⟨rs,heq,hp,_⟩ := notify_keeps p h n
    simp only [Trace.step,heq]
    exact hp
  | acceptAndCommit n a =>
    obtain ⟨rs,heq,hp,_⟩ := notify_keeps p h n
    have hm : AcceptedPrefix (t.barrier.notifyConsumerAccepted p n).1.pendingRecords := by
      rw [heq]; exact hp
    simp only [Trace.step,Trace.settle]
    rcases acceptAndCommit_cases p h n a t.checkpoint with
      ⟨e,he⟩ | he | he | ⟨e,he⟩ <;> rw [he]
    · exact h
    · exact hm
    · exact commit_acceptedPrefix p a hm t.checkpoint
    · exact hm
  | commit a => exact commit_acceptedPrefix p a h t.checkpoint
  | hydrate =>
    simp only [Trace.step,hydrateCommittedEventCount]
    split_ifs <;> exact h
  | clearPending => simp [Trace.step,clearPending,AcceptedPrefix]

/-- Exactly `n` further records are accepted: offsets and earlier marks stay. -/
def MarksExactly (n : ℕ) (b b' : CommitBarrier O) : Prop :=
  b'.barrierState = b.barrierState ∧ b'.committedEventCount = b.committedEventCount ∧
    b'.maxBufferSize = b.maxBufferSize ∧
    List.Forall₂ (fun r r' => r'.offset = r.offset ∧ (r.accepted = true → r'.accepted = true))
      b.pendingRecords b'.pendingRecords ∧
    b'.pendingRecords.countP (·.accepted) = b.pendingRecords.countP (·.accepted)+n
section
variable (p : Profile) (b : CommitBarrier O) (n : UInt64)

/-- A notification marks exactly what it was asked to or fails and changes nothing. -/
def ExactAcceptance : Prop := (∃ b', b.notifyConsumerAccepted p n = (b',.ok ()) ∧ MarksExactly n.toNat b b') ∨
    ∃ e, b.notifyConsumerAccepted p n = (b,.err e)

/-- A failed `accept_and_commit` leaves barrier and store as they were, and unless it asked
for more records than are pending the same call succeeds once the store accepts writes. -/
def ExactRollback : Prop :=
  ∀ cp answer b' cp' e, b.acceptAndCommit p n answer cp = (b',cp',.err e) → b' = b ∧ cp' = cp ∧
      (n.toNat ≤ b.unaccepted → ∃ b'' cp'', b'.acceptAndCommit p n (.ok ()) cp' = (b'',cp'',.ok ()))
end
section
variable {b : CommitBarrier O} {xs ys : List (PendingRecord O)}
  (hrs : b.pendingRecords = xs++ys) (hx : ∀ r ∈ xs, r.accepted = true)
  (hy : ∀ r ∈ ys, r.accepted = false)
include hrs hx hy

lemma marksExactly_marked {n : ℕ} (hl : n ≤ ys.length) : MarksExactly n b (b.marked xs ys n) := by
  refine ⟨rfl,rfl,rfl,?_,?_⟩
  · rw [hrs,marked]
    refine rel_append (forall₂_same.mpr fun r _ => ⟨rfl,id⟩) ?_
    have hm : List.Forall₂ (fun r r' => r'.offset = r.offset ∧ (r.accepted = true → r'.accepted = true))
        (ys.take n++ys.drop n) ((ys.take n).map accept++ys.drop n) :=
      rel_append (forall₂_map_right_iff.mpr (forall₂_same.mpr fun r _ => ⟨rfl,fun _ => rfl⟩))
        (forall₂_same.mpr fun r _ => ⟨rfl,id⟩)
    rwa [take_append_drop] at hm
  · rw [hrs,countP_accepted hx hy,marked,← append_assoc,countP_accepted]
    · simp [hl]
    · exact mem_append_accept hx
    · exact fun r hr => hy r (mem_of_mem_drop hr)
section
variable (p : Profile) {n : UInt64} (hn : n ≠ 0 ∨ ys = [])
include hn

lemma exactAcceptance_of_split : ExactAcceptance p b n := by
  by_cases hl : n.toNat ≤ ys.length
  · exact .inl ⟨_,notify_exact hrs hx hy p hn hl,marksExactly_marked hrs hx hy hl⟩
  · have hu := unaccepted_split hrs hx hy
    refine .inr ⟨.checkpointError "acceptance notification exceeds pending records",?_⟩
    rw [notifyConsumerAccepted,if_pos (by omega)]

lemma exactRollback_of_split : ExactRollback p b n := by
  have hu := unaccepted_split hrs hx hy
  intro cp a b' cp' e her
  by_cases hl : n.toNat ≤ ys.length
  · rcases acceptAndCommit_exact p hrs hx hy hn hl a cp with ⟨e',co,_,he,ha,_⟩ | ⟨he,hno⟩
    · have heq := he.symm.trans her
      obtain ⟨rfl,rfl,-⟩ := heq
      refine ⟨rfl,rfl,fun _ => ?_⟩
      rcases acceptAndCommit_exact p hrs hx hy hn hl (.ok ()) cp with ⟨_,_,hok,_⟩ | ⟨hr,hnot⟩
      · cases hok
      · rw [hr]
        have hre := commit_result p (.ok ()) (b.marked xs ys n.toNat) cp
        generalize (b.marked xs ys n.toNat).commit p (.ok ()) cp = result at hre hnot
        cases hre with
        | empty | drained => exact ⟨_,_,rfl⟩
        | noPrefix => exact absurd rfl (hnot _)
        | overflow _ ho => cases ha.symm.trans ho
        | failed _ _ _ _ han => cases han
    · exact absurd (by rw [← he,her]) (hno e)
  · have hnotify : b.notifyConsumerAccepted p n =
        (b,.err (.checkpointError "acceptance notification exceeds pending records")) := by
      rw [notifyConsumerAccepted,if_pos (by omega)]
    simp only [acceptAndCommit,hnotify,Prod.mk.injEq] at her
    exact ⟨her.1.symm,her.2.1.symm,fun h => absurd h (by omega)⟩
end
end
/-- With a zero count and an unaccepted record the loop marks records nobody accepted. -/
theorem not_exactAcceptance_zero (p : Profile) (h : b.unaccepted ≠ 0) : ¬ ExactAcceptance p b 0 := by
  have hp : b.pendingRecords.countP (·.accepted) < (markAccepted p 0 b.pendingRecords).1.countP (·.accepted) :=
    markAccepted_progress p 0 (Nat.pos_of_ne_zero h)
  have hn : b.notifyConsumerAccepted p 0 = ({b with pendingRecords := (markAccepted p 0 b.pendingRecords).1},
        (markAccepted p 0 b.pendingRecords).2) := by
    rw [notifyConsumerAccepted,if_neg (by simp)]
  rintro (⟨b',hb',-,-,-,-,hc⟩ | ⟨e,he⟩)
  · rw [hn,Prod.mk.injEq] at hb'
    rw [← hb'.1] at hc
    simp only [UInt64.toNat_zero] at hc
    omega
  · rw [hn,Prod.mk.injEq] at he
    have hs := congrArg (fun b => b.pendingRecords.countP (·.accepted)) he.1
    simp only at hs
    omega

/-- Acceptance and rollback are exact in a reachable state if and only if the count is not
zero or nothing is left to accept. -/
theorem acceptance_exact_iff (p : Profile) (maxBufferSize : ℕ) (calls : List (Call O)) (n : UInt64) :
    let b := (run (Trace.step p) (.start maxBufferSize) calls).barrier
    (ExactAcceptance p b n ∧ ExactRollback p b n) ↔ (n ≠ 0 ∨ b.unaccepted = 0) := by
  intro b
  obtain ⟨xs,ys,hrs,hx,hy⟩ := (run_acceptedPrefix p maxBufferSize calls).split
  have hu := unaccepted_split hrs hx hy
  constructor
  · rintro ⟨ha,-⟩
    by_contra hno
    rw [not_or,not_not] at hno
    exact not_exactAcceptance_zero p hno.2 (hno.1 ▸ ha)
  · intro hn
    have hn' : n ≠ 0 ∨ ys = [] := hn.imp_right fun h => List.length_eq_zero_iff.mp (hu ▸ h)
    exact ⟨exactAcceptance_of_split hrs hx hy p hn',exactRollback_of_split hrs hx hy p hn'⟩

/-- Accepting zero of two pending records marks both in a release build, marks one and panics
in a checked build, and the marks survive a refused write. -/
theorem zero_count_marks :
    let b : CommitBarrier ℕ := (run (Trace.step .release) (.start 4) [.addEvent 1,.addEvent 2]).barrier
    let refused := b.acceptAndCommit .release 0 (.error (.checkpointError "disk full")) ⟨[]⟩
    (b.notifyConsumerAccepted .release 0).1.pendingRecords = [⟨some 1,true⟩,⟨some 2,true⟩] ∧
      (b.notifyConsumerAccepted .debug 0).1.pendingRecords = [⟨some 1,true⟩,⟨some 2,false⟩] ∧
      (b.notifyConsumerAccepted .debug 0).2 = .panicked ∧
      refused.2.2 = .err (.checkpointError "disk full") ∧
      refused.1.pendingRecords = [⟨some 1,true⟩,⟨some 2,true⟩] ∧
      ¬ (ExactAcceptance .release b 0 ∧ ExactRollback .release b 0) := by
  refine ⟨by decide,by decide,by decide,by decide,by decide,?_⟩
  exact fun h => not_exactAcceptance_zero .release (by decide) h.1
end Rustcdc.CommitBarrier
