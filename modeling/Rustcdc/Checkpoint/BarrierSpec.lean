import Rustcdc.Checkpoint.Barrier

/-! What one barrier call does.  Every statement is about a queue split as accepted records
followed by unaccepted ones, the shape every run of the barrier keeps. -/
namespace Rustcdc.CommitBarrier
open List
variable {O : Type}

def accept (record : PendingRecord O) : PendingRecord O := {record with accepted := true}
def AcceptedPrefix (records : List (PendingRecord O)) : Prop :=
  ∀ r ∈ records.dropWhile (·.accepted), r.accepted = false
  deriving Decidable

variable {b : CommitBarrier O} {xs ys : List (PendingRecord O)}

lemma acceptedPrefix_append (hx : ∀ r ∈ xs, r.accepted = true) (hy : ∀ r ∈ ys, r.accepted = false) :
    AcceptedPrefix (xs++ys) := by
  intro r hr
  rw [dropWhile_append_of_pos hx] at hr
  exact hy r (dropWhile_subset _ hr)

variable {re : List (PendingRecord O)}

lemma AcceptedPrefix.split (h : AcceptedPrefix re) :
    ∃ xs ys, re = xs++ys ∧ (∀ r ∈ xs, r.accepted = true) ∧ ∀ r ∈ ys, r.accepted = false :=
  ⟨re.takeWhile (·.accepted),re.dropWhile (·.accepted),(takeWhile_append_dropWhile).symm,
    fun _ hr => mem_takeWhile_imp hr,h⟩
section
variable {xs ys : List (PendingRecord O)}
section
variable (hx : ∀ r ∈ xs, r.accepted = true) (hy : ∀ r ∈ ys, r.accepted = false)
include hx hy

lemma countP_unaccepted : (xs++ys).countP (!·.accepted) = ys.length := by
  rw [countP_append,countP_eq_zero.mpr (by simpa using hx),countP_eq_length.mpr (by simpa using hy),Nat.zero_add]
lemma countP_accepted : (xs++ys).countP (·.accepted) = xs.length := by
  rw [countP_append,countP_eq_length.mpr hx,countP_eq_zero.mpr (by simpa using hy),Nat.add_zero]

lemma takeWhile_split : (xs++ys).takeWhile (·.accepted) = xs := by
  rw [takeWhile_append_of_pos hx]
  cases ys with
  | nil => simp
  | cons y => simp [hy y (by simp)]
end
end
variable (p : Profile)
section
variable (n : UInt64)

lemma markAccepted_append (hx : ∀ r ∈ xs, r.accepted = true) (ys : List (PendingRecord O)) :
    markAccepted p n (xs++ys) = (xs++(markAccepted p n ys).1,(markAccepted p n ys).2) := by
  induction xs with
  | nil => simp
  | cons x xs ih =>
    have hxx := hx x (by simp)
    rw [cons_append,markAccepted,if_pos hxx,ih (fun r hr => hx r (by simp [hr]))]
    simp

lemma markAccepted_unaccepted (hy : ∀ r ∈ ys, r.accepted = false) (hp : 0 < n.toNat) (hl : n.toNat ≤ ys.length) :
    markAccepted p n ys = ((ys.take n.toNat).map accept++ys.drop n.toNat,.ok ()) := by
  induction ys generalizing n with
  | nil => simp at hl; omega
  | cons y ys ih =>
    have hyy : y.accepted = false := hy y (by simp)
    have ho : (1 : UInt64) ≤ n := UInt64.le_iff_toNat_le.mpr hp
    have hs : (n-1).toNat = n.toNat-1 := by simpa using UInt64.toNat_sub_of_le n 1 ho
    obtain ⟨k,hk⟩ : ∃ k, n.toNat = k+1 := ⟨n.toNat-1,by omega⟩
    simp only [markAccepted,hyy,Bool.false_eq_true,if_false,p.sub_of_le ho]
    by_cases hz : n-1 = 0
    · have hk0 : k = 0 := by
        have := congrArg UInt64.toNat hz
        simp [hs,hk] at this
        exact this
      simp [hz,hk,hk0,accept]
    · have hkp : 0 < (n-1).toNat := by
        rcases Nat.eq_zero_or_pos (n-1).toNat with h0 | h0
        · exact absurd (UInt64.toNat_inj.mp (by simpa using h0)) hz
        · exact h0
      have hre := ih (n-1) (fun r hr => hy r (by simp [hr])) hkp (by simp at hl; omega)
      have hk' : (n-1).toNat = k := by omega
      rw [if_neg hz,hre,hk',hk]
      simp [accept]

lemma markAccepted_gain (re : List (PendingRecord O)) : re.countP (·.accepted)+min 1 (re.countP (!·.accepted)) ≤
      (markAccepted p n re).1.countP (·.accepted) := by
  induction re generalizing n with
  | nil => simp [markAccepted]
  | cons r rs ih =>
    cases hr : r.accepted with
    | true =>
      have := ih n
      simp [markAccepted,hr]
      omega
    | false =>
      simp only [markAccepted,hr,Bool.false_eq_true,if_false]
      cases p.sub n 1 with
      | none => simp [hr]
      | some m =>
        by_cases hm : m = 0
        · simp [hr,hm]
        · have := ih m
          simp [hr,hm]
          omega

/-- However it ends, the loop marks at least one record when one is unaccepted. -/
theorem markAccepted_progress (h : 0 < re.countP (!·.accepted)) :
    re.countP (·.accepted) < (markAccepted p n re).1.countP (·.accepted) := by
  have := markAccepted_gain p n re
  omega

/-- On unaccepted records the loop marks some initial part, whatever the count. -/
theorem markAccepted_initial (hy : ∀ r ∈ ys, r.accepted = false) :
    ∃ k, (markAccepted p n ys).1 = (ys.take k).map accept++ys.drop k := by
  induction ys generalizing n with
  | nil => exact ⟨0,by simp [markAccepted]⟩
  | cons y ys ih =>
    have hyy : y.accepted = false := hy y (by simp)
    simp only [markAccepted,hyy,Bool.false_eq_true,if_false]
    cases p.sub n 1 with
    | none => exact ⟨1,by simp [accept]⟩
    | some m =>
      by_cases hm : m = 0
      · exact ⟨1,by simp [hm,accept]⟩
      · obtain ⟨k,hk⟩ := ih m (fun r hr => hy r (by simp [hr]))
        exact ⟨k+1,by simp [hm,hk,accept]⟩
end
/-- Everything a `commit` can do. -/
inductive CommitResult (p : Profile) (answer : Except Error Unit) (b : CommitBarrier O)
    (cp : Checkpoint O) : CommitBarrier O × Checkpoint O × Ending Unit → Prop
  | empty (h : b.pendingRecords = []) : CommitResult p answer b cp ({b with barrierState := .committed},cp,.ok ())
  | noPrefix (h : b.pendingRecords ≠ []) (hlen : b.commitLen = 0) : CommitResult p answer b cp
        (b,cp,.err (.checkpointError "cannot commit with no accepted prefix"))
  | overflow (hlen : 0 < b.commitLen) (hadd : p.add b.committedEventCount (UInt64.ofNat b.commitLen) = none) :
      CommitResult p answer b cp ({b with barrierState := .flushing},cp,.panicked)
  | failed (e : Error) (count : UInt64) (hlen : 0 < b.commitLen)
      (hadd : p.add b.committedEventCount (UInt64.ofNat b.commitLen) = some count)
      (hans : answer = .error e)
      (hwrite : ∃ o, lastPersistable (b.pendingRecords.take b.commitLen) = some o) :
      CommitResult p answer b cp (b,cp,.err e)
  | drained (count : UInt64) (cp' : Checkpoint O) (hlen : 0 < b.commitLen)
      (hadd : p.add b.committedEventCount (UInt64.ofNat b.commitLen) = some count)
      (hcp : (lastPersistable (b.pendingRecords.take b.commitLen) = none ∧ cp' = cp) ∨
        ∃ o, lastPersistable (b.pendingRecords.take b.commitLen) = some o ∧ cp' = ⟨cp.saved++[(o,count)]⟩) :
      CommitResult p answer b cp ({b with
          committedEventCount := count
          pendingRecords := b.pendingRecords.drop b.commitLen
          barrierState :=
            if (b.pendingRecords.drop b.commitLen).isEmpty then .committed else .opened},
          cp',.ok ())

lemma commit_result (a : Except Error Unit) (b : CommitBarrier O) (cp : Checkpoint O) :
    CommitResult p a b cp (b.commit p a cp) := by
  unfold commit
  by_cases he : b.pendingRecords = []
  · simpa [he] using CommitResult.empty (p := p) (b := b) he
  · rw [if_neg (by simpa using he)]
    by_cases hle : b.commitLen = 0
    · rw [if_pos hle]
      exact .noPrefix he hle
    · have hp : 0 < b.commitLen := Nat.pos_of_ne_zero hle
      rw [if_neg hle]
      cases ha : p.add b.committedEventCount (UInt64.ofNat b.commitLen) with
      | none => exact .overflow hp ha
      | some n =>
        cases hl : lastPersistable (b.pendingRecords.take b.commitLen) with
        | none => exact .drained n cp hp ha (.inl ⟨hl,rfl⟩)
        | some o =>
          cases a with
          | ok => exact .drained n _ hp ha (.inr ⟨o,hl,rfl⟩)
          | error e => exact .failed e n hp ha rfl ⟨o,hl⟩

lemma lastPersistable_congr {rs rs' : List (PendingRecord O)}
    (h : rs'.map (·.offset) = rs.map (·.offset)) : lastPersistable rs' = lastPersistable rs := by
  have hm : ∀ l : List (PendingRecord O), lastPersistable l = (l.map (·.offset)).reverse.findSome? id := by
    intro l
    simp [lastPersistable,← map_reverse,List.findSome?_map]
  rw [hm,hm,h]

lemma commitLen_le (b : CommitBarrier O) : b.commitLen ≤ b.pendingRecords.length :=
  List.IsPrefix.length_le ( takeWhile_prefix _)

lemma AcceptedPrefix.drop_commitLen (h : AcceptedPrefix b.pendingRecords) :
    AcceptedPrefix (b.pendingRecords.drop b.commitLen) := by
  obtain ⟨xs,ys,hrs,hx,hy⟩ := h.split
  have hl : b.commitLen = xs.length := by rw [commitLen,hrs,takeWhile_split hx hy]
  have hn : ∀ r ∈ ([] : List (PendingRecord O)), r.accepted = true := by simp
  rw [hl,hrs,drop_left]
  simpa using acceptedPrefix_append hn hy

lemma mem_append_accept {zs : List (PendingRecord O)} (hx : ∀ r ∈ xs, r.accepted = true) :
    ∀ r ∈ xs++zs.map accept, r.accepted = true := by
  intro r hr
  rcases mem_append.mp hr with hr | hr
  · exact hx r hr
  · obtain ⟨r',_,rfl⟩ := mem_map.mp hr
    rfl

lemma map_offset_accept (k : ℕ) (ys : List (PendingRecord O)) :
    ((ys.take k).map accept++ys.drop k).map (·.offset) = ys.map (·.offset) := by
  calc ((ys.take k).map accept++ys.drop k).map (·.offset)
      = (ys.take k).map (·.offset)++(ys.drop k).map (·.offset) := by
        rw [map_append,map_map]; rfl
    _ = ys.map (·.offset) := by rw [← map_append,take_append_drop]

/-- A notification only moves marks, and keeps them an initial part of the queue. -/
theorem notify_keeps (h : AcceptedPrefix b.pendingRecords) (n : UInt64) :
    ∃ re, (b.notifyConsumerAccepted p n).1 = {b with pendingRecords := re} ∧
      AcceptedPrefix re ∧ re.map (·.offset) = b.pendingRecords.map (·.offset) := by
  unfold notifyConsumerAccepted
  split
  · exact ⟨b.pendingRecords,rfl,h,rfl⟩
  · obtain ⟨xs,ys,hrs,hx,hy⟩ := h.split
    obtain ⟨k,hk⟩ := markAccepted_initial p n hy
    refine ⟨_,rfl,?_,?_⟩
    · rw [hrs,markAccepted_append p n hx,hk,← append_assoc]
      exact acceptedPrefix_append (mem_append_accept hx) fun r hr => hy r (mem_of_mem_drop hr)
    · rw [hrs,markAccepted_append p n hx,hk,map_append,map_offset_accept,map_append]
section
variable {b : CommitBarrier O} {xs ys : List (PendingRecord O)}
  (hrs : b.pendingRecords = xs++ys) (hx : ∀ r ∈ xs, r.accepted = true)
  (hy : ∀ r ∈ ys, r.accepted = false)

/-- The barrier with the first `n` unaccepted records marked. -/
def marked (b : CommitBarrier O) (xs ys : List (PendingRecord O)) (n : ℕ) : CommitBarrier O :=
  {b with pendingRecords := xs++((ys.take n).map accept++ys.drop n)}

include hrs hx hy

lemma unaccepted_split : b.unaccepted = ys.length := by
  rw [unaccepted,hrs,countP_unaccepted hx hy]

lemma notify_exact (p : Profile) {n : UInt64} (hn : n ≠ 0 ∨ ys = [])
    (hl : n.toNat ≤ ys.length) : b.notifyConsumerAccepted p n = (b.marked xs ys n.toNat,.ok ()) := by
  have hu := unaccepted_split hrs hx hy
  rw [notifyConsumerAccepted,if_neg (by omega),hrs,markAccepted_append p n hx,marked]
  rcases hn with hn | rfl
  · have hp : 0 < n.toNat := by
      rcases Nat.eq_zero_or_pos n.toNat with h0 | h0
      · exact absurd (UInt64.toNat_inj.mp (by simpa using h0)) hn
      · exact h0
    rw [markAccepted_unaccepted p n hy hp hl]
  · simp [markAccepted]

omit hrs in
lemma commitLen_marked {n : ℕ} (hl : n ≤ ys.length) : (b.marked xs ys n).commitLen = xs.length+n := by
  have hs : (b.marked xs ys n).pendingRecords = (xs++(ys.take n).map accept)++ys.drop n := by
    simp [marked]
  rw [commitLen,hs,takeWhile_split (mem_append_accept hx) fun r hr => hy r (mem_of_mem_drop hr)]
  simp [hl]
end
lemma unmark_zero (skip : ℕ) (rs : List (PendingRecord O)) : unmark skip 0 rs = rs := by
  simp [unmark]

lemma unmark_accept (hy : ∀ r ∈ ys, r.accepted = false) {n : ℕ} (hle : n ≤ ys.length) :
    unmark xs.length n (xs++((ys.take n).map accept++ys.drop n)) = xs++ys := by
  have hl : ((ys.take n).map accept).length = n := by simp [hle]
  have hb : ((ys.take n).map accept).map ({· with accepted := false}) = ys.take n := by
    rw [map_map]
    refine (map_congr_left fun r hr => ?_).trans (map_id _)
    have hr' := hy r (mem_of_mem_take hr)
    cases r
    simp_all [accept]
  have ht : ((ys.take n).map accept++ys.drop n).take n = (ys.take n).map accept := take_left' hl
  have hd : ((ys.take n).map accept++ys.drop n).drop n = ys.drop n := drop_left' hl
  rw [unmark,take_left,drop_left,ht,hd,hb,append_assoc,take_append_drop]

/-- `accept_and_commit` of an exact count: either the store refuses the write and nothing has
changed, or it does what committing the marked queue does. -/
theorem acceptAndCommit_exact (hrs : b.pendingRecords = xs++ys) (hx : ∀ r ∈ xs, r.accepted = true)
    (hy : ∀ r ∈ ys, r.accepted = false) {n : UInt64} (hn : n ≠ 0 ∨ ys = [])
    (hle : n.toNat ≤ ys.length) (answer : Except Error Unit) (cp : Checkpoint O) :
    (∃ e count, answer = .error e ∧ b.acceptAndCommit p n answer cp = (b,cp,.err e) ∧
      p.add b.committedEventCount (UInt64.ofNat (b.marked xs ys n.toNat).commitLen) = some count ∧
      ∃ o, lastPersistable ((b.marked xs ys n.toNat).pendingRecords.take
        (b.marked xs ys n.toNat).commitLen) = some o) ∨
    (b.acceptAndCommit p n answer cp = (b.marked xs ys n.toNat).commit p answer cp ∧
      ∀ e, ((b.marked xs ys n.toNat).commit p answer cp).2.2 ≠ .err e) := by
  have hp : b.pendingRecords.countP (·.accepted) = xs.length := by
    rw [hrs,countP_accepted hx hy]
  have hr : unmark xs.length n.toNat (b.marked xs ys n.toNat).pendingRecords =
      b.pendingRecords := by rw [marked,unmark_accept hy hle,hrs]
  have hl := commitLen_marked (b := b) hx hy hle
  have hre := commit_result p answer (b.marked xs ys n.toNat) cp
  simp only [acceptAndCommit,notify_exact hrs hx hy p hn hle,hp]
  generalize (b.marked xs ys n.toNat).commit p answer cp = result at hre ⊢
  cases hre with
  | empty | overflow | drained => exact .inr ⟨rfl,by simp⟩
  | noPrefix h =>
    -- the marked queue has an empty accepted prefix only when it is itself empty
    have hxs : xs = [] := length_eq_zero_iff.mp (by omega)
    have hys : ys = [] := by
      rcases hn with hn | hn
      · exact absurd (UInt64.toNat_inj.mp (by simp; omega)) hn
      · exact hn
    exact absurd (by simp [marked,hxs,hys]) h
  | failed e count h ha han hw =>
    refine .inl ⟨e,count,han,?_,ha,hw⟩
    simp only [hr]
    rfl

/-- What `accept_and_commit` can do, for any count.  The last case is a zero count whose
marks, set by the wrapped counter, outlive the failed write. -/
theorem acceptAndCommit_cases (h : AcceptedPrefix b.pendingRecords) (n : UInt64)
    (a : Except Error Unit) (cp : Checkpoint O) :
    (∃ e, b.acceptAndCommit p n a cp = (b,cp,.err e)) ∨
    b.acceptAndCommit p n a cp = ((b.notifyConsumerAccepted p n).1,cp,.panicked) ∨
    b.acceptAndCommit p n a cp = (b.notifyConsumerAccepted p n).1.commit p a cp ∨
    ∃ e, b.acceptAndCommit p n a cp = ((b.notifyConsumerAccepted p n).1,cp,.err e) := by
  obtain ⟨xs,ys,hrs,hx,hy⟩ := h.split
  have hu := unaccepted_split hrs hx hy
  by_cases hl : n.toNat ≤ ys.length
  · by_cases hn : n ≠ 0 ∨ ys = []
    · have hno := notify_exact hrs hx hy p hn hl
      rcases acceptAndCommit_exact p hrs hx hy hn hl a cp with ⟨e,_,_,he,_⟩ | ⟨he,_⟩
      · exact .inl ⟨e,he⟩
      · exact .inr (.inr (.inl (by rw [he,hno])))
    · have hn0 : n = 0 := by
        by_contra hne
        exact hn (.inl hne)
      obtain ⟨re,hr,_,_⟩ := notify_keeps p h n
      cases hno : b.notifyConsumerAccepted p n with
      | mk notified ending =>
        rw [hno] at hr
        cases ending with
        | err e =>
          exact .inr (.inr (.inr ⟨e,by simp [acceptAndCommit,hno]⟩))
        | panicked => exact .inr (.inl (by simp [acceptAndCommit,hno]))
        | ok =>
          right; right
          have hre := commit_result p a notified cp
          simp only [acceptAndCommit,hno]
          generalize notified.commit p a cp = result at hre ⊢
          cases hre with
          | empty | overflow | drained => exact .inl rfl
          | noPrefix =>
            refine .inr ⟨.checkpointError "cannot commit with no accepted prefix",?_⟩
            simp only [hn0,UInt64.toNat_zero,unmark_zero]
            rw [show notified = {b with pendingRecords := re} from hr]
          | failed e =>
            refine .inr ⟨e,?_⟩
            simp only [hn0,UInt64.toNat_zero,unmark_zero]
            rw [show notified = {b with pendingRecords := re} from hr]
  · left
    refine ⟨.checkpointError "acceptance notification exceeds pending records",?_⟩
    simp only [acceptAndCommit,notifyConsumerAccepted,if_pos (show b.unaccepted < n.toNat by omega)]

/-- In a build without overflow checks, accepting `n` records of an unaccepted queue either
leaves everything as it was or drains exactly those `n`. -/
theorem acceptAndCommit_release (hu : ∀ r ∈ b.pendingRecords, r.accepted = false) {n : UInt64}
    (hp : 0 < n.toNat) (hle : n.toNat ≤ b.pendingRecords.length) (a : Except Error Unit)
    (cp : Checkpoint O) :
    (∃ e o, a = .error e ∧ lastPersistable (b.pendingRecords.take n.toNat) = some o ∧
      b.acceptAndCommit .release n a cp = (b,cp,.err e)) ∨
    ∃ cp', b.acceptAndCommit .release n a cp = ({b with
          committedEventCount := b.committedEventCount+UInt64.ofNat n.toNat
          pendingRecords := b.pendingRecords.drop n.toNat
          barrierState :=
            if (b.pendingRecords.drop n.toNat).isEmpty then .committed else .opened},
          cp',.ok ()) ∧
      ((lastPersistable (b.pendingRecords.take n.toNat) = none ∧ cp' = cp) ∨
        ∃ o, lastPersistable (b.pendingRecords.take n.toNat) = some o ∧
          cp' = ⟨cp.saved++[(o,b.committedEventCount+UInt64.ofNat n.toNat)]⟩) := by
  have hnon : ∀ r ∈ ([] : List (PendingRecord O)), r.accepted = true := by simp
  have hrs : b.pendingRecords = []++b.pendingRecords := rfl
  have hn : n ≠ 0 ∨ b.pendingRecords = [] := .inl fun h => by simp [h] at hp
  set m := b.marked [] b.pendingRecords n.toNat with hm
  have hlen : m.commitLen = n.toNat := by
    simpa using commitLen_marked (b := b) hnon hu hle
  have ho : m.pendingRecords.map (·.offset) = b.pendingRecords.map (·.offset) := by
    simpa [hm,marked] using map_offset_accept n.toNat b.pendingRecords
  have hd : m.pendingRecords.drop n.toNat = b.pendingRecords.drop n.toNat := by
    rw [hm,marked,nil_append]
    exact drop_left' (by simp [hle])
  have hl : lastPersistable (m.pendingRecords.take n.toNat) = lastPersistable (b.pendingRecords.take n.toNat) := by
    apply lastPersistable_congr
    simpa only [map_take] using congrArg (List.take n.toNat) ho
  have hni : m.pendingRecords ≠ [] := by
    intro h
    have hz := congrArg List.length ho
    rw [h] at hz
    simp at hz
    omega
  rcases acceptAndCommit_exact .release hrs hnon hu hn hle a cp with
    ⟨e,_,han,he,_,o,hw⟩ | ⟨he,hno⟩
  · rw [hlen,hl] at hw
    exact .inl ⟨e,o,han,hw,he⟩
  · right
    rw [he]
    have hr := commit_result .release a m cp
    generalize m.commit .release a cp = result at hr hno
    cases hr with
    | empty h => exact absurd h hni
    | noPrefix => exact absurd rfl (hno _)
    | overflow _ ha => exact absurd ha (by simp [Profile.release_add])
    | failed e => exact absurd rfl (hno e)
    | drained co cp' _ ha hc =>
      cases ha
      rw [hlen,hl] at hc
      refine ⟨cp',?_,hc⟩
      rw [hlen,hd]
      rfl
end Rustcdc.CommitBarrier
