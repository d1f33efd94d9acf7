import Rustcdc.Core.Fingerprint

/-! The idempotency guard against what it is for: a window over the last accepted fingerprints.
The map and the queue are updated apart, by insertion, by eviction and by expiry. -/
namespace Rustcdc.EventIdempotencyGuard
open List Machine

def new (capacity : ℕ) : Except Error EventIdempotencyGuard :=
  if capacity = 0 then .error (.configError "idempotency guard capacity must be greater than zero")
  else .ok ⟨capacity,none,[],[]⟩
def withTtlMs (g : EventIdempotencyGuard) (ttlMs : UInt64) : Except Error EventIdempotencyGuard :=
  if ttlMs = 0 then .error (.configError "idempotency guard ttl_ms must be greater than zero")
  else .ok {g with ttlMs := some ttlMs}

/-- A guard as its caller makes it. -/
def build (capacity : ℕ) : Option UInt64 → Except Error EventIdempotencyGuard
  | none => new capacity
  | some ttlMs => (new capacity).bind (withTtlMs · ttlMs)

/-- The entry has not expired. -/
def live (ttl : Option UInt64) (now : UInt64) (entry : UInt64 × UInt64) : Bool :=
  ttl.all fun ttl => now.toNat-entry.2.toNat < ttl.toNat

/-- The last `capacity` accepted fingerprints that have not expired, the newest first. -/
def window (capacity : ℕ) (ttl : Option UInt64) (now : UInt64) (accepted : List (UInt64 × UInt64)) :
    List (UInt64 × UInt64) := (accepted.filter (live ttl now)).take capacity

variable {ttl : Option UInt64} {now clock : UInt64} {x y : UInt64 × UInt64} {capacity : ℕ}
  {order seen accepted : List (UInt64 × UInt64)}

lemma live_mono (hxy : x.2.toNat ≤ y.2.toNat) (hc : clock.toNat ≤ now.toNat) (h : live ttl now x = true) :
    live ttl clock y = true := by
  cases ttl with
  | none => rfl
  | some => simp only [live,Option.all_some,decide_eq_true_eq] at h ⊢; omega

lemma remove_perm (hp : seen.Perm (x::order)) (hn : ((x::order).map Prod.fst).Nodup) :
    (remove x.1 seen).Perm order := by
  refine (hp.filter _).trans ?_
  rw [filter_cons_of_neg (by simp),filter_eq_self.mpr fun y hy => ?_]
  simp only [map_cons,nodup_cons,mem_map,not_exists,not_and] at hn
  exact decide_eq_true (hn.1 y hy)

/-- Expiry takes the same entries out of the queue and the map. -/
lemma pruneFront_spec {ttl : UInt64} (hp : seen.Perm order) (hn : (order.map Prod.fst).Nodup)
    (ht : order.Pairwise fun a b => a.2.toNat ≤ b.2.toNat) :
    (pruneFront ttl now order seen).1 = order.filter (live (some ttl) now) ∧
      (pruneFront ttl now order seen).2.Perm (pruneFront ttl now order seen).1 := by
  induction order generalizing seen with
  | nil => exact ⟨rfl,hp⟩
  | cons x order ih =>
    obtain ⟨ho,ht⟩ := pairwise_cons.mp ht
    unfold pruneFront
    split_ifs with hx
    · -- what follows a live entry is younger
      have hl : live (some ttl) now x = true := decide_eq_true hx
      rw [filter_eq_self.mpr (forall_mem_cons.mpr ⟨hl,fun y hy => live_mono (ho y hy) le_rfl hl⟩)]
      exact ⟨rfl,hp⟩
    · rw [filter_cons_of_neg (by simpa [live] using hx)]
      exact ih (remove_perm hp hn) (nodup_cons.mp hn).2 ht

/-- Eviction leaves the last `capacity` entries in both. -/
lemma evict_spec (hp : seen.Perm order) (hn : (order.map Prod.fst).Nodup) :
    (evict capacity order seen).1 = order.drop (order.length-capacity) ∧
      (evict capacity order seen).2.Perm (evict capacity order seen).1 := by
  induction order generalizing seen with
  | nil => exact ⟨by simp [evict],hp⟩
  | cons x order ih =>
    have hl := hp.length_eq
    unfold evict
    split_ifs with hc
    · rw [← hl,Nat.sub_eq_zero_of_le hc]
      exact ⟨rfl,hp⟩
    · obtain ⟨he,hs⟩ := ih (remove_perm hp hn) (nodup_cons.mp hn).2
      rw [length_cons] at hl ⊢
      rw [show order.length+1-capacity = order.length-capacity+1 by omega]
      exact ⟨he,hs⟩

/-- The window moves on with the clock. -/
lemma window_filter (ht : accepted.Pairwise fun a b => b.2.toNat ≤ a.2.toNat) (hc : clock.toNat ≤ now.toNat) :
    (window capacity ttl clock accepted).filter (live ttl now) = window capacity ttl now accepted := by
  unfold window
  induction accepted generalizing capacity with
  | nil => simp
  | cons x l ih =>
    obtain ⟨ho,ht⟩ := pairwise_cons.mp ht
    cases hx : live ttl now x with
    | true =>
      rw [filter_cons_of_pos (live_mono le_rfl hc hx),filter_cons_of_pos hx]
      cases capacity with
      | zero => rfl
      | succ => rw [take_succ_cons,take_succ_cons,filter_cons_of_pos hx,ih ht]
    | false =>
      -- what was accepted before has expired as well
      have hn : ∀ y ∈ x::l, ¬live ttl now y = true := forall_mem_cons.mpr ⟨by simp [hx],fun y hy h => by
        rw [live_mono (ho y hy) le_rfl h] at hx
        cases hx⟩
      rw [filter_eq_nil_iff.mpr hn,take_nil,filter_eq_nil_iff]
      exact fun y hy => hn y (mem_of_mem_filter (mem_of_mem_take hy))

/-- A guard with all it has accepted, the newest first, and the time of its last call. -/
structure GuardTrace where
  guard : EventIdempotencyGuard
  accepted : List (UInt64 × UInt64)
  clock : UInt64

variable (hash : FingerprintImage → UInt64)
namespace GuardTrace
variable (t : GuardTrace) (call : UInt64 × Event)

def step : GuardTrace where
  guard := (t.guard.shouldProcess hash call.1 call.2).1
  accepted :=
    match eventIsIdentifiable call.2, fingerprintEventTransient hash call.2,
      (t.guard.shouldProcess hash call.1 call.2).2 with
    | true, .ok fingerprint, .ok true => (fingerprint,call.1)::t.accepted
    | _, _, _ => t.accepted
  clock := call.1

/-- The clock does not go back. -/
def InTime : Prop := t.clock.toNat ≤ call.1.toNat
end GuardTrace
/-- Queue and map hold the window. -/
structure Windowed (capacity : ℕ) (ttl : Option UInt64) (now : UInt64) (accepted : List (UInt64 × UInt64))
    (g : EventIdempotencyGuard) : Prop where
  holds : g.capacity = capacity
  expires : g.ttlMs = ttl
  timed : accepted.Pairwise fun a b => b.2.toNat ≤ a.2.toNat
  past : ∀ x ∈ accepted, x.2.toNat ≤ now.toNat
  order : g.order.reverse = window capacity ttl now accepted
  seen : g.seen.Perm g.order
  keys : (g.order.map Prod.fst).Nodup

variable {g : EventIdempotencyGuard} {fp : UInt64} {hash}
namespace Windowed
lemma pruned (h : Windowed capacity ttl clock accepted g) (hc : clock.toNat ≤ now.toNat) :
    Windowed capacity ttl now accepted (g.pruneExpired now) := by
  have ht : g.order.Pairwise fun a b => a.2.toNat ≤ b.2.toNat :=
    pairwise_reverse.mp (h.order ▸ h.timed.sublist ((take_sublist _ _).trans filter_sublist))
  obtain ⟨seen,hg,hs⟩ : ∃ seen, g.pruneExpired now = ⟨capacity,ttl,seen,g.order.filter (live ttl now)⟩ ∧
      seen.Perm (g.order.filter (live ttl now)) := by
    obtain ⟨_,ttlMs,seen,order⟩ := g
    cases h.holds
    cases h.expires
    cases ttlMs with
    | none =>
      rw [filter_eq_self.mpr fun _ _ => (rfl : live none now _ = true)]
      exact ⟨seen,rfl,h.seen⟩
    | some =>
      obtain ⟨ho,hs⟩ := pruneFront_spec h.seen h.keys ht
      rw [← ho]
      exact ⟨_,rfl,hs⟩
  rw [hg]
  refine ⟨rfl,rfl,h.timed,fun x hx => (h.past x hx).trans hc,?_,hs,h.keys.sublist (filter_sublist.map _)⟩
  rw [← filter_reverse,h.order,window_filter h.timed hc]
section
variable (h : Windowed capacity ttl now accepted g)
include h

lemma contains_iff (fp : UInt64) : g.contains fp = true ↔ fp ∈ (window capacity ttl now accepted).map Prod.fst := by
  rw [contains,any_eq_true,← h.order,map_reverse,mem_reverse,mem_map]
  simp only [decide_eq_true_eq,h.seen.mem_iff]
lemma length_le : g.order.length ≤ capacity := by
  rw [← length_reverse,h.order]
  exact length_take_le _ _

lemma inserted (hl : ∀ v ∈ ttl, 0 < v.toNat)
    (hf : g.contains fp = false) : Windowed capacity ttl now ((fp,now)::accepted) (g.insert fp now) := by
  have hn : ∀ y ∈ g.order, y.1 ≠ fp := fun y hy he => by
    simp only [contains,any_eq_false,decide_eq_true_eq] at hf
    exact hf y (h.seen.mem_iff.mpr hy) he
  have hx : live ttl now (fp,now) = true := by
    cases ttl with
    | none => rfl
    | some v => simpa [live] using hl v rfl
  have hp : ((fp,now)::remove fp g.seen).Perm (g.order++[(fp,now)]) := by
    rw [remove,filter_eq_self.mpr fun y hy => decide_eq_true (hn y (h.seen.mem_iff.mp hy))]
    exact (h.seen.cons _).trans (perm_append_singleton _ _).symm
  have hk : ((g.order++[(fp,now)]).map Prod.fst).Nodup := by
    rw [map_append,nodup_append]
    refine ⟨h.keys,nodup_singleton _,fun a ha b hb => ?_⟩
    obtain ⟨y,hy,rfl⟩ := mem_map.mp ha
    exact mem_singleton.mp hb ▸ hn y hy
  obtain ⟨ho,hs⟩ := @evict_spec g.capacity _ _ hp hk
  refine ⟨h.holds,h.expires,pairwise_cons.mpr ⟨h.past,h.timed⟩,forall_mem_cons.mpr ⟨le_rfl,h.past⟩,?_,hs,?_⟩
  · dsimp only [insert]
    rw [ho,← take_reverse,h.holds,reverse_append,h.order,window,window,filter_cons_of_pos hx]
    cases capacity with
    | zero => rfl
    | succ k => simp [take_take]
  · exact (congrArg (map Prod.fst) ho).symm ▸ hk.sublist ((drop_sublist _ _).map _)
end
lemma step (hl : ∀ v ∈ ttl, 0 < v.toNat) (t : GuardTrace) (call : UInt64 × Event)
    (h : Windowed capacity ttl t.clock t.accepted t.guard) (ht : t.InTime call) :
    Windowed capacity ttl (t.step hash call).clock (t.step hash call).accepted (t.step hash call).guard := by
  have hp := h.pruned ht
  unfold GuardTrace.step shouldProcess
  cases eventIsIdentifiable call.2 with
  | false => simpa using hp
  | true =>
    cases fingerprintEventTransient hash call.2 with
    | error => simpa using hp
    | ok fp =>
      cases hc : (t.guard.pruneExpired call.1).contains fp with
      | true => simpa [hc] using hp
      | false => simpa [hc] using hp.inserted hl hc
end Windowed
lemma build_ok (hb : build capacity ttl = .ok g) : (∀ v ∈ ttl, 0 < v.toNat) ∧ g = ⟨capacity,ttl,[],[]⟩ := by
  cases ttl with
  | none =>
    simp only [build,new] at hb
    split_ifs at hb
    exact ⟨by simp,(Except.ok.inj hb).symm⟩
  | some v =>
    by_cases hc : capacity = 0
    · simp [build,new,hc,Except.bind] at hb
    · simp only [build,new,if_neg hc,Except.bind,withTtlMs] at hb
      split_ifs at hb with h0
      refine ⟨fun w hw => ?_,(Except.ok.inj hb).symm⟩
      cases hw
      exact Nat.pos_of_ne_zero fun h => h0 (UInt64.toNat_inj.mp h)

namespace GuardTrace
/-- Over every sequence of events and any clock that does not go back, an event is suppressed
exactly when it is identifiable and its fingerprint is in the window; the map and the queue hold the
same fingerprints, at most `capacity` of them, one more before the loop of an insertion. -/
theorem sliding_window (hash : FingerprintImage → UInt64) (capacity : ℕ) (ttlMs : Option UInt64)
    (g : EventIdempotencyGuard) (hb : build capacity ttlMs = .ok g) (calls : List (UInt64 × Event))
    (hclock : Meets (step hash) InTime ⟨g,[],0⟩ calls) (now : UInt64) (e : Event)
    (hnow : (run (step hash) ⟨g,[],0⟩ calls).InTime (now,e)) :
    let t := run (step hash) ⟨g,[],0⟩ calls
    ((t.guard.shouldProcess hash now e).2 = .ok false ↔ eventIsIdentifiable e = true ∧
      ∃ fingerprint, fingerprintEventTransient hash e = .ok fingerprint ∧
        fingerprint ∈ (window capacity ttlMs now t.accepted).map Prod.fst) ∧
    t.guard.seen.Perm t.guard.order ∧ (t.guard.order.map Prod.fst).Nodup ∧ t.guard.order.length ≤ capacity ∧
    ∀ fingerprint, ((fingerprint,now)::remove fingerprint (t.guard.pruneExpired now).seen).length ≤ capacity+1 := by
  intro t
  obtain ⟨hl,rfl⟩ := build_ok hb
  have ht : Windowed capacity ttlMs t.clock t.accepted t.guard := run_invariant_of_meets (step hash)
    (P := fun t => Windowed capacity ttlMs t.clock t.accepted t.guard) (Windowed.step hl)
    ⟨rfl,rfl,.nil,by simp,by simp [window],.refl _,nodup_nil⟩ hclock
  have hp : Windowed capacity ttlMs now t.accepted (t.guard.pruneExpired now) := ht.pruned hnow
  refine ⟨?_,ht.seen,ht.keys,ht.length_le,fun fp => ?_⟩
  · unfold shouldProcess
    cases eventIsIdentifiable e with
    | false => simp
    | true =>
      cases fingerprintEventTransient hash e with
      | error => simp
      | ok fp =>
        have hm := hp.contains_iff fp
        cases hc : (t.guard.pruneExpired now).contains fp <;> simpa [hc] using hm
  · exact Nat.succ_le_succ ((length_filter_le _ _).trans (hp.seen.length_eq.trans_le hp.length_le))

/-- A row that is told from others by its offset, also by this hash. -/
def rowAt (offset : String) : Event := {first with source := ⟨"inventory",offset,1⟩}
def offsetSum (i : FingerprintImage) : UInt64 := UInt64.ofNat (i.offset.toList.map Char.toNat).sum

/-- The third row puts the first one out of a window of two; the second is forgotten after its time. -/
theorem sliding_window_sample :
    let t := run (step offsetSum) ⟨⟨2,some 10,[],[]⟩,[],0⟩ [(1,rowAt "1"),(3,rowAt "2"),(4,rowAt "3")]
    (t.guard.shouldProcess offsetSum 5 (rowAt "1")).2 ≠ .ok false ∧
      (t.guard.shouldProcess offsetSum 5 (rowAt "2")).2 = .ok false ∧
      (t.guard.shouldProcess offsetSum 14 (rowAt "2")).2 ≠ .ok false ∧ t.guard.order.length ≤ 2 := by
  intro t
  have h := sliding_window offsetSum 2 (some 10) ⟨2,some 10,[],[]⟩ rfl [(1,rowAt "1"),(3,rowAt "2"),(4,rowAt "3")]
    (by unfold InTime; decide)
  obtain ⟨hs,-,-,hl,-⟩ := h 5 (rowAt "2") (by unfold InTime; decide)
  exact ⟨by decide,hs.mpr ⟨by decide,50,by decide,by decide⟩,by decide,hl⟩
end GuardTrace
end Rustcdc.EventIdempotencyGuard
