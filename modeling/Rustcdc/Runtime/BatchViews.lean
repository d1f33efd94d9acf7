import Rustcdc.Runtime.Withhold

/-! The ways of reading a returned batch.  A batch shares the buffer of its delivery and starts
at an offset in it, the committed part, which each accessor has to skip. -/
namespace Rustcdc
open List Machine CdcRuntime

/-- `Vec::dedup`: of equal neighbours the first stays. -/
def dedup : List String → List String
  | a::b::names => if a = b then dedup (b::names) else a::dedup (b::names)
  | names => names
def sortedNames (names : List String) : List String := dedup (names.insertionSort (· ≤ ·))

lemma mem_dedup {n : String} (names : List String) : n ∈ dedup names ↔ n ∈ names := by
  fun_induction dedup names with
  | case1 a names ih => rw [ih]; simp
  | case2 a b names _ ih => rw [mem_cons,ih,mem_cons (l := b::names)]
  | case3 => rfl

lemma dedup_increasing {names : List String} (h : names.Pairwise (· ≤ ·)) : (dedup names).Pairwise (· < ·) := by
  fun_induction dedup names with
  | case1 a names ih => exact ih (pairwise_cons.mp h).2
  | case2 a b names hne ih =>
    obtain ⟨ha,ht⟩ := pairwise_cons.mp h
    refine pairwise_cons.mpr ⟨fun n hn => ?_,ih ht⟩
    have hab : a < b := lt_of_le_of_ne (ha b mem_cons_self) hne
    rcases mem_cons.mp ((mem_dedup _).mp hn) with rfl | hn
    · exact hab
    · exact lt_of_lt_of_le hab ((pairwise_cons.mp ht).1 n hn)
  | case3 names hs =>
    rcases names with _ | ⟨a,_ | ⟨b,names⟩⟩
    · exact .nil
    · exact pairwise_singleton _ a
    · exact absurd rfl (hs a b names)

/-- Exactly these names, each once, in increasing order. -/
def Lists (listed names : List String) : Prop := listed.Pairwise (· < ·) ∧ ∀ n, n ∈ listed ↔ n ∈ names
lemma sortedNames_lists (names : List String) : Lists (sortedNames names) names :=
  ⟨dedup_increasing (pairwise_insertionSort _ _),fun n => by rw [sortedNames,mem_dedup,mem_insertionSort]⟩

namespace EventBatch
variable (batch : EventBatch)

def len : ℕ := batch.events.length-batch.offset

/-- `iter` and iteration over a borrowed batch. -/
def iter : List Event := batch.visible
def intoEvents : List Event := if batch.offset = 0 then batch.events else batch.events.drop batch.offset

/-- Iteration over an owned batch takes the buffer apart from its start. -/
def intoIter : List Event := batch.events
def oldestEventSourceTimestampMs : Option UInt64 := (batch.visible.map (·.ts)).min?
def latestEventSourceTimestampMs : Option UInt64 := (batch.visible.map (·.ts)).max?
def hasKeyOnlyBefores : Bool := batch.visible.any (·.beforeIsKeyOnly)
def tables : List String := sortedNames (batch.visible.map (·.table))

/-- Over the buffer, where `tables` is over the events shown. -/
def qualifiedTables : List String := sortedNames (batch.events.map (·.qualifiedTableName))
def eventCountForTable (table : String) : ℕ := (batch.visible.filter (·.table = table)).length

/-- The accessors that skip the committed part describe these events, and so does the token. -/
structure Describes (events : List Event) : Prop where
  visible : batch.visible = events
  len : batch.len = events.length
  isEmpty : batch.isEmpty = decide (batch.len = 0)
  iter : batch.iter = events
  intoEvents : batch.intoEvents = events
  oldest : batch.oldestEventSourceTimestampMs = (events.map (·.ts)).min?
  latest : batch.latestEventSourceTimestampMs = (events.map (·.ts)).max?
  keyOnly : batch.hasKeyOnlyBefores = events.any (·.beforeIsKeyOnly)
  tables : Lists batch.tables (events.map (·.table))
  counts : ∀ table, batch.eventCountForTable table = events.countP (·.table = table)
  ack : ∀ token, batch.ackMode = .required token → token.eventCount = events.length
  required : batch.ackMode = .notRequired ↔ events = []

variable {batch} {events : List Event}

lemma describes_of_visible (hv : batch.visible = events)
    (ha : ∀ tk, batch.ackMode = .required tk → tk.eventCount = events.length)
    (hr : batch.ackMode = .notRequired ↔ events = []) : batch.Describes events := by
  have hl : batch.len = events.length := by rw [← hv,visible,length_drop]; rfl
  refine ⟨hv,hl,?_,hv,?_,hv ▸ rfl,hv ▸ rfl,hv ▸ rfl,hv ▸ sortedNames_lists _,fun t => ?_,ha,hr⟩
  · rw [hl,isEmpty,hv]
    cases events <;> rfl
  · rw [intoEvents,← hv,visible]
    split_ifs with h0
    · rw [h0,drop_zero]
    · rfl
  · rw [countP_eq_length_filter,← hv]; rfl

/-- A batch of an unfinished delivery describes what is uncommitted of it. -/
theorem describes_remaining {p : PendingDelivery} (hp : p.committedPrefix < p.events.length) (id epoch : UInt64) :
    (EventBatch.mk p.events p.committedPrefix (some ⟨id,p.remaining.length,epoch⟩)).Describes p.remaining := by
  refine describes_of_visible rfl (fun tk h => ?_) ⟨fun h => (by cases h),fun h => ?_⟩
  · cases h; rfl
  · have hl := congrArg length h
    simp only [PendingDelivery.remaining,length_drop,length_nil] at hl
    omega
end EventBatch
section
variable {S H : Type} [SnapshotHandle S] [StreamHandle H] [Handoff S H]

lemma pollEventBatch_describes {rt rn : CdcRuntime S H} {as : PollAnswers S H}
    {batch : EventBatch} (hb : rt.core.Balanced) (hr : rt.pollEventBatch as = some (rn,.ok batch)) :
    batch.Describes rn.uncommittedEvents := by
  obtain ⟨hb',-,ho⟩ := pollEventBatch_poll hb hr
  have hu {p} (hp : rn.core.pendingDelivery = some p) : rn.uncommittedEvents = p.remaining := by
    rw [uncommittedEvents,show rn.pendingDelivery = some p from hp]
  cases ho with
  | redelivered p hp hc =>
    have hp' : rn.core.pendingDelivery = some p := hc ▸ hp
    rw [hu hp']
    exact EventBatch.describes_remaining (hb'.partly p hp').1 _ _
  | nothing _ hn =>
    rw [uncommittedEvents,show rn.pendingDelivery = none from hn]
    exact EventBatch.describes_of_visible rfl (fun _ h => by cases h) ⟨fun _ => rfl,fun _ => rfl⟩
  | delivered es _ _ hp =>
    rw [hu hp]
    exact EventBatch.describes_remaining (hb'.partly _ hp).1 _ _

/-- Whatever was polled and committed before, every accessor of a returned batch describes the
uncommitted suffix of the delivery; owned iteration and the list of qualified names do so when
no part of the delivery was committed. -/
theorem batch_views_agree (config : RuntimeConfig) (checkpoint : Checkpoint Offset) (count : UInt64)
    (guard : Option EventIdempotencyGuard) (snapshot : Option S) (stream : Option H)
    (calls : List (RuntimeCall S H)) (answers : PollAnswers S H) (runtime : CdcRuntime S H)
    (batch : EventBatch) (hr : (run Ledger.step (Ledger.start
      (CdcRuntime.started config checkpoint count guard snapshot stream)) calls).runtime.pollEventBatch
        answers = some (runtime,.ok batch)) :
    batch.Describes runtime.uncommittedEvents ∧ (batch.offset = 0 → batch.intoIter = runtime.uncommittedEvents ∧
      Lists batch.qualifiedTables (runtime.uncommittedEvents.map (·.qualifiedTableName))) := by
  have hb := (run_balanced config checkpoint count guard snapshot stream calls).1
  have hd := pollEventBatch_describes hb hr
  refine ⟨hd,fun h0 => ?_⟩
  have he : batch.events = runtime.uncommittedEvents := by
    rw [← hd.visible,EventBatch.visible,h0,drop_zero]
  exact ⟨he,he ▸ sortedNames_lists _⟩
end
/-- A transaction of two rows, in two tables. -/
def bothTables : List Event := [Rounds.halfOf 1 0,{Rounds.halfOf 1 1 with table := "u"}]

def unpolled : CdcRuntime Empty ScriptedStream :=
  CdcRuntime.started (Rounds.budgetConfig 1000) ⟨[]⟩ 0 none none (some ⟨⟩)
def firstRowCommitted : CdcRuntime Empty ScriptedStream := (run Ledger.step (Ledger.start unpolled)
    [.poll (Session.pollAnswers bothTables),.commit ⟨1,1,0⟩ Session.accepting]).runtime

theorem batch_views_agree_sample : ∃ (runtime : CdcRuntime Empty ScriptedStream) (batch : EventBatch),
    batch.offset = 0 ∧ batch.visible = bothTables ∧
    batch.Describes runtime.uncommittedEvents ∧ batch.intoIter = runtime.uncommittedEvents := by
  have hr : ∃ runtime batch, unpolled.pollEventBatch (Session.pollAnswers bothTables) =
      some (runtime,.ok batch) ∧ batch.offset = 0 ∧ batch.visible = bothTables :=
    ⟨_,_,rfl,by decide,by decide⟩
  obtain ⟨runtime,batch,hr,h0,hv⟩ := hr
  have hs : (run Ledger.step (Ledger.start unpolled) []).runtime = unpolled := rfl
  obtain ⟨hd,hi⟩ := batch_views_agree (S := Empty) (H := ScriptedStream) (Rounds.budgetConfig 1000) ⟨[]⟩ 0
    none none (some ⟨⟩) [] (Session.pollAnswers bothTables) runtime batch (hs.symm ▸ hr)
  exact ⟨runtime,batch,h0,hv,hd,(hi h0).1⟩

/-- Polled again, the batch shows the second row; iterating over it gives the committed row as
well, and the committed row's table is listed. -/
theorem committed_row_iterated : ∃ runtime batch,
    firstRowCommitted.pollEventBatch (Session.pollAnswers []) = some (runtime,.ok batch) ∧
    batch.visible = bothTables.drop 1 ∧ batch.len = 1 ∧ batch.intoIter = bothTables ∧
    batch.qualifiedTables = ["t","u"] ∧ batch.tables = ["u"] :=
  ⟨_,_,rfl,by decide,by decide,by decide,by decide,by decide⟩
end Rustcdc
