import Rustcdc.Runtime.NoLoss
import Rustcdc.Source.Postgres.SnapshotProgress

/-! What a bulk snapshot's checkpoint covers.  A commit that reaches a snapshot row writes the
progress the handle reports, which is how far it has read; the trace keeps every row read and what
has been committed, to compare the two. -/
namespace Rustcdc
open List Machine

/-- A position written by a PostgreSQL bulk snapshot. -/
def Offset.isSnapshot : Offset → Bool
  | .snapshot _ _ => true
  | _ => false

namespace Postgres
open CdcRuntime

abbrev LoadingRuntime := CdcRuntime PostgresSnapshotHandle PostgresStreamHandle
abbrev LoadingAnswers := PollAnswers PostgresSnapshotHandle PostgresStreamHandle

/-- The progress a restart loads, if a snapshot wrote the last record. -/
def savedTables (checkpoint : Checkpoint Offset) : Option (List TableSnapshot) :=
  match checkpoint.load with
  | some (.snapshot _ state,_) => some state.tables
  | _ => none
section
variable (rt : LoadingRuntime) (answers : LoadingAnswers)

def polledRows : List SnapshotRow :=
  match rt.pollQueues answers.confirm with
  | (_,some _) => []
  | (rt,none) =>
    if rt.injectedEvents.isEmpty then
      match rt.snapshot with
      | none => []
      | some h => h.readRows rt.config.options.maxBufferSize answers.chunk
    else []

/-- What has to be committed for a row of the poll: its own event, or all its chunk became when
a stage changed the row or left it out. -/
def dueFor (row : SnapshotRow) : List Event :=
  match rt.arrival answers with
  | none => [row.event]
  | some (rt,events) =>
    match rt.passed answers.now events with
    | .error _ => [row.event]
    | .ok transformed => if row.event ∈ transformed then [row.event] else transformed
end
structure ReadRow where
  row : SnapshotRow
  due : List Event

/-- A runtime with the rows its snapshot has read and the events the caller has committed. -/
structure SnapshotTrace where
  runtime : LoadingRuntime
  read : List ReadRow
  committed : List Event

abbrev LoadingCall := RuntimeCall PostgresSnapshotHandle PostgresStreamHandle

namespace SnapshotTrace
def start (runtime : LoadingRuntime) : SnapshotTrace := ⟨runtime,[],[]⟩

def step (s : SnapshotTrace) : LoadingCall → SnapshotTrace
  | .poll answers =>
    match s.runtime.pollEventBatch answers with
    | none => s
    | some (runtime,_) =>
      {s with
        runtime := runtime
        read := s.read++(polledRows s.runtime answers).map fun row =>
          ⟨row,dueFor s.runtime answers row⟩}
  | .commit token answers =>
    let runtime := (s.runtime.commitAck .release (.required token) answers).1
    {s with
      runtime := runtime
      committed := s.committed++s.runtime.commitWindow (s.runtime.drained runtime)}

variable {κ : Type} [Preorder κ] (keyRank : ℕ → String → κ)
section
variable (s : SnapshotTrace)

/-- Whatever row a restart from the saved snapshot progress would skip is committed. -/
def CoversCommitted : Prop :=
  ∀ tables ∈ savedTables s.runtime.checkpoint, ∀ r ∈ s.read, Skips keyRank tables r.row → ∀ e ∈ r.due, e ∈ s.committed

def KeyOrdered : LoadingCall → Prop
  | .poll answers => ∀ h ∈ s.runtime.snapshot, InKeyOrder keyRank h.tables (polledRows s.runtime answers)
  | .commit _ _ => True

/-- The call loses no row and acknowledges everything held: a poll gets the rows it reads through,
as rows, and a commit that reaches a row while the snapshot is read leaves nothing held. -/
def Whole : LoadingCall → Prop
  | .poll answers =>
    s.runtime.pollSafe answers = true ∧
      (polledRows s.runtime answers ≠ [] → (s.runtime.arrival answers).isSome = true) ∧
      ∀ arrived ∈ s.runtime.arrival answers, ∀ transformed ∈ (arrived.1.passed answers.now arrived.2).toOption,
          (∀ e ∈ arrived.2, e.snapshot.isSome = true) → ∀ e ∈ transformed, e.snapshot.isSome = true
  | .commit token answers =>
    let window := s.runtime.commitWindow
      (s.runtime.drained (s.runtime.commitAck .release (.required token) answers).1)
    s.runtime.snapshot.isSome = true → window.any (·.snapshot.isSome) = true → window = s.runtime.held
end
instance (s : SnapshotTrace) (call : LoadingCall) : Decidable (s.Whole call) := by
  unfold Whole
  split <;> infer_instance

instance [DecidableLE κ] (saved : List TableSnapshot) (r : SnapshotRow) : Decidable (Skips keyRank saved r) := by
  unfold Skips
  infer_instance

instance [DecidableLT κ] (tables : List TableSnapshotState) (rows : List SnapshotRow) :
    Decidable (InKeyOrder keyRank tables rows) := by
  unfold InKeyOrder
  infer_instance

instance [DecidableLT κ] (s : SnapshotTrace) (call : LoadingCall) : Decidable (s.KeyOrdered keyRank call) := by
  unfold KeyOrdered
  split <;> infer_instance

instance [DecidableLE κ] (s : SnapshotTrace) : Decidable (s.CoversCommitted keyRank) := by
  unfold CoversCommitted
  infer_instance
end SnapshotTrace
variable {answers : LoadingAnswers} {rt : LoadingRuntime} {offset : Offset}

lemma recordOffset_isSnapshot {e : Event} (ho : rt.recordOffset e = .ok (some offset)) :
    offset.isSnapshot = false := by
  unfold recordOffset at ho
  split at ho
  · -- an incremental row persists the stream's own position
    rw [Except.ok.injEq,Option.bind_eq_some_iff] at ho
    obtain ⟨st,_,hp⟩ := ho
    cases hp
    rfl
  · unfold buildCheckpointOffset at ho
    dsimp only at ho
    repeat' split at ho
    all_goals cases ho
    all_goals rfl

/-- What the snapshot argument needs of a runtime: while the snapshot is read everything held is a
row of it and the barrier has no position to write; and no record is a snapshot's. -/
structure Loading (rt : LoadingRuntime) : Prop where
  noInjected : rt.injectedEvents = []
  rows : rt.snapshot.isSome = true → ∀ e ∈ rt.held, e.snapshot.isSome = true
  records : rt.snapshot.isSome = true → ∀ r ∈ rt.commitBarrier.pendingRecords, r.offset = none
  streamed : ∀ r ∈ rt.commitBarrier.pendingRecords, ∀ o ∈ r.offset, o.isSnapshot = false

namespace Loading
variable {rt : LoadingRuntime}

lemma retryPendingConfirmation (h : Loading rt) (cf : Except Error Unit) :
    Loading (rt.retryPendingConfirmation cf) := by
  obtain ⟨st,lsn,ps,hf⟩ := rt.retryPendingConfirmation_frame cf
  rw [hf]
  exact ⟨h.noInjected,h.rows,h.records,h.streamed⟩

lemma deliverBufferedBatch (h : Loading rt) (hn : rt.pendingDelivery = none) : Loading rt.deliverBufferedBatch.1 := by
  have hh := deliverBufferedBatch_held hn
  have hr := h.rows
  rw [← hh] at hr
  unfold CdcRuntime.deliverBufferedBatch at hr ⊢
  dsimp only at hr ⊢
  split <;> rename_i he
  · rw [if_pos he] at hr
    exact ⟨h.noInjected,hr,h.records,h.streamed⟩
  · rw [if_neg he] at hr
    exact ⟨h.noInjected,hr,h.records,h.streamed⟩

lemma flushed (h : Loading rt) (hsa : rt.flushChunk.all rt.admissible = true) : Loading rt.flushed := by
  have hn : ∀ r ∈ rt.flushed.commitBarrier.pendingRecords, r ∈ rt.commitBarrier.pendingRecords ∨
        ∃ e ∈ rt.flushChunk, rt.recordOffset e = .ok r.offset := by
    intro r hr
    simp only [CdcRuntime.flushed,withBuffered,mem_append,mem_map] at hr
    refine hr.imp_right ?_
    rintro ⟨e,he,hre⟩
    refine ⟨e,he,?_⟩
    have ha := all_eq_true.mp hsa e he
    simp only [admissible,Bool.and_eq_true] at ha
    obtain ⟨offset,hof⟩ := isOk_eq_true ha.2
    have hsam : ∀ re, ({rt with pendingSourceEvents := re} : LoadingRuntime).recordFor e =
        ⟨offset,false⟩ := by
      intro re
      have hres : ({rt with pendingSourceEvents := re} : LoadingRuntime).recordOffset e =
          .ok offset := hof
      simp [recordFor,hres,Except.toOption]
    rw [hsam] at hre
    rw [hof,← hre]
  refine ⟨h.noInjected,?_,?_,?_⟩
  · rw [flushed_held]
    exact h.rows
  · intro hs r hr
    rcases hn r hr with hr | ⟨e,he,hof⟩
    · exact h.records hs r hr
    · have hh : e ∈ rt.held := by
        simp only [held,mem_append]
        exact .inr (.inr (mem_of_mem_take he))
      have hso : rt.snapshot.isSome = true := hs
      rw [recordOffset,if_pos (h.rows hso e hh),Except.ok.injEq] at hof
      rw [← hof,← Option.not_isSome,hso]
      rfl
  · intro r hr o ho
    rcases hn r hr with hr | ⟨e,_,hof⟩
    · exact h.streamed r hr o ho
    · rw [Option.mem_def.mp ho] at hof
      exact recordOffset_isSnapshot hof

lemma pollQueues (h : Loading rt) (hb : rt.core.Balanced) {cf : Except Error Unit}
    (hs : rt.queueSafe cf = true) : Loading (rt.pollQueues cf).1 :=
  pollQueues_rule (fun _ cf h => h.retryPendingConfirmation cf)
    (fun _ h hn => h.deliverBufferedBatch hn) (fun _ h _ hf => h.flushed hf) hb h hs

lemma queued (h : Loading rt) (g : Option EventIdempotencyGuard) (ps : ℕ) {es : List Event}
    (hev : rt.snapshot.isSome = true → ∀ e ∈ es, e.snapshot.isSome = true) :
    Loading (rt.queued g ps es) := by
  refine ⟨h.noInjected,fun hs e he => ?_,h.records,h.streamed⟩
  rw [queued_held,mem_append] at he
  rcases he with he | he
  · exact h.rows hs e he
  · exact hev hs e he

lemma receive (h : Loading rt) {answers : LoadingAnswers} {rt' : LoadingRuntime}
    {rc : Except Error (List Event)} (hr : rt.receive answers = some (rt',rc))
    (hs : rt'.snapshot.isSome = true → rt.snapshot.isSome = true) : Loading rt' := by
  have hh : rt'.held = rt.held := receive_held hr
  have hi : rt'.injectedEvents = [] := by
    rw [CdcRuntime.receive,h.noInjected] at hr
    obtain ⟨snapshot,st,complete,hf⟩ := receiveFromSnapshot_frame hr
    exact (congrArg CdcRuntime.injectedEvents hf).trans h.noInjected
  have hb : rt'.commitBarrier = rt.commitBarrier := congrArg DeliveryCore.commitBarrier (receive_core hr)
  refine ⟨hi,fun hso => ?_,fun hso => ?_,?_⟩
  · rw [hh]
    exact h.rows (hs hso)
  · rw [hb]
    exact h.records (hs hso)
  · rw [hb]
    exact h.streamed
end Loading
section
variable {κ : Type} [Preorder κ] (k : ℕ → String → κ)

/-- A snapshot still open after a batch was received has read the poll's rows, and the batch is
made of them. -/
theorem receive_further {rt rt' : LoadingRuntime} (hi : rt.injectedEvents = [])
    {answers : LoadingAnswers} {rc : Except Error (List Event)}
    (hre : rt.receive answers = some (rt',rc)) {h' : PostgresSnapshotHandle}
    (hop : rt'.snapshot = some h') : ∃ h, rt.snapshot = some h ∧ (InKeyOrder k h.tables
        (h.readRows rt.config.options.maxBufferSize answers.chunk) → Further k h h') ∧
      ∀ es, rc = .ok es → ∀ e ∈ es, e.snapshot.isSome = true := by
  have hc : ∀ rt₁ : LoadingRuntime, rt₁.snapshot = none → rt₁.receiveFromStream answers = some (rt',rc) → False := by
    intro rt₁ hn hst
    obtain ⟨st,hfr⟩ := receiveFromStream_frame hst
    dsimp only at hfr
    rw [hfr] at hop
    cases hn.symm.trans hop
  rw [receive,hi] at hre
  simp only [isEmpty_nil,if_true,receiveFromSnapshot] at hre
  cases hs : rt.snapshot with
  | none =>
    rw [hs] at hre
    exact (hc rt hs hre).elim
  | some h =>
    rw [hs] at hre
    obtain ⟨hf,hro,he⟩ := h.nextChunk_follows rt.config.options.maxBufferSize answers.chunk
    simp only [SnapshotHandle.nextChunk] at hre
    generalize h.nextChunk rt.config.options.maxBufferSize answers.chunk = chunk at hre hf he
    refine ⟨h,rfl,?_⟩
    obtain ⟨rea,re⟩ := chunk
    cases re with
    | error =>
      cases hre
      cases hop
      exact ⟨hf.further,fun es heq => nomatch heq⟩
    | ok es =>
      cases es with
      | nil =>
        dsimp only at hre
        split at hre
        · exact (hc _ rfl hre).elim
        · split at hre
          · cases hre
            cases hop
            exact ⟨hf.further,fun es heq => nomatch heq⟩
          · rename_i st _
            have hh := performHandoff_follows rea st answers.handoff
            split at hre
            · rename_i heq
              cases hre
              cases hop
              refine ⟨fun ho => (hf.further ho).trans ?_, fun es heq => nomatch heq⟩
              have hfi : rea.Follows [] _ := (congrArg Prod.fst heq) ▸ hh
              exact hfi.further (by simp [InKeyOrder])
            · exact (hc _ rfl hre).elim
      | cons =>
        cases hre
        cases hop
        refine ⟨hf.further,fun es heq e' he' => ?_⟩
        cases heq
        rw [he _ rfl,mem_map] at he'
        obtain ⟨r,hr,rfl⟩ := he'
        exact hro r hr
end
lemma savedTables_snapshot (saved : List (Offset × UInt64)) (st : String)
    (sta : SnapshotCheckpointState) (n : UInt64) :
    savedTables ⟨saved++[(.snapshot st sta,n)]⟩ = some sta.tables := by
  simp [savedTables,Checkpoint.load]

lemma savedTables_stream (saved : List (Offset × UInt64)) (hs : offset.isSnapshot = false) (n : UInt64) :
    savedTables ⟨saved++[(offset,n)]⟩ = none := by
  cases offset with
  | snapshot => exact absurd hs (by simp [Offset.isSnapshot])
  | postgres _ _ _ | mysql _ _ _ _ _ _ | sqlserver _ _ | mysqlSnapshot _ _ _ _
  | sqlserverSnapshot _ | generic _ _ =>
    simp [savedTables,Checkpoint.load]

/-- The snapshot's write before a commit either leaves the store as it was, or saves the progress
of the handle. -/
theorem snapshotStore_cases (rt : LoadingRuntime) (n : ℕ) (answers : CommitAnswers) :
    rt.snapshotStore n answers = rt.checkpoint ∨
      (rt.persistSnapshotCheckpointBeforeCommit n answers.snapshotSave).2 = .ok () ∧
      (rt.commitWindow n).any (·.snapshot.isSome) = true ∧
      ∃ h target, rt.snapshot = some h ∧ rt.snapshotStore n answers =
        ⟨rt.checkpoint.saved++[(.snapshot "postgres_snapshot" h.checkpointState,target)]⟩ := by
  unfold snapshotStore persistSnapshotCheckpointBeforeCommit
  split
  · exact .inl rfl
  · rename_i hr
    rw [Bool.not_eq_true',Bool.not_eq_false] at hr
    cases hs : rt.snapshot with
    | none =>
      dsimp only
      split <;> exact .inl rfl
    | some h =>
      cases ha : answers.snapshotSave with
      | error => exact .inl rfl
      | ok => exact .inr ⟨rfl,hr,h,_,rfl,rfl⟩

namespace Loading
variable {rt : LoadingRuntime}
section
variable (h : Loading rt) (hs : rt.snapshot.isSome = true) (n : ℕ)
include h hs

lemma lastPersistable_none : CommitBarrier.lastPersistable (rt.commitBarrier.pendingRecords.take n) = none := by
  rw [CommitBarrier.lastPersistable,List.findSome?_eq_none_iff]
  intro r hr
  exact h.records hs r (mem_of_mem_take (mem_reverse.mp hr))

lemma confirmationLsn_none : rt.committedConfirmationLsn n = .ok none := by
  unfold committedConfirmationLsn
  split
  · rfl
  · split
    · rfl
    · rename_i last hl
      have hh : last ∈ rt.held := mem_append_left _ (mem_of_mem_take (mem_of_getLast? hl))
      rw [if_pos (h.rows hs last hh)]
end
variable {a : Checkpoint Offset} {as : CommitAnswers}

lemma refused_store (h : Loading rt) (hs : rt.RefusedStore as a) : a = rt.checkpoint := by
  cases hs with
  | untouched hsa => exact hsa
  | unsaved n hsa e hp =>
    rcases snapshotStore_cases rt n as with heq | ⟨hok,_⟩
    · exact hsa.trans heq
    · cases hok.symm.trans hp
  | saved n _ _ hsa hc =>
    rcases snapshotStore_cases rt n as with heq | ⟨_,_,hd,_,hop,_⟩
    · exact hsa.trans heq
    · have hso : rt.snapshot.isSome = true := by simp [hop]
      rcases hc with ⟨e,he⟩ | ⟨o,ho⟩
      · cases (h.confirmationLsn_none hso n).symm.trans he
      · cases (h.lastPersistable_none hso n).symm.trans ho

lemma durable (h : Loading rt) {rt' : LoadingRuntime} {count : ℕ}
    (hc : rt'.core = rt.core.advance count) (hres : rt'.remainder = rt.remainder) :
    Loading rt' := by
  have hs : rt'.snapshot = rt.snapshot := congrArg Remainder.snapshot hres
  have hre : rt'.commitBarrier.pendingRecords = rt.commitBarrier.pendingRecords.drop count :=
    congrArg (·.commitBarrier.pendingRecords) hc
  refine ⟨(congrArg Remainder.injectedEvents hres).trans h.noInjected,?_,?_,?_⟩
  · intro hso e he
    rw [hs] at hso
    refine h.rows hso e ?_
    rw [held_durable hc hres]
    exact mem_append_right _ he
  · intro hso r hr
    rw [hs] at hso
    rw [hre] at hr
    exact h.records hso r (mem_of_mem_drop hr)
  · intro r hr
    rw [hre] at hr
    exact h.streamed r (mem_of_mem_drop hr)

/-- What a durable commit leaves in the store: nothing of a snapshot, what was there, or the
handle's progress. -/
theorem durable_store (h : Loading rt) {n : ℕ} (hs : Stored rt.commitBarrier n (rt.snapshotStore n as) a) :
    savedTables a = none ∨ a = rt.checkpoint ∨ (rt.commitWindow n).any (·.snapshot.isSome) = true ∧
        ∃ hd, rt.snapshot = some hd ∧ savedTables a = some hd.snapshot.tables := by
  rcases hs with ⟨_,hsa⟩ | ⟨o,ho,hw⟩
  · rcases snapshotStore_cases rt n as with he | ⟨_,ha,hd,target,hop,he⟩
    · exact .inr (.inl (hsa.trans he))
    · refine .inr (.inr ⟨ha,hd,hop,?_⟩)
      rw [hsa,he,savedTables_snapshot]
      rfl
  · obtain ⟨r,hr,hof⟩ := exists_of_findSome?_eq_some ho
    have hm := mem_of_mem_take (mem_reverse.mp hr)
    exact .inl (hw ▸ savedTables_stream _ (h.streamed r hm o hof) _)
end Loading
lemma pollQueues_snapshot (hb : rt.core.Balanced) {cf : Except Error Unit} (hs : rt.queueSafe cf = true) :
    (rt.pollQueues cf).1.snapshot = rt.snapshot := by
  refine pollQueues_rule (I := fun rt' => rt'.snapshot = rt.snapshot) ?_ ?_ ?_ hb rfl hs
  · intro rt' cf h
    obtain ⟨st,lsn,ps,hf⟩ := rt'.retryPendingConfirmation_frame cf
    rw [hf]
    exact h
  · intro rt' h _
    unfold CdcRuntime.deliverBufferedBatch
    dsimp only
    split <;> exact h
  · intro rt' h _ _
    exact h

lemma snapshot_of_mem_polledRows {r : SnapshotRow} (hr : r ∈ polledRows rt answers) :
    ∃ h, (rt.pollQueues answers.confirm).1.snapshot = some h := by
  unfold polledRows at hr
  split at hr
  · simp at hr
  · rename_i rt₁ he
    split at hr
    · split at hr
      · simp at hr
      · rename_i h ho
        exact ⟨h,by rw [he,ho]⟩
    · simp at hr

lemma dueFor_admitted (hs : rt.pollSafe answers = true) (har : (rt.arrival answers).isSome = true) (r : SnapshotRow) :
    ∀ e ∈ dueFor rt answers r, e ∈ rt.admitted answers := by
  obtain ⟨ar,ha⟩ := Option.isSome_iff_exists.mp har
  obtain ⟨rt',es⟩ := ar
  rw [pollSafe,Bool.and_eq_true,ha] at hs
  have hb : rt'.batchSafe answers es = true := hs.2
  simp only [dueFor,admitted,ha]
  cases hp : rt'.passed answers.now es with
  | error => simp [batchSafe,hp] at hb
  | ok tr =>
    dsimp only
    split_ifs with hm
    · intro e he
      obtain rfl := mem_singleton.mp he
      exact hm
    · exact fun e he => he

namespace SnapshotTrace
variable {κ : Type} [Preorder κ] {keyRank : ℕ → String → κ}

/-- Between calls: every row read is committed or held, and the handle is done with everything it
reports and everything the store says of it. -/
structure Kept (keyRank : ℕ → String → κ) (s : SnapshotTrace) : Prop where
  balanced : s.runtime.core.Balanced
  loading : Loading s.runtime
  accounted : ∀ r ∈ s.read, ∀ e ∈ r.due, e ∈ s.committed++s.runtime.held
  covers : s.CoversCommitted keyRank
  reported : ∀ h ∈ s.runtime.snapshot, Behind keyRank h.snapshot.tables h.tables
  saved : ∀ h ∈ s.runtime.snapshot, ∀ tables ∈ savedTables s.runtime.checkpoint, Behind keyRank tables h.tables

variable {s : SnapshotTrace} {as : LoadingAnswers}
section
variable (h : s.Kept keyRank) (ho : s.KeyOrdered keyRank (.poll as)) (hw : s.Whole (.poll as))
include h ho hw

lemma Kept.loading_poll {r : LoadingRuntime × Except Error EventBatch} (hre : s.runtime.pollEventBatch as = some r) :
    Loading r.1 ∧ ∀ h' ∈ r.1.snapshot, ∃ h ∈ s.runtime.snapshot, Further keyRank h h' := by
  obtain ⟨hs,_,hro⟩ := hw
  have hqu : s.runtime.queueSafe as.confirm = true := by
    rw [pollSafe,Bool.and_eq_true] at hs
    exact hs.1
  have hque := pollQueues_snapshot h.balanced hqu
  refine pollEventBatch_rule (I := fun rt => Loading rt ∧
    ∀ h' ∈ rt.snapshot, ∃ h ∈ s.runtime.snapshot, Further keyRank h h') ?_ ?_ ?_ h.balanced
    ⟨h.loading,fun h' hop => ⟨h',hop,Further.refl h'⟩⟩ hs ?_ ?_ hre
  · rintro rt cf ⟨hl,hf⟩
    obtain ⟨st,lsn,ps,hfr⟩ := rt.retryPendingConfirmation_frame cf
    refine ⟨hl.retryPendingConfirmation cf,?_⟩
    rw [hfr]
    exact hf
  · rintro rt ⟨hl,hf⟩ hn
    refine ⟨hl.deliverBufferedBatch hn,?_⟩
    unfold CdcRuntime.deliverBufferedBatch
    dsimp only
    split <;> exact hf
  · rintro rt ⟨hl,hf⟩ _ hfl
    exact ⟨hl.flushed hfl,hf⟩
  · rintro rt₁ rt₂ rc ⟨hl,_⟩ hq hr
    rw [hq] at hque
    refine ⟨hl.receive hr fun hso => ?_,fun h' hop => ?_⟩
    · obtain ⟨h',hop⟩ := Option.isSome_iff_exists.mp hso
      obtain ⟨handle,hh,_⟩ := receive_further keyRank hl.noInjected hr hop
      simp [hh]
    · obtain ⟨handle,hh,hf,_⟩ := receive_further keyRank hl.noInjected hr hop
      have hb : s.runtime.snapshot = some handle := hque.symm.trans hh
      refine ⟨handle,hb,hf ?_⟩
      simpa [polledRows,hq,hl.noInjected,hh] using ho handle hb
  · rintro rt₂ es g ps tr ⟨hl,hf⟩ ha hp
    refine ⟨hl.queued g ps fun hso => ?_,hf⟩
    refine hro _ ha tr (by simp [hp,Except.toOption]) ?_
    -- the batch came from the snapshot, which is still open
    obtain ⟨h',hop⟩ := Option.isSome_iff_exists.mp hso
    obtain ⟨rt₁,hq,hr⟩ := arrival_receive ha
    have hl₁ := h.loading.pollQueues h.balanced hqu
    rw [hq] at hl₁
    obtain ⟨_,_,_,hba⟩ := receive_further keyRank hl₁.noInjected hr hop
    exact hba es rfl

lemma Kept.poll : (s.step (.poll as)).Kept keyRank := by
  simp only [SnapshotTrace.step]
  cases hre : s.runtime.pollEventBatch as with
  | none => exact h
  | some re =>
    obtain ⟨hl,hf⟩ := h.loading_poll ho hw hre
    obtain ⟨hsa,ha,_⟩ := hw
    have hb := (pollEventBatch_poll h.balanced hre).1
    have hh := pollEventBatch_held h.balanced hsa hre
    have hc : re.1.checkpoint = s.runtime.checkpoint := congrArg (·.2.2) (pollEventBatch_setup hre)
    obtain ⟨rn,b⟩ := re
    refine ⟨hb,hl,?_,?_,fun h' hop => ?_,fun h' hop ts ht => ?_⟩
    · intro r hr e he
      rw [mem_append,mem_map] at hr
      rw [hh,← append_assoc]
      rcases hr with hr | ⟨row,hro,rfl⟩
      · exact mem_append_left _ (h.accounted r hr e he)
      · have hp := ha (ne_nil_of_mem hro)
        exact mem_append_right _ (dueFor_admitted hsa hp row e he)
    · intro ts ht r hr hs
      rw [hc] at ht
      rw [mem_append,mem_map] at hr
      rcases hr with hr | ⟨row,hro,rfl⟩
      · exact h.covers ts ht r hr hs
      · -- a row just read comes after what the store says is done
        obtain ⟨hd,hop⟩ := snapshot_of_mem_polledRows hro
        rw [pollSafe,Bool.and_eq_true] at hsa
        rw [pollQueues_snapshot h.balanced hsa.1] at hop
        exact absurd hs ((h.saved hd hop ts ht).not_skips (ho hd hop) hro)
    · obtain ⟨hd,hbe,hm⟩ := hf h' hop
      exact hm.reported (h.reported hd hbe)
    · obtain ⟨hd,hbe,hm⟩ := hf h' hop
      rw [hc] at ht
      exact hm.saved ts (h.saved hd hbe ts ht)
end
lemma Kept.commit (h : s.Kept keyRank) (tk : AckToken) (as : CommitAnswers)
    (hw : s.Whole (.commit tk as)) : (s.step (.commit tk as)).Kept keyRank := by
  have hef := commitAck_effect h.balanced tk as
  simp only [Whole] at hw
  simp only [SnapshotTrace.step]
  generalize (s.runtime.commitAck .release (.required tk) as).1 = rn at hef hw ⊢
  cases hef with
  | refused _ hsa hst =>
    have hc := h.loading.refused_store hst
    have hru : rn = s.runtime := by
      rw [← hsa,← hc]
    subst hru
    rw [drained_refused hsa]
    simpa [commitWindow] using h
  | durable n _ hp hl hco hres hstr _ hst =>
    rw [drained_durable h.balanced hl hco] at hw ⊢
    have hh := held_durable hco hres
    have hs : rn.snapshot = s.runtime.snapshot := congrArg Remainder.snapshot hres
    have ha : ∀ r ∈ s.read, ∀ e ∈ r.due, e ∈ (s.committed++s.runtime.commitWindow n)++rn.held := by
      intro r hr e he
      rw [append_assoc,← hh]
      exact h.accounted r hr e he
    have hre : ∀ h' ∈ rn.snapshot, Behind keyRank h'.snapshot.tables h'.tables := by
      rw [hs]
      exact h.reported
    refine ⟨hco ▸ h.balanced.advance hp hl,h.loading.durable hco hres,ha,?_,hre,?_⟩
    all_goals rcases h.loading.durable_store hst with hn | hk | ⟨han,hd,ho,hne⟩
    · intro ts ht
      simp [hn] at ht
    · intro ts ht r hr hsk e he
      rw [hk] at ht
      exact mem_append_left _ (h.covers ts ht r hr hsk e he)
    · -- the handle's progress was written, and with it everything held was committed
      intro ts ht r hr hsk e he
      have hal := hw (by simp [ho]) han
      rw [hal]
      exact h.accounted r hr e he
    · intro h' ho ts ht
      simp [hn] at ht
    · rw [hs,hk]
      exact h.saved
    · intro h' ho' ts ht
      rw [hne] at ht
      rw [hs,ho] at ho'
      cases ht
      cases ho'
      exact h.reported _ ho

lemma Kept.step {c : LoadingCall} (h : s.Kept keyRank) (ho : s.KeyOrdered keyRank c)
    (hw : s.Whole c) : (s.step c).Kept keyRank := by
  cases c with
  | poll => exact h.poll ho hw
  | commit tk as => exact h.commit tk as hw

lemma start_kept (cf : RuntimeConfig) (cp : Checkpoint Offset) (co : UInt64)
    (g : Option EventIdempotencyGuard) (sn snapshotId : String)
    (startTs snapshotWatermark : UInt64) (ts : List PostgresSnapshotHandle.TableSetup)
    {decode : String → Except String (List String)} {snapshot : Option PostgresSnapshotHandle}
    (hs : (PostgresSnapshotHandle.startSnapshot sn snapshotId startTs snapshotWatermark
      ts).startFromCheckpoint decode cp = .ok snapshot)
    (st : Option PostgresStreamHandle) :
    (start (.started cf cp co g snapshot st)).Kept keyRank := by
  have hb : ∀ h ∈ snapshot, Behind keyRank h.snapshot.tables h.tables ∧
      ∀ saved ∈ savedTables cp, Behind keyRank saved h.tables := by
    intro h ho
    obtain rfl := Option.mem_def.mp ho
    unfold PostgresSnapshotHandle.startFromCheckpoint at hs
    unfold savedTables
    cases hl : cp.load with
    | none =>
      simp only [hl,Except.ok.injEq,Option.some.injEq] at hs
      subst hs
      exact ⟨Behind.refl _,by simp⟩
    | some r =>
      obtain ⟨offset,n⟩ := r
      cases offset with
      | snapshot so sta =>
        simp only [hl] at hs
        split at hs
        · obtain ⟨_,hr,he⟩ := except_map_ok hs
          cases he
          obtain ⟨hst,hre,-⟩ := PostgresSnapshotHandle.resumeFromCheckpointPayload_tables hr
          refine ⟨?_,fun saved hsa => ?_⟩
          · rw [hre]
            exact Behind.refl _
          · cases hsa
            rw [← hst]
            exact Behind.refl _
        · cases hs
      | postgres _ _ _ | mysql _ _ _ _ _ _ | sqlserver _ _ | mysqlSnapshot _ _ _ _
      | sqlserverSnapshot _ | generic _ _ => simp [hl] at hs
  refine ⟨Session.started_balanced cf cp co g snapshot st,?_,?_,?_,fun h ho => (hb h ho).1,fun h ho => (hb h ho).2⟩
  · constructor <;> simp [start,CdcRuntime.started,held,uncommittedEvents]
  · simp [start]
  · simp [CoversCommitted,start]

/-- In a run whose polls lose no row they read and whose commits, while the snapshot is read,
acknowledge everything held, the saved progress never covers a row that is not committed, and a restart
from the store reads every uncommitted row again. -/
theorem checkpoint_covers_committed (keyRank : ℕ → String → κ) (config : RuntimeConfig)
    (checkpoint : Checkpoint Offset) (count : UInt64) (guard : Option EventIdempotencyGuard)
    (sourceName snapshotId : String) (startTs snapshotWatermark : UInt64)
    (tables : List PostgresSnapshotHandle.TableSetup)
    (decode : String → Except String (List String)) (snapshot : Option PostgresSnapshotHandle)
    (hstart : (PostgresSnapshotHandle.startSnapshot sourceName snapshotId startTs snapshotWatermark
      tables).startFromCheckpoint decode checkpoint = .ok snapshot)
    (stream : Option PostgresStreamHandle) (calls : List LoadingCall)
    (hordered : Meets step (KeyOrdered keyRank)
      (start (.started config checkpoint count guard snapshot stream)) calls)
    (hwhole : Meets step Whole (start (.started config checkpoint count guard snapshot stream)) calls) :
    (run step (start (.started config checkpoint count guard snapshot stream)) calls).CoversCommitted keyRank := by
  have hk := run_invariant_of_meets step (fun s call (h : s.Kept keyRank) hc => h.step hc.1 hc.2)
    (start_kept config checkpoint count guard sourceName snapshotId startTs snapshotWatermark tables
      hstart stream) (meets_and step hordered hwhole)
  exact hk.covers

/-- Two-event buffers on a PostgreSQL source. -/
def loadingConfig : RuntimeConfig := {Session.plainConfig with
    source := .postgres "slot"
    options := Session.pairOptions}

def users : List PostgresSnapshotHandle.TableSetup := [⟨"users",3,["id"]⟩]
def usersSnapshot : PostgresSnapshotHandle := .startSnapshot "postgres" "snapshot-1" 1 100 users
def loadingStream : PostgresStreamHandle := .new "postgres" "slot" 0 (.streaming 0 0) 0 (fun _ _ => true) []
def loadingStart : SnapshotTrace :=
  start (.started loadingConfig ⟨[]⟩ 0 none (some usersSnapshot) (some loadingStream))

/-- A row with its key. -/
def keyed (key : String) : List String × Json := ([key],.obj [("id",.str key)])

/-- A poll whose queries answer in turn, with no rows once the answers are used up. -/
def loading (queries : List (List (List String × Json))) : LoadingCall := .poll
    {confirm := .ok ()
     now := 1
     schemaHistory := fun _ => none
     chunk := ⟨1,fun query => .ok (queries.getD query [])⟩
     handoff := ⟨some 100,some 100,1,.ok (),.ok ()⟩
     attempts := []}

/-- The keys of the samples are in the order of their lengths. -/
def keyLength (_ : ℕ) (cursor : String) : ℕ := cursor.toList.length

/-- Three rows in two chunks, each acknowledged whole. -/
def wholeChunks : List LoadingCall := [loading [[keyed "1",keyed "10"]],.commit ⟨1,2,0⟩ Session.accepting,
    loading [[keyed "100"]],.commit ⟨2,1,0⟩ Session.accepting]

theorem checkpoint_covers_committed_sample :
    let s := run step loadingStart wholeChunks
    s.read.length = 3 ∧ s.committed.length = 3 ∧
      (savedTables s.runtime.checkpoint).isSome = true ∧ s.CoversCommitted keyLength := by
  have ho : Meets step (KeyOrdered keyLength) loadingStart wholeChunks := by decide
  have hw : Meets step Whole loadingStart wholeChunks := by decide
  exact ⟨by decide,by decide,by decide,
    checkpoint_covers_committed keyLength loadingConfig ⟨[]⟩ 0 none "postgres" "snapshot-1" 1 100
      users (fun _ => .ok []) (some usersSnapshot) rfl (some loadingStream) wholeChunks ho
      hw⟩

/-- A chunk of two rows of which one is acknowledged. -/
def narrowedChunk : List LoadingCall := [loading [[keyed "1",keyed "10"]],.commit ⟨1,1,0⟩ Session.accepting]

/-- The rows come in key order, and the saved cursor is the second row's, which is still in
flight. -/
theorem narrowed_commit_covers :
    let s := run step loadingStart narrowedChunk
    Meets step (KeyOrdered keyLength) loadingStart narrowedChunk ∧
      s.committed = s.read.head?.toList.map (·.row.event) ∧
      (savedTables s.runtime.checkpoint).map (·.map (·.cursorPosition)) = some [s.read.getLast?.bind (·.row.cursor)] ∧
      s.runtime.held = s.read.getLast?.toList.map (·.row.event) ∧ s.runtime.held ≠ [] ∧
      ¬ s.CoversCommitted keyLength := by
  decide
end SnapshotTrace
end Postgres
end Rustcdc
