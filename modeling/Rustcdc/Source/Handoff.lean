import Rustcdc.Source.Overlap
import Rustcdc.Source.StreamStart

/-! Handing a table over from its snapshot to the stream: the events the two have in common are
reduced to the last one of each row before the stream delivers them. -/
namespace Rustcdc
/-- `HandoffResult`, and the events the stream is given back. -/
structure HandoffOutcome where
  requeued : List Event
  overlapEventsDropped : UInt64

namespace Mysql
def mysqlEventPkFingerprint : Event → Option String := eventPkFingerprint
def dedupOverlapEventsByPk (events : List Event) : List Event × UInt64 := dedupEvents mysqlEventPkFingerprint events
def compareBinlogPosition (fileA : String) (posA : UInt32) (fileB : String) (posB : UInt32) : Ordering :=
  if fileA = fileB then compare posA.toNat posB.toNat else if fileA < fileB then .lt else .gt

structure MysqlHandoff where
  snapshotBinlogFile : String
  snapshotBinlogPos : UInt32
  streamStartBinlogFile : String
  streamStartBinlogPos : UInt32

def MysqlHandoff.hasNoGap (handoff : MysqlHandoff) : Bool :=
  (compareBinlogPosition handoff.streamStartBinlogFile handoff.streamStartBinlogPos
    handoff.snapshotBinlogFile handoff.snapshotBinlogPos).isLE

def parseMysqlSourceOffset (offset : String) : Option (String × UInt32) :=
  match splitOnce ':' offset.toList with
  | none => none
  | some (file,rest) =>
    let position := ((splitOnceText gtidMarker rest).getD (rest,[])).1
    match fromStrRadix 10 (2^32) position with
    | .error _ => none
    | .ok pos => some (String.ofList file,UInt32.ofNat pos)

def MysqlHandoff.isOverlap (handoff : MysqlHandoff) (event : Event) : Bool :=
  match parseMysqlSourceOffset event.source.offset with
  | none => false
  | some (file,pos) =>
    (compareBinlogPosition file pos handoff.snapshotBinlogFile handoff.snapshotBinlogPos).isLE

structure Drained where
  overlapEvents : List Event
  nonOverlapEvents : List Event
  overlapPhaseComplete : Bool

def Drained.take (handoff : MysqlHandoff) (d : Drained) (event : Event) : Drained :=
  if !d.overlapPhaseComplete && handoff.isOverlap event then
    {d with overlapEvents := d.overlapEvents++[event]}
  else ⟨d.overlapEvents,d.nonOverlapEvents++[event],true⟩

/-- The drain loop.  The answers end where the drain budget does. -/
def drainOverlap (handoff : MysqlHandoff) : Drained → List (Except Error (List Event)) → Except Error Drained
  | d, [] => .ok d
  | d, answer::answers =>
    if d.overlapPhaseComplete then .ok d
    else
      match answer with
      | .error e => .error e
      | .ok [] => .ok d
      | .ok batch => drainOverlap handoff (batch.foldl (Drained.take handoff) d) answers

structure HandoffAnswers where
  finish : Except Error Unit
  batches : List (Except Error (List Event))
  requeue : Except Error Unit

/-- The stream is given nothing back if there is nothing. -/
def HandoffAnswers.requeueEvents (answers : HandoffAnswers) (events : List Event) : Except Error Unit :=
  if events.isEmpty then .ok () else answers.requeue

def mysqlHandoffResult (handoff : MysqlHandoff) (answers : HandoffAnswers) : Except Error HandoffOutcome :=
  if !handoff.hasNoGap then
    .error (.sourceError ("mysql handoff invariant violated: stream starts at "++
      handoff.streamStartBinlogFile++":"++String.ofList (formatNat 10 handoff.streamStartBinlogPos.toNat)++
      " which is after snapshot watermark "++handoff.snapshotBinlogFile++":"++
      String.ofList (formatNat 10 handoff.snapshotBinlogPos.toNat)++" - events would be lost"))
  else do
    answers.finish
    let drained ← drainOverlap handoff ⟨[],[],false⟩ answers.batches
    let deduped := dedupOverlapEventsByPk drained.overlapEvents
    let replay := deduped.1++drained.nonOverlapEvents
    answers.requeueEvents replay
    pure ⟨replay,deduped.2⟩

/-- Before the first event past the watermark none is put aside. -/
def Drained.Ordered (d : Drained) : Prop := d.overlapPhaseComplete = false → d.nonOverlapEvents = []

variable {d : Drained}

lemma Drained.take_events (ha : MysqlHandoff) (h : d.Ordered) (e : Event) : (d.take ha e).Ordered ∧
      (d.take ha e).overlapEvents++(d.take ha e).nonOverlapEvents = d.overlapEvents++d.nonOverlapEvents++[e] := by
  unfold Drained.take
  by_cases ho : (!d.overlapPhaseComplete && ha.isOverlap e) = true
  · rw [if_pos ho]
    have hop : d.overlapPhaseComplete = false := by
      simpa using (Bool.and_eq_true_iff.mp ho).1
    exact ⟨fun _ => h hop,by simp [h hop]⟩
  · rw [if_neg ho]
    exact ⟨fun hop => by simp at hop,by simp⟩

lemma Drained.foldl_take (ha : MysqlHandoff) (batch : List Event) (h : d.Ordered) :
    (batch.foldl (Drained.take ha) d).Ordered ∧ (batch.foldl (Drained.take ha) d).overlapEvents++
        (batch.foldl (Drained.take ha) d).nonOverlapEvents =
      d.overlapEvents++d.nonOverlapEvents++batch := by
  induction batch generalizing d with
  | nil => exact ⟨h,by simp⟩
  | cons e batch ih =>
    obtain ⟨ho,he⟩ := Drained.take_events ha h e
    obtain ⟨ho',he'⟩ := ih ho
    exact ⟨ho',by rw [List.foldl_cons,he',he,List.append_assoc,List.singleton_append]⟩

variable {han : MysqlHandoff}

/-- The loop keeps the events of the batches it polls, in their order. -/
theorem drainOverlap_events {as : List (Except Error (List Event))} {drained : Drained}
    (h : d.Ordered) (hd : drainOverlap han d as = .ok drained) :
    ∃ (polled : List (List Event)) (r : List (Except Error (List Event))),
      as = polled.map .ok++r ∧ drained.overlapEvents++drained.nonOverlapEvents =
        d.overlapEvents++d.nonOverlapEvents++polled.flatten := by
  induction as generalizing d with
  | nil =>
    cases hd
    exact ⟨[],[],rfl,by simp⟩
  | cons a as ih =>
    unfold drainOverlap at hd
    split at hd
    · cases hd
      exact ⟨[],_,rfl,by simp⟩
    · cases a with
      | error e => cases hd
      | ok b =>
        cases b with
        | nil =>
          cases hd
          exact ⟨[],_,rfl,by simp⟩
        | cons ev b =>
          obtain ⟨ho,he⟩ := Drained.foldl_take han (ev::b) h
          obtain ⟨polled,r,ha,hr⟩ := ih ho hd
          refine ⟨(ev::b)::polled,r,by rw [ha]; rfl,?_⟩
          rw [hr,he,List.flatten_cons,List.append_assoc]

lemma mysqlHandoffResult_ok {as : HandoffAnswers} {oc : HandoffOutcome} (h : mysqlHandoffResult han as = .ok oc) :
    ∃ drained, drainOverlap han ⟨[],[],false⟩ as.batches = .ok drained ∧ oc.requeued =
        (dedupOverlapEventsByPk drained.overlapEvents).1++drained.nonOverlapEvents := by
  unfold mysqlHandoffResult at h
  split at h
  · simp at h
  · obtain ⟨_,_,h⟩ := except_bind_ok h
    obtain ⟨drained,hd,h⟩ := except_bind_ok h
    refine ⟨drained,hd,?_⟩
    obtain ⟨_,_,h⟩ := except_bind_ok h
    cases h
    rfl
end Mysql
namespace Sqlserver
def sqlserverEventPkFingerprint : Event → Option String := eventPkFingerprint
def dedupOverlapEventsByPk (events : List Event) : List Event × UInt64 :=
  dedupEvents sqlserverEventPkFingerprint events

structure SqlServerHandoff where
  snapshotLsnStart : ℕ
  streamLsnStart : ℕ

def SqlServerHandoff.of (snapshotLsnStart streamLsnStart : ℕ) : SqlServerHandoff :=
  ⟨if snapshotLsnStart = 0 then streamLsnStart else snapshotLsnStart,streamLsnStart⟩
def SqlServerHandoff.hasNoGap (handoff : SqlServerHandoff) : Bool := handoff.streamLsnStart ≤ handoff.snapshotLsnStart

structure Forwarded where
  forward : List Event
  overlapEventsDropped : UInt64

/-- The snapshot has what lies up to its LSN. -/
def Forwarded.take (handoff : SqlServerHandoff) (f : Forwarded) (event : Event) : Forwarded :=
  match lsnFromSourceOffset event.source.offset with
  | some lsn =>
    if lsn ≤ handoff.snapshotLsnStart then
      {f with overlapEventsDropped := saturatingAdd f.overlapEventsDropped 1}
    else {f with forward := f.forward++[event]}
  | none => {f with forward := f.forward++[event]}

/-- The polls up to the first batch with an event to forward. -/
def drainOverlap (handoff : SqlServerHandoff) (polls : ℕ → Except Error (List Event)) :
    ℕ → ℕ → UInt64 → Except Error Forwarded
  | 0, _, dropped => .ok ⟨[],dropped⟩
  | attempts+1, attempt, dropped =>
    match polls attempt with
    | .error e => .error e
    | .ok [] => .ok ⟨[],dropped⟩
    | .ok batch =>
      let f := batch.foldl (Forwarded.take handoff) ⟨[],dropped⟩
      if f.forward.isEmpty then drainOverlap handoff polls attempts (attempt+1) f.overlapEventsDropped
      else .ok f

structure HandoffAnswers where
  finish : Except Error Unit
  polls : ℕ → Except Error (List Event)
  requeue : Except Error Unit
  confirm : Except Error Unit

def performHandoff (snapshotLsnStart streamLsnStart : Option ℕ) (answers : HandoffAnswers) :
    Except Error HandoffOutcome :=
  match snapshotLsnStart with
  | none => .error (.stateError "sqlserver perform_handoff requires start_snapshot to have been called first")
  | some snapshotLsnStart =>
    match streamLsnStart with
    | none => .error (.stateError "sqlserver perform_handoff requires start_stream to have been called first")
    | some streamLsnStart =>
      let handoff := SqlServerHandoff.of snapshotLsnStart streamLsnStart
      if !handoff.hasNoGap then
        .error (.stateError ("sqlserver handoff detected a gap: stream start LSN "++
          lsnBytesToHex handoff.streamLsnStart++" is after snapshot start LSN "++
          lsnBytesToHex handoff.snapshotLsnStart))
      else do
        answers.finish
        let forwarded ← drainOverlap handoff answers.polls 256 0 0
        let deduped := dedupOverlapEventsByPk forwarded.forward
        answers.requeue
        answers.confirm
        pure ⟨deduped.1,saturatingAdd forwarded.overlapEventsDropped deduped.2⟩

def pastSnapshot (snapshotLsn : ℕ) (batch : List Event) : List Event := batch.filter fun event =>
    match lsnFromSourceOffset event.source.offset with
    | some lsn => snapshotLsn < lsn
    | none => true

lemma Forwarded.foldl_take (ho : SqlServerHandoff) (batch : List Event) (f : Forwarded) :
    (batch.foldl (Forwarded.take ho) f).forward = f.forward++pastSnapshot ho.snapshotLsnStart batch := by
  induction batch generalizing f with
  | nil => simp [pastSnapshot]
  | cons e batch ih =>
    rw [List.foldl_cons,ih,pastSnapshot,pastSnapshot,List.filter_cons,Forwarded.take]
    cases lsnFromSourceOffset e.source.offset with
    | none => simp
    | some lsn =>
      by_cases hl : lsn ≤ ho.snapshotLsnStart
      · simp [hl,Nat.not_lt.mpr hl]
      · simp [hl,Nat.lt_of_not_le hl]

/-- What the loop keeps is what lies past the snapshot in one batch, or nothing. -/
theorem drainOverlap_forward {ho : SqlServerHandoff} {ps : ℕ → Except Error (List Event)}
    {attempts attempt : ℕ} {dropped : UInt64} {f : Forwarded}
    (h : drainOverlap ho ps attempts attempt dropped = .ok f) : f.forward = [] ∨
      ∃ i batch, ps i = .ok batch ∧ f.forward = pastSnapshot ho.snapshotLsnStart batch := by
  induction attempts generalizing attempt dropped with
  | zero =>
    cases h
    exact .inl rfl
  | succ attempts ih =>
    rw [drainOverlap] at h
    split at h
    · simp at h
    · cases h
      exact .inl rfl
    · rename_i batch _ hp
      dsimp only at h
      split at h
      · exact ih h
      · cases h
        refine .inr ⟨attempt,batch,hp,?_⟩
        rw [Forwarded.foldl_take,List.nil_append]

lemma performHandoff_ok {snapshotLsn streamLsn : ℕ} {as : HandoffAnswers} {oc : HandoffOutcome}
    (h : performHandoff (some snapshotLsn) (some streamLsn) as = .ok oc) :
    ∃ forwarded, drainOverlap (.of snapshotLsn streamLsn) as.polls 256 0 0 = .ok forwarded ∧
      oc.requeued = (dedupOverlapEventsByPk forwarded.forward).1 := by
  unfold performHandoff at h
  dsimp only at h
  split at h
  · simp at h
  · obtain ⟨_,_,h⟩ := except_bind_ok h
    obtain ⟨forwarded,hf,h⟩ := except_bind_ok h
    obtain ⟨_,_,h⟩ := except_bind_ok h
    obtain ⟨_,_,h⟩ := except_bind_ok h
    cases h
    exact ⟨forwarded,hf,rfl⟩
end Sqlserver
section
variable (alter : Event → RowId → Option Cells → Option Cells)

/-- The row `id` of the table `t`, under a position of the log. -/
def sampleChange (op : Operation) (id value position : String) : Event :=
  let row : Json := .obj [("id",.str id),("v",.str value)]
  { before := if op = .delete then some row else none
    after := if op = .insert ∨ op = .update then some row else none
    op := op
    source := ⟨"mysql",position,0⟩
    ts := 0
    schema := some "s"
    table := "t"
    primaryKey := some ["id"]
    snapshot := none
    transaction := none
    envelopeVersion := eventEnvelopeVersion
    beforeIsKeyOnly := false
    unavailableColumns := []
    beforeUnavailableColumns := [] }

/-- A handoff whose overlap is one batch that ends at the snapshot's position. -/
def sampleHandoff (overlap : List Event) : Except Error HandoffOutcome :=
  Mysql.mysqlHandoffResult ⟨"bin.000001",300,"bin.000001",100⟩ ⟨.ok (),[.ok overlap,.ok []],.ok ()⟩

end
end Rustcdc
