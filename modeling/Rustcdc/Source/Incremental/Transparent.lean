import Rustcdc.Source.Incremental.Driver

/-! The driver against the log it passes on.  A trace keeps what the inner stream has returned
and what the driver has, so that the two can be compared in every state a run reaches. -/
namespace Rustcdc.Incremental
open List Machine IncrementalSnapshotDriver

/-- An event a call returned: a row of a chunk, or one of the log. -/
structure Emission where
  isRow : Bool
  event : Event
  deriving DecidableEq

def Returned.emissions : Returned → List Emission
  | .log events => events.map (⟨false,·⟩)
  | .rows events => events.map (⟨true,·⟩)
  | .failed _ => []

def logOf (emitted : List Emission) : List Event := (emitted.filter (!·.isRow)).map (·.event)
@[simp] lemma logOf_nil : logOf [] = [] := rfl
@[simp] lemma logOf_append (xs ys : List Emission) : logOf (xs++ys) = logOf xs++logOf ys := by
  simp [logOf]
@[simp] lemma logOf_log (events : List Event) : logOf (Returned.log events).emissions = events := by
  simp [logOf,Returned.emissions,filter_map,Function.comp_def]
@[simp] lemma logOf_rows (es : List Event) : logOf (Returned.rows es).emissions = [] := by
  simp [logOf,Returned.emissions,filter_map,Function.comp_def]

/-- The same change, whose unavailable columns may have been filled in. -/
structure SameChange (e e' : Event) : Prop where
  frame : {e' with
    before := e.before
    after := e.after
    unavailableColumns := e.unavailableColumns
    beforeUnavailableColumns := e.beforeUnavailableColumns} = e
  afterKept : e'.after.isSome = e.after.isSome
  beforeKept : e'.before.isSome = e.before.isSome
  after : ∀ column ∉ e.unavailableColumns, e'.after.bind (·.get column) = e.after.bind (·.get column)
  before : ∀ column ∉ e.beforeUnavailableColumns, e'.before.bind (·.get column) = e.before.bind (·.get column)

lemma SameChange.refl (e : Event) : SameChange e e := ⟨rfl,rfl,rfl,fun _ _ => rfl,fun _ _ => rfl⟩

variable (sh : List (String × Json))

lemma fillColumns_lookup {cs : List String} (object : List (String × Json)) {column : String} (hc : column ∉ cs) :
    (fillColumns sh cs object).2.lookup column = object.lookup column := by
  induction cs generalizing object with
  | nil => rfl
  | cons f cs ih =>
    rw [mem_cons,not_or] at hc
    rw [fillColumns]
    split
    · rw [ih _ hc.2,Json.lookup_insertField_ne hc.1]
    · exact ih object hc.2

lemma fillImage_kept (cs : List String) (im : Option Json) : (fillImage sh cs im).2.isSome = im.isSome ∧ ∀ c ∉ cs,
      (fillImage sh cs im).2.bind (·.get c) = im.bind (·.get c) := by
  unfold fillImage
  split
  · refine ⟨rfl,fun c hc => ?_⟩
    exact fillColumns_lookup sh _ hc
  · exact ⟨rfl,fun _ _ => rfl⟩

lemma repairPartialPayload_same (chunkRows : List (String × Event)) (fp : String)
    (e : Event) : SameChange e (repairPartialPayload chunkRows fp e).2 := by
  unfold repairPartialPayload
  split
  · exact SameChange.refl e
  · split
    · exact SameChange.refl e
    · obtain ⟨ha,hc⟩ := fillImage_kept _ e.unavailableColumns e.after
      obtain ⟨hb,hc'⟩ := fillImage_kept _ e.beforeUnavailableColumns e.before
      exact ⟨rfl,ha,hb,hc,hc'⟩

lemma overrideRows_same {P : Type} [Ord P] (backend : Backend P) (target : SnapshotTable)
    (co : Collect P) (es : List Event) :
    List.Forall₂ SameChange es (overrideRows backend target co es).2 := by
  induction es generalizing co with
  | nil => exact .nil
  | cons e es ih =>
    rw [overrideRows]
    split
    · exact .cons (SameChange.refl e) (ih co)
    · exact .cons (repairPartialPayload_same _ _ e) (ih _)

namespace IncrementalSnapshotDriver
variable {P H : Type} [Ord P] [StreamHandle H]
variable (d : IncrementalSnapshotDriver P H)

/-- What the inner stream returns if this pass asks it. -/
def innerEvents (answer : PassAnswer P H) : List Event :=
  match (StreamHandle.nextEvents d.inner answer.events).2 with
  | .ok events => events
  | .error _ => []

/-- The pass asks the inner stream: a chunk is being collected, or nothing is held back and no
chunk is worked on. -/
def asksInner : Bool :=
  match d.phase with
  | .chunkCollect _ => true
  | .chunkEmit _ _ _ _ => false
  | .chunkPrepare _ => d.paused && d.deferred.isEmpty
  | .done => d.deferred.isEmpty

def passReceived (answer : PassAnswer P H) : List Event :=
  if d.asksInner then d.innerEvents answer else []
end IncrementalSnapshotDriver
/-- How log events move in a pass: nothing moves, some that were held back are returned, the inner
stream's are returned with nothing held back, or a batch is split into a returned head and a tail
held back behind the others. -/
inductive PassFlow (deferred : List Event) : List Event → List Event → List Event → Prop
  | still : PassFlow deferred [] [] deferred
  | drained (returned rest : List Event) (h : deferred = returned++rest) : PassFlow deferred [] returned rest
  | through (events : List Event) (h : deferred = []) : PassFlow deferred events events []
  | split (events head tail : List Event) (h : List.Forall₂ SameChange events (head++tail)) :
      PassFlow deferred events head (deferred++tail)

namespace IncrementalSnapshotDriver
variable {P H : Type} [Ord P] [StreamHandle H] (d : IncrementalSnapshotDriver P H)

def passLog (answer : PassAnswer P H) : List Event := logOf (((d.pass answer).2.map (·.emissions)).getD [])

omit [Ord P] [StreamHandle H] in
lemma drainDeferred_flow : PassFlow d.deferred [] (logOf ((d.drainDeferred.2.map (·.emissions)).getD []))
      d.drainDeferred.1.deferred := by
  simp only [drainDeferred,Option.map_some,Option.getD_some,logOf_log]
  exact .drained _ _ (take_append_drop _ _).symm

omit [Ord P] in
lemma passThrough_flow (an : PassAnswer P H) :
    PassFlow d.deferred (if d.deferred.isEmpty then d.innerEvents an else [])
      (logOf (((d.passThrough an).2.map (·.emissions)).getD []))
      (d.passThrough an).1.deferred := by
  unfold passThrough innerEvents
  by_cases he : d.deferred.isEmpty = true
  · have hn := isEmpty_iff.mp he
    simp only [he,Bool.not_true,Bool.false_eq_true,if_false,if_true]
    generalize StreamHandle.nextEvents d.inner an.events = answered
    obtain ⟨i,e | es⟩ := answered
    · simpa [Returned.emissions] using PassFlow.still
    · simpa [hn] using PassFlow.through es hn
  · simp only [he,Bool.not_false,if_true,Bool.false_eq_true,if_false]
    exact d.drainDeferred_flow

omit [Ord P] [StreamHandle H] in
lemma driveChunkEmit_flow (ti : ℕ) (es : List Event) (nc : List Json) (n : UInt64) :
    PassFlow d.deferred [] (logOf (((d.driveChunkEmit ti es nc n).2.map (·.emissions)).getD []))
      (d.driveChunkEmit ti es nc n).1.deferred := by
  unfold driveChunkEmit
  dsimp only
  split
  · simpa using PassFlow.still
  · split
    · exact drainDeferred_flow {d.commitChunkProgress ti nc n with phase := .chunkPrepare ti}
    · exact .still

omit [Ord P] in
lemma driveChunkPrepare_flow (ti : ℕ) (an : PassAnswer P H) : PassFlow d.deferred []
      (logOf (((d.driveChunkPrepare ti an).2.map (·.emissions)).getD []))
      (d.driveChunkPrepare ti an).1.deferred := by
  unfold driveChunkPrepare
  repeat' split
  all_goals exact .still

omit [StreamHandle H] in
lemma collectBatch_flow (co : Collect P) {es : List Event} {currentPosition : Except Error P} {passed : Bool}
    (hp : watermarkPassed d.backend co es currentPosition = .ok passed) :
    ∃ head tail, List.Forall₂ SameChange es (head++tail) ∧
      head.length = min ((splitAt d.backend co es).getD es.length) es.length ∧
      logOf (((d.collectBatch co es currentPosition).2.map (·.emissions)).getD []) = head ∧
      (d.collectBatch co es currentPosition).1.deferred = d.deferred++tail := by
  have hs := overrideRows_same d.backend (d.tableAt co.tableIdx) co es
  simp only [collectBatch,hp]
  generalize overrideRows d.backend (d.tableAt co.tableIdx) co es = overridden at hs ⊢
  refine ⟨overridden.2.take ((splitAt d.backend co es).getD es.length),
    overridden.2.drop ((splitAt d.backend co es).getD es.length),?_,?_,?_,rfl⟩
  · rwa [List.take_append_drop]
  · rw [List.length_take,hs.length_eq]
  · split
    · rw [Option.map_some,Option.getD_some,logOf_log]
    · rename_i hh
      rw [Bool.not_eq_true',Bool.not_eq_false,List.isEmpty_iff] at hh
      rw [hh]
      split <;> rfl
end IncrementalSnapshotDriver
/-- Where the snapshot of a table started: how much had been returned by then, and the progress
it was resumed with. -/
structure Baseline where
  emitted : ℕ
  cursor : Option (List Json)
  isComplete : Bool
  deriving DecidableEq

/-- The driver with everything it has returned, everything the inner stream has, and for each
table where its snapshot started. -/
structure DriverTrace (P H : Type) where
  driver : IncrementalSnapshotDriver P H
  emitted : List Emission
  received : List Event
  starts : List Baseline

inductive DriverCall (P H : Type) [StreamHandle H]
  | nextEvents (answers : List (PassAnswer P H))
  | request (catalog : Catalog) (request : SnapshotRequest)
  | setPaused (paused : Bool)
  | stopSnapshot

/-- The table is still in the snapshot it was in. -/
def continues : Option TableProgress → TableProgress → Bool
  | some before, after => !(before.isComplete && !after.isComplete)
  | none, _ => false

def restarts (before after : List TableProgress) (starts : List Baseline) (now : ℕ) : List Baseline :=
  after.mapIdx fun i table =>
    if continues before[i]? table then starts.getD i ⟨now,none,false⟩ else ⟨now,none,false⟩

namespace DriverTrace
variable {P H : Type}

def start (driver : IncrementalSnapshotDriver P H) : DriverTrace P H :=
  ⟨driver,[],[],driver.tables.map fun table => ⟨0,table.pkCursor,table.isComplete⟩⟩

variable [Ord P] [StreamHandle H]

def pass (s : DriverTrace P H) (answer : PassAnswer P H) : DriverTrace P H × Option Returned :=
  let passed := s.driver.pass answer
  ({s with
    driver := passed.1
    emitted := s.emitted++(passed.2.map (·.emissions)).getD []
    received := s.received++s.driver.passReceived answer},passed.2)

def step (s : DriverTrace P H) : DriverCall P H → DriverTrace P H
  | .nextEvents answers =>
    match loop pass s answers with
    | none => s
    | some (s,returned) => {s with driver := s.driver.counted returned}
  | .request catalog request =>
    let driver := (s.driver.enqueueTables catalog request).1
    {s with
      driver := driver
      starts := restarts s.driver.tables driver.tables s.starts s.emitted.length}
  | .setPaused paused => {s with driver := (s.driver.setPaused paused).1}
  | .stopSnapshot => {s with driver := s.driver.stopSnapshot.1, starts := []}

/-- What each pass of a call keeps, the call keeps: at its end only a counter is updated. -/
theorem step_nextEvents_rule {C : DriverTrace P H → PassAnswer P H → Prop}
    {Q : DriverTrace P H → Prop} (hp : ∀ s an, Q s → C s an → Q (s.pass an).1)
    (hc : ∀ s n, Q s → Q {s with driver := {s.driver with eventsEmitted := n}})
    {s : DriverTrace P H} (hs : Q s) {as : List (PassAnswer P H)}
    (hm : LoopMeets pass C s as) : Q (s.step (.nextEvents as)) := by
  rw [step]
  split
  · exact hs
  · rename_i s' returned hl
    have he := loop_invariant_of_meets hp hs hm hl
    unfold counted
    split
    · exact hc s' s'.driver.eventsEmitted he
    · exact hc s' _ he

lemma step_nextEvents (s : DriverTrace P H) (as : List (PassAnswer P H)) :
    (s.step (.nextEvents as)).driver = ((s.driver.nextEvents as).map (·.1)).getD s.driver := by
  have hl : s.driver.drive as = (loop pass s as).map fun ended => (ended.1.driver,ended.2) :=
    loop_map DriverTrace.driver (fun _ _ => rfl) s as
  rw [nextEvents,hl,step]
  cases loop pass s as with
  | none | some => rfl
end DriverTrace
namespace IncrementalSnapshotDriver
variable {P H : Type} [Ord P] [StreamHandle H]

lemma driveChunkCollect_flow (d : IncrementalSnapshotDriver P H) (co : Collect P)
    (an : PassAnswer P H) : ∃ head tail, List.Forall₂ SameChange (d.innerEvents an) (head++tail) ∧
      head.length = min ((splitAt d.backend co (d.innerEvents an)).getD
        (d.innerEvents an).length) (d.innerEvents an).length ∧
      logOf (((d.driveChunkCollect co an).2.map (·.emissions)).getD []) = head ∧
      (d.driveChunkCollect co an).1.deferred = d.deferred++tail := by
  unfold driveChunkCollect innerEvents
  generalize StreamHandle.nextEvents d.inner an.events = answered
  obtain ⟨inner,e | es⟩ := answered
  · exact ⟨[],[],by simp,by simp,by simp [Returned.emissions],by simp⟩
  · cases hp : watermarkPassed d.backend co es an.currentPosition with
    | error e =>
      -- only an empty batch asks the source for its position
      have hn : es = [] := by
        unfold watermarkPassed at hp
        split at hp
        · cases hp
        · split at hp
          · exact isEmpty_iff.mp ‹_›
          · cases hp
      subst hn
      exact ⟨[],[],by simp,by simp,by simp [collectBatch,hp,Returned.emissions],
        by simp [collectBatch,hp]⟩
    | ok => exact collectBatch_flow {d with inner := inner} co hp

/-- No log event overtakes one held back: a batch collected against a chunk while events are held
back starts past the high watermark. -/
def Orderly (d : IncrementalSnapshotDriver P H) (answer : PassAnswer P H) : Prop :=
  match d.phase with
  | .chunkCollect collect => d.deferred ≠ [] →
      (splitAt d.backend collect (d.innerEvents answer)).getD (d.innerEvents answer).length = 0
  | _ => True

instance (d : IncrementalSnapshotDriver P H) (answer : PassAnswer P H) : Decidable (d.Orderly answer) := by
  unfold Orderly
  split <;> infer_instance

variable {d : IncrementalSnapshotDriver P H} {a : PassAnswer P H}

lemma Orderly.passLog_eq_nil (h : d.Orderly a) (hh : d.deferred ≠ []) (hr : d.passReceived a ≠ []) :
    d.passLog a = [] := by
  have hn : d.deferred.isEmpty = false := by simpa using hh
  unfold passReceived asksInner at hr
  unfold passLog pass
  unfold Orderly at h
  cases hp : d.phase with
  | done | chunkPrepare => simp [hp,hn] at hr
  | chunkEmit => simp [hp] at hr
  | chunkCollect co =>
    rw [hp] at h
    obtain ⟨head,tail,_,hl,hlo,_⟩ := d.driveChunkCollect_flow co a
    rw [h hh,Nat.zero_min,length_eq_zero_iff] at hl
    exact hlo.trans hl

lemma pass_flow (d : IncrementalSnapshotDriver P H) (a : PassAnswer P H) :
    PassFlow d.deferred (d.passReceived a) (d.passLog a) (d.pass a).1.deferred := by
  unfold passReceived passLog asksInner pass
  cases d.phase with
  | done => exact d.passThrough_flow a
  | chunkEmit => exact d.driveChunkEmit_flow _ _ _ _
  | chunkPrepare ti =>
    cases d.paused with
    | true => exact d.passThrough_flow a
    | false => exact d.driveChunkPrepare_flow ti a
  | chunkCollect co =>
    obtain ⟨head,tail,hs,_,hl,hd⟩ := d.driveChunkCollect_flow co a
    rw [hl,hd]
    exact .split _ _ _ hs

/-- Returned and then held back, the log stays in the order it came in. -/
theorem pass_order (h : d.Orderly a) : ∃ received, List.Forall₂ SameChange (d.passReceived a) received ∧
      d.passLog a++(d.pass a).1.deferred = d.deferred++received := by
  have hf := d.pass_flow a
  have hl := h.passLog_eq_nil
  generalize d.passLog a = returned at hf hl ⊢
  generalize d.passReceived a = received at hf hl ⊢
  generalize (d.pass a).1.deferred = rest at hf ⊢
  cases hf with
  | still => exact ⟨[],.nil,by simp⟩
  | drained _ _ hs => exact ⟨[],.nil,by simp [hs]⟩
  | through _ hn => exact ⟨_,forall₂_same.mpr fun e _ => SameChange.refl e,by simp [hn]⟩
  | split _ _ tail hsa =>
    refine ⟨_,hsa,?_⟩
    -- with events held back, the head is empty and the whole batch joins them
    by_cases hn : d.deferred = []
    · simp [hn]
    · by_cases hb : received = []
      · rw [hb,forall₂_nil_left_iff,append_eq_nil_iff] at hsa
        simp [hsa.1,hsa.2]
      · simp [hl hn hb]
end IncrementalSnapshotDriver
namespace DriverTrace
variable {P H : Type} [Ord P] [StreamHandle H]

/-- What has been returned of the log, followed by what is held back, is what the inner stream has
returned. -/
def Transparent (s : DriverTrace P H) : Prop :=
  List.Forall₂ SameChange s.received (logOf s.emitted++s.driver.deferred)

/-- Each pass of the call keeps the log in order. -/
def CallOrderly (s : DriverTrace P H) : DriverCall P H → Prop
  | .nextEvents answers => LoopMeets pass (fun s answer => s.driver.Orderly answer) s answers
  | _ => True

instance (s : DriverTrace P H) (call : DriverCall P H) : Decidable (s.CallOrderly call) := by
  unfold CallOrderly
  split <;> infer_instance

variable {s : DriverTrace P H}

lemma Transparent.pass (h : s.Transparent) {answer : PassAnswer P H}
    (ho : s.driver.Orderly answer) : (s.pass answer).1.Transparent := by
  obtain ⟨rc,hs,hor⟩ := pass_order ho
  have he : logOf (s.pass answer).1.emitted = logOf s.emitted++s.driver.passLog answer := logOf_append _ _
  have hd : (s.pass answer).1.driver.deferred = (s.driver.pass answer).1.deferred := rfl
  unfold Transparent at h ⊢
  rw [he,hd,append_assoc,hor,← append_assoc]
  exact rel_append h hs

lemma Transparent.step (h : s.Transparent) {call : DriverCall P H} (ho : s.CallOrderly call) : (s.step call).Transparent := by
  cases call with
  | nextEvents =>
    exact step_nextEvents_rule (fun s answer h ho => h.pass ho) (fun s count h => h) h ho
  | request catalog request =>
    have hd : (s.driver.enqueueTables catalog request).1.deferred = s.driver.deferred := by
      unfold enqueueTables
      dsimp only
      split
      · rfl
      · split <;> rfl
    unfold Transparent at h ⊢
    rw [← hd] at h
    exact h
  | setPaused | stopSnapshot => exact h

omit [Ord P] [StreamHandle H] in
lemma new_deferred {backend : Backend P} {i : H} {ca : Catalog} {cf : IncrementalSnapshotConfig} {sn : String}
    {resume : Option IncrementalSnapshotState} {now : UInt64}
    {driver : IncrementalSnapshotDriver P H}
    (hn : new backend i ca cf sn resume now = .ok driver) : driver.deferred = [] := by
  unfold new at hn
  dsimp only at hn
  split at hn
  · cases hn
  · cases hn
    rfl

/-- The driver passes the log on in order, loses none of it and repeats none of it, in every run
in which no batch collected against a chunk overtakes events held back: whatever the backend
answers, and however polls, requests, pauses and stops are interleaved. -/
theorem log_transparent (backend : Backend P) (inner : H) (catalog : Catalog)
    (config : IncrementalSnapshotConfig) (sourceName : String)
    (resume : Option IncrementalSnapshotState) (now : UInt64)
    (driver : IncrementalSnapshotDriver P H)
    (hnew : IncrementalSnapshotDriver.new backend inner catalog config sourceName resume now =
      .ok driver) (calls : List (DriverCall P H))
    (horderly : Meets step CallOrderly (start driver) calls) :
    (run step (start driver) calls).Transparent := by
  have hs : (start driver).Transparent := by
    unfold Transparent start
    rw [new_deferred hnew]
    exact .nil
  exact run_invariant_of_meets step (fun s call h hc => h.step hc) hs horderly

/-- A log event of the sample table at a position. -/
def userEvent (position : UInt64) (id : String) : Event where
  before := none
  after := some (.obj [("id",.str id)])
  op := .insert
  source := ⟨"sample",toString position.toNat,position⟩
  ts := position
  schema := some "public"
  table := "users"
  primaryKey := some ["id"]
  snapshot := none
  transaction := none
  envelopeVersion := eventEnvelopeVersion
  beforeIsKeyOnly := false
  unavailableColumns := []
  beforeUnavailableColumns := []

/-- A backend whose positions are the timestamps of the events. -/
def clockBackend : Backend ℕ where
  positionOfEvent e := some e.ts.toNat
  eventInBracket := ordinalBracket
  offsetWithSnapshotState offset _ := some offset

/-- A catalog in which every name is a table keyed by `id`. -/
def userCatalog : Catalog where
  describeTable name := .ok ⟨"public",name,"public."++name,["id"],none⟩
  iteration := id

def userRow (id : String) : ChunkRow := ⟨[.str id],.obj [("id",.str id)]⟩

/-- A pass whose chunk read, if it makes one, is bracketed by the two positions. -/
def passOf (low high : ℕ) (rows : List ChunkRow) (events : List Event) : PassAnswer ℕ ScriptedStream where
  lowWatermark := .ok low
  chunk := .ok rows
  highWatermark := .ok high
  now := 1
  events := .ok events
  currentPosition := .ok high

def usersDriver (chunkSize : ℕ) : IncrementalSnapshotDriver ℕ ScriptedStream where
  backend := clockBackend
  inner := ⟨⟩
  tables := [⟨⟨"public","users","public.users",["id"],none⟩,none,false,0,0⟩]
  phase := .chunkPrepare 0
  chunkSize := chunkSize
  tableConditions := []
  sourceName := "sample"
  snapshotId := "incremental-1"
  eventsEmitted := 0
  paused := false
  generation := 0
  stopped := false
  deferred := []

/-- A chunk of one row whose batch lies past the watermark, returned with the events behind it. -/
def straddled (events : List Event) : List (DriverCall ℕ ScriptedStream) :=
  [.nextEvents [passOf 0 1 [userRow "1"] [],passOf 0 1 [] events,passOf 0 1 [] []],.nextEvents [passOf 0 1 [] []]]

/-- The next chunk, with a batch inside its bracket. -/
def nextChunk (event : Event) : DriverCall ℕ ScriptedStream :=
  .nextEvents [passOf 3 4 [userRow "2"] [],passOf 3 4 [] [event]]

theorem log_transparent_sample :
    let s := run step (start (usersDriver 2))
      (straddled [userEvent 2 "7",userEvent 3 "8"]++[nextChunk (userEvent 4 "9")])
    s.received.length = 3 ∧ s.driver.deferred = [] ∧ s.Transparent :=
  ⟨by decide,by decide,
    log_transparent clockBackend ⟨⟩ userCatalog ⟨["users"],2,[]⟩ "sample" none 1 (usersDriver 2) rfl
      (straddled [userEvent 2 "7",userEvent 3 "8"]++[nextChunk (userEvent 4 "9")]) (by decide)⟩

omit [Ord P] [StreamHandle H] in
lemma Transparent.ts (h : s.Transparent) :
    (logOf s.emitted++s.driver.deferred).map (·.ts) = s.received.map (·.ts) := by
  unfold Transparent at h
  generalize logOf s.emitted++s.driver.deferred = events at h ⊢
  generalize s.received = received at h ⊢
  induction h with
  | nil => rfl
  | cons hs _ ih => rw [map_cons,map_cons,ih,← congrArg Event.ts hs.frame]

/-- Two events are held back behind a chunk of one row, and one of them goes out with it; the next
chunk is then read, and a new event is returned before the one still held back. -/
theorem held_back_overtaken :
    let s := run step (start (usersDriver 1))
      (straddled [userEvent 2 "7",userEvent 3 "8"]++[nextChunk (userEvent 4 "9")])
    IncrementalSnapshotDriver.new clockBackend ⟨⟩ userCatalog ⟨["users"],1,[]⟩ "sample" none 1 = .ok (usersDriver 1) ∧
      s.received.map (·.ts) = [2,3,4] ∧ (logOf s.emitted).map (·.ts) = [2,4] ∧
      s.driver.deferred.map (·.ts) = [3] ∧ ¬ s.Transparent :=
  ⟨rfl,by decide,by decide,by decide,fun h => absurd h.ts (by decide)⟩
end DriverTrace
end Rustcdc.Incremental
