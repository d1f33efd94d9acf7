import Rustcdc.Source.Sqlserver.Window

/-! No change is passed.  A row is behind the stream once its window and cursor have gone past it, and
rows behind it were returned. -/
namespace Rustcdc.Sqlserver
open List Machine SqlServerStreamHandle
section
variable (T : ChangeTables) (origin : SqlServerStreamHandle)

/-- A change of a captured table at or above the place the stream was started at. -/
structure Wanted (change : CaptureInstanceMeta × SqlServerRawChange) : Prop where
  captured : change.1 ∈ origin.metas
  harvested : change.2 ∈ T.changes change.1
  floor : change.1.captureFloor ≤ change.2.startLsn
  announced : isAnnounced origin.tableIsAllowed change = true
  start : origin.lsnStart ≤ change.2.startLsn
  cursor : ∀ cursor, origin.cursor = some cursor → cursor.rank < change.2.rank

/-- The stream has gone past the row. -/
def Behind (h : SqlServerStreamHandle) (c : SqlServerRawChange) : Prop :=
  c.startLsn < h.lsnStart ∨ ∃ cursor, h.cursor = some cursor ∧ c.rank ≤ cursor.rank

def Announced (txIdFromSeqval : String → UInt64) (change : CaptureInstanceMeta × SqlServerRawChange)
    (events : List Event) : Prop :=
  ∃ e ∈ events, Announces txIdFromSeqval change e

/-- Where a stream stands in the change tables. -/
structure Placed (h : SqlServerStreamHandle) : Prop where
  metas : h.metas = origin.metas
  allowed : h.tableIsAllowed = origin.tableIsAllowed
  txId : h.txIdFromSeqval = origin.txIdFromSeqval
  limit : h.maxEventsPerPoll = origin.maxEventsPerPoll
  requeued : h.requeuedEvents = []
  cursor_le : ∀ cursor, h.cursor = some cursor → cursor.lsn ≤ h.lsnEnd
  pending_le : ∀ cut, h.pendingCursor = some cut → cut.lsn ≤ h.lsnEnd
  pending_past : ∀ cut cursor, h.pendingCursor = some cut → h.cursor = some cursor → cursor.rank ≤ cut.rank

/-- A stream between two calls. -/
structure Rests (h : SqlServerStreamHandle) : Prop extends Placed origin h where
  settled : h.windowBuffer = [] → h.pendingCursor = none
  window : h.windowBuffer ≠ [] → h.lsnStart ≤ h.lsnEnd
section
variable (h : SqlServerStreamHandle) (returned : List Event)

def Passes : Prop := ∀ change, Wanted T origin change → Behind h change.2 → 
    Announced origin.txIdFromSeqval change returned

/-- The buffer has what the window has up to the parked cursor. -/
def Covers : Prop := ∀ change, Wanted T origin change → change.2.startLsn ≤ h.lsnEnd →
    (∀ cut, h.pendingCursor = some cut → change.2.rank ≤ cut.rank) → 
      Announced origin.txIdFromSeqval change (returned++h.windowBuffer)
end
structure ReadsOn (h : SqlServerStreamHandle) (returned : List Event) : Prop where
  rests : Rests origin h
  passes : Passes T origin h returned
  covers : h.windowBuffer ≠ [] → Covers T origin h returned

variable {T origin} {ch : CaptureInstanceMeta × SqlServerRawChange} {f : Fetched}
  {events rs : List Event} {h : SqlServerStreamHandle} {s : StreamSession}

lemma Announced.mono {tx : String → UInt64} {more : List Event} (h : Announced tx ch events)
    (hs : ∀ e ∈ events, e ∈ more) : Announced tx ch more := by
  obtain ⟨e,he,ha⟩ := h
  exact ⟨e,hs e he,ha⟩

lemma Announced.append {tx : String → UInt64} (h : Announced tx ch events) (m : List Event) :
    Announced tx ch (events++m) :=
  h.mono fun _ he => mem_append_left _ he
lemma Passes.append (hp : Passes T origin h rs) (m : List Event) : Passes T origin h (rs++m) := fun ch hw hb =>
  (hp ch hw hb).append m

lemma Covers.append (hc : Covers T origin h rs) (m : List Event) : Covers T origin h (rs++m) := fun ch hw hl hcu =>
  (hc ch hw hl hcu).mono fun e he => by
    rcases mem_append.mp he with hr | hb
    · exact mem_append_left _ (mem_append_left _ hr)
    · exact mem_append_right _ hb

lemma ReadsOn.append (hr : ReadsOn T origin h rs) (m : List Event) : ReadsOn T origin h (rs++m) :=
  ⟨hr.rests,hr.passes.append m,fun hn => (hr.covers hn).append m⟩
def eventsOf : Except Error (List Event) → List Event
  | .ok events => events
  | .error _ => []

/-- A window that is passed is behind the stream, with what was behind it before. -/
theorem Placed.behind_advance {h' : SqlServerStreamHandle} (hp : Placed origin h) {ic hm : ℕ} (hi : ic = h.lsnEnd+1)
    (hs : h'.lsnStart = (nextWindow h.lsnStart h.lsnEnd ic hm).1)
    (hc : h'.cursor = none) (c : SqlServerRawChange) :
    Behind h' c ↔ Behind h c ∨ h.lsnStart ≤ h.lsnEnd ∧ c.startLsn ≤ h.lsnEnd := by
  have hl : Behind h c → c.startLsn < h.lsnStart ∨ c.startLsn ≤ h.lsnEnd := by
    rintro (hlt | ⟨cu,hc,hle⟩)
    · exact Or.inl hlt
    · exact Or.inr ((SqlServerCdcCursor.lsn_le_of_rank_le hle).trans (hp.cursor_le _ hc))
  have ha : Behind h' c ↔ c.startLsn < h'.lsnStart := by simp [Behind,hc]
  rw [ha,hs,nextWindow]
  split_ifs with he
  · show c.startLsn < h.lsnStart ↔ _
    constructor
    · exact fun hlt => Or.inl (Or.inl hlt)
    · rintro (hb | ⟨ho,_⟩)
      · rcases hl hb with hlt | hle <;> omega
      · omega
  · show c.startLsn < ic ↔ _
    constructor
    · exact fun hlt => Or.inr ⟨by omega,by omega⟩
    · rintro (hb | ⟨_,hle⟩)
      · rcases hl hb with hlt | hle <;> omega
      · omega

lemma drainPage_rests (answer : Except Error (ℕ × ℕ)) (hp : Placed origin h) (hw : h.lsnStart ≤ h.lsnEnd) :
    Rests origin (h.drainPage answer).1 := by
  have ho := drainPage_outcome h answer
  generalize h.drainPage answer = out at ho ⊢
  cases ho with
  | kept hm => exact ⟨{hp with},fun hn => absurd hn hm,fun _ => hw⟩
  | resumed cut hpe =>
    refine ⟨{hp with cursor_le := ?_, pending_le := by simp, pending_past := by simp},
      fun _ => rfl,fun hne => absurd rfl hne⟩
    intro cursor hc
    obtain rfl : cut = cursor := Option.some.inj hc
    exact hp.pending_le cut hpe
  | advanced =>
    exact ⟨{hp with cursor_le := by simp, pending_le := by simp, pending_past := by simp},
      fun _ => rfl,fun hne => absurd rfl hne⟩
  | failed e hpe =>
    exact ⟨{hp with},fun _ => hpe,fun hne => absurd rfl hne⟩

/-- Events are taken from the buffer, and the window is settled after the last. -/
theorem drainPage_readsOn {answer : Except Error (ℕ × ℕ)} (hpl : Placed origin h)
    (hwi : h.lsnStart ≤ h.lsnEnd) (hpa : Passes T origin h rs)
    (hc : Covers T origin h rs) (han : AnswersAdvance h answer) :
    ReadsOn T origin (h.drainPage answer).1 (rs++eventsOf (h.drainPage answer).2) := by
  have hr := drainPage_rests answer hpl hwi
  have ho := drainPage_outcome h answer
  generalize h.drainPage answer = out at hr ho ⊢
  refine ⟨hr,?_,?_⟩
  · intro ch hw hb
    cases ho with
    | kept | failed => exact (hpa ch hw hb).append _
    | resumed cut hp =>
      rcases hb with hs | ⟨cursor,hcu,hle⟩
      · exact (hpa ch hw (Or.inl hs)).append _
      · obtain rfl : cut = cursor := Option.some.inj hcu
        have hl := SqlServerCdcCursor.lsn_le_of_rank_le hle
        refine hc ch hw (hl.trans (hpl.pending_le cut hp)) ?_
        intro cut' hcut'
        obtain rfl : cut = cut' := Option.some.inj (hp.symm.trans hcut')
        exact hle
    | advanced ic hm hp ha =>
      subst ha
      rcases (hpl.behind_advance han rfl rfl ch.2).mp hb with hbe | ⟨_,hle⟩
      · exact (hpa ch hw hbe).append _
      · exact hc ch hw hle (by simp [hp])
  · intro hn ch hw hle hcut
    cases ho with
    | kept =>
      have hsp : rs++h.windowBuffer.take h.maxEventsPerPoll++
          h.windowBuffer.drop h.maxEventsPerPoll = rs++h.windowBuffer := by
        rw [append_assoc,take_append_drop]
      exact hsp ▸ hc ch hw hle hcut
    | resumed | advanced | failed => exact absurd rfl hn

/-- What the code asks of a pass: its window was harvested, and a page that was cut comes with its
truncates. -/
structure PassKept (s : StreamSession) (answer : PassAnswer) : Prop where
  harvested : s.handle.lsnStart ≤ s.handle.lsnEnd → s.handle.lsnEnd ≤ answer.harvested
  truncates : ∀ f cut, s.handle.fetchAll answer.fetch 0 s.handle.metas ⟨none,[]⟩ = .ok f →
    f.truncationCursor = some cut → ∀ marked e,
      s.handle.fetchAndEmitTruncateEvents answer.truncates ≠ (marked,.error e)

lemma PassKept.uncut {s : StreamSession} {answer : PassAnswer} {f : Fetched} {ms : List ℤ} {e : Error}
    (hk : PassKept s answer) (hf : s.handle.fetchAll answer.fetch 0 s.handle.metas ⟨none,[]⟩ = .ok f)
    (ht : s.handle.fetchAndEmitTruncateEvents answer.truncates = (ms,.error e)) :
    f.truncationCursor = none := by
  cases hcu : f.truncationCursor with
  | none => rfl
  | some cut => exact absurd ht (hk.truncates f cut hf hcu ms e)

lemma announced_of_mem {tx : String → UInt64} {cs : List (CaptureInstanceMeta × SqlServerRawChange)}
    (ha : List.Forall₂ (Announces tx) cs events) (hm : ch ∈ cs) :
    Announced tx ch events :=
  forall₂_mem_right ha.flip hm

lemma mem_mergeTruncates {buffer truncates : List Event} {e : Event} :
    e ∈ mergeTruncates buffer truncates ↔ e ∈ buffer ∨ e ∈ truncates := by
  rw [mergeTruncates]
  cases truncates with
  | nil => simp
  | cons => simp [mem_insertionSort]

lemma Wanted.unread (hw : Wanted T origin ch) (hb : ¬Behind h ch.2)
    (hl : ch.2.startLsn ≤ h.lsnEnd) : ch.2 ∈ h.unread T ch.1 := by
  rw [Behind,not_or,not_exists,not_lt] at hb
  refine mem_unread.mpr ⟨hw.harvested,windowStart_le hb.1 hw.floor,hl,?_⟩
  intro c hc
  have hp := hb.2 c
  rw [not_and,not_le] at hp
  exact hp hc

lemma unread_not_behind {ca : CaptureInstanceMeta} {c : SqlServerRawChange}
    (hu : c ∈ h.unread T ca) : ¬Behind h c := by
  obtain ⟨_,hs,_,hp⟩ := mem_unread.mp hu
  rintro (hlt | ⟨cu,hc,hl⟩)
  · have hl := lsnStart_le_windowStart h ca
    omega
  · exact absurd hl (not_le.mpr (hp cu hc))

lemma Placed.fill (hpl : Placed origin h) (hs : SoundPage T h f)
    (bs : List ((ℕ × ℕ) × Json × UInt64)) (buffer : List Event) :
    Placed origin {h with
      pendingUpdateBefores := bs, windowBuffer := buffer,
      pendingCursor := f.truncationCursor} := by
  refine {hpl with pending_le := ?_, pending_past := ?_}
  · intro cut hcu
    obtain ⟨p,hp,rfl⟩ := hs.attained cut hcu
    exact (mem_unread.mp (hs.sound p hp).2).2.2.1
  · intro cut c hcu hc
    obtain ⟨p,hp,rfl⟩ := hs.attained cut hcu
    exact ((mem_unread.mp (hs.sound p hp).2).2.2.2 c hc).le

/-- The handle a page was buffered in, before it is drained. -/
theorem Placed.filled {s : StreamSession} {answer : PassAnswer} {bs : List ((ℕ × ℕ) × Json × UInt64)}
    {buffer : List Event} (hp : Placed origin s.handle) (ha : AnswersPass T s answer)
    (hf : s.handle.fetchAll answer.fetch 0 s.handle.metas ⟨none,[]⟩ = .ok f) (hfo : f.flat ≠ [])
    (hh : h = {s.handle with
      pendingUpdateBefores := bs, windowBuffer := buffer, pendingCursor := f.truncationCursor}) :
    Placed origin h ∧ h.lsnStart ≤ h.lsnEnd ∧ AnswersAdvance h answer.advance := by
  have hs := fetchAll_sound ha hf
  rw [hh]
  exact ⟨hp.fill hs bs buffer,hs.window hfo,ha.advance⟩

/-- A page has every wanted row of the window up to its cut that is not behind the stream. -/
theorem Placed.mem_page_of_wanted (hp : Placed origin h) (hr : ReadsPage T h f)
    (hw : Wanted T origin ch) (hl : ch.2.startLsn ≤ h.lsnEnd)
    (hc : ∀ cut, f.truncationCursor = some cut → ch.2.rank ≤ cut.rank)
    (hb : ¬Behind h ch.2) : ch ∈ f.page.filter (isAnnounced h.tableIsAllowed) := by
  have hm := hr.complete ch.1 (hp.metas ▸ hw.captured) ch.2 (hw.unread hb hl) hc
  exact mem_filter.mpr ⟨hm,hp.allowed ▸ hw.announced⟩

lemma Passes.page_covers (hp : Passes T origin h rs) (hpl : Placed origin h) (hr : ReadsPage T h f) {cs : List Event}
    (ha : List.Forall₂ (Announces h.txIdFromSeqval) (f.page.filter (isAnnounced h.tableIsAllowed)) cs)
    (hw : Wanted T origin ch) (hl : ch.2.startLsn ≤ h.lsnEnd)
    (hc : ∀ cut, f.truncationCursor = some cut → ch.2.rank ≤ cut.rank) :
    Announced origin.txIdFromSeqval ch (rs++cs) := by
  rw [hpl.txId] at ha
  by_cases hb : Behind h ch.2
  · exact (hp ch hw hb).append _
  · have hm := hpl.mem_page_of_wanted hr hw hl hc hb
    exact (announced_of_mem ha hm).mono fun e he => mem_append_right _ he

lemma Placed.behind_of_empty (hp : Placed origin h) (hr : ReadsPage T h f)
    (he : f.flat = []) (hw : Wanted T origin ch) (hl : ch.2.startLsn ≤ h.lsnEnd) :
    Behind h ch.2 := by
  by_contra hb
  have hu := hw.unread hb hl
  rw [hr.empty he ch.1 (hp.metas ▸ hw.captured)] at hu
  cases hu

variable {r : Except Error (List Event)} {answer : PassAnswer} {s' : StreamSession}

lemma readPass_rests (hr : Rests origin s.handle) (hb : s.handle.windowBuffer = []) (ha : AnswersPass T s answer) :
    Rests origin (readPass s answer).1.handle ∧
      ((readPass s answer).2 = none → (readPass s answer).1.handle.windowBuffer = []) := by
  have hp := hr.toPlaced
  have ho := ha.outcome hb
  generalize readPass s answer = out at ho ⊢
  cases ho with
  | fetchFailed | truncatesFailed | advanceFailed => exact ⟨hr,by simp⟩
  | passed f ms events ic hm hf he ht hadv =>
    rw [hadv]
    simp only [advanceWindow]
    exact ⟨⟨{hp with cursor_le := by simp, pending_le := by simp, pending_past := by simp},
      fun _ => rfl,fun hn => absurd hb hn⟩,fun _ => hb⟩
  | fillFailed f bs cs ms e hf hfo =>
    exact ⟨⟨{hp with},fun _ => hr.settled hb,fun _ => (fetchAll_sound ha hf).window hfo⟩,
      by simp⟩
  | filled f bs cs ms events h hf hfo han ht hh =>
    obtain ⟨hfi,hw,-⟩ := hp.filled ha hf hfo hh
    exact ⟨drainPage_rests answer.advance hfi hw,by simp⟩

lemma readPass_readsOn (hl : 0 < origin.maxEventsPerPoll)
    (hr : ReadsOn T origin s.handle rs) (hb : s.handle.windowBuffer = [])
    (ha : AnswersPass T s answer) (hk : PassKept s answer) :
    ReadsOn T origin (readPass s answer).1.handle (rs++((readPass s answer).2.map eventsOf).getD []) := by
  have hp := hr.rests.toPlaced
  have hpa := hr.passes
  have hrea : ∀ f, s.handle.fetchAll answer.fetch 0 s.handle.metas ⟨none,[]⟩ = .ok f →
      ReadsPage T s.handle f := fun f hf =>
    fetchAll_reads (hp.limit ▸ hl) ha hk.harvested hf
  have hre := (readPass_rests hr.rests hb ha).1
  have ho := ha.outcome hb
  generalize readPass s answer = out at hre ho ⊢
  cases ho with
  | fetchFailed | truncatesFailed | advanceFailed => exact hr.append _
  | passed f ms events ic hm hf hem ht hadv =>
    have hi := ha.incremented hadv
    rw [hadv] at hre ⊢
    simp only [advanceWindow] at hre ⊢
    refine ⟨hre,fun ch hw hbe => ?_,fun hn => absurd hb hn⟩
    rcases (hp.behind_advance hi rfl rfl ch.2).mp hbe with hbef | ⟨_,hle⟩
    · exact (hpa ch hw hbef).append _
    · exact (hpa ch hw (hp.behind_of_empty (hrea f hf) hem hw hle)).append _
  | fillFailed f bs cs ms e hf hfo han ht =>
    -- the page was not cut, so that the cursor that is not parked is not missed
    have hwh := hk.uncut hf ht
    refine ⟨hre,hpa.append _,fun _ ch hw hle _ => ?_⟩
    have hc := hpa.page_covers hp (hrea f hf) han hw hle (by simp [hwh])
    simpa [eventsOf] using hc
  | filled f bs cs ms events h hf hfo han ht hh =>
    obtain ⟨hfi,hwi,hans⟩ := hp.filled ha hf hfo hh
    refine drainPage_readsOn hfi hwi ?_ ?_ hans
    · rw [hh]
      exact hpa
    · rw [hh]
      intro ch hw hle hcu
      refine (hpa.page_covers hp (hrea f hf) han hw hle hcu).mono fun e he => ?_
      rcases mem_append.mp he with hret | hch
      · exact mem_append_left _ hret
      · exact mem_append_right _ (mem_mergeTruncates.mpr (Or.inl hch))

variable (T) in
/-- The server's side of a call.  The capture instances stay the same. -/
structure AnswersCall (s : StreamSession) (answer : CallAnswer) : Prop where
  refresh : ∀ refreshed, answer.refresh = .ok refreshed →
    retainKnownCaptureFloors s.handle.metas refreshed = s.handle.metas
  settle : AnswersAdvance s.handle answer.settle
  passes : s.handle.windowBuffer = [] → LoopMeets readPass (AnswersPass T) s answer.passes

def CallKept (s : StreamSession) (answer : CallAnswer) : Prop :=
  s.handle.windowBuffer = [] → LoopMeets readPass PassKept s answer.passes

/-- What every pass of a call keeps, the call keeps. -/
theorem loop_keeps {P : StreamSession → List Event → Prop} {C : StreamSession → PassAnswer → Prop}
    (hpa : ∀ s answer, P s rs → s.handle.windowBuffer = [] → C s answer →
      P (readPass s answer).1 (rs++((readPass s answer).2.map eventsOf).getD []) ∧
        ((readPass s answer).2 = none → (readPass s answer).1.handle.windowBuffer = []))
    (hs : P s rs) (hb : s.handle.windowBuffer = []) {passes : List PassAnswer}
    (hp : LoopMeets readPass C s passes)
    (hl : loop readPass s passes = some (s',r)) :
    P s' (rs++eventsOf r) := by
  induction passes generalizing s with
  | nil => cases hl
  | cons answer passes ih =>
    obtain ⟨ho,hse⟩ := hpa s answer hs hb hp.1
    have hr := hp.2
    rw [loop] at hl
    generalize readPass s answer = out at ho hse hr hl
    obtain ⟨s₁,_ | result₁⟩ := out
    · simp only [Option.map_none,Option.getD_none,append_nil] at ho
      exact ih ho (hse rfl) hr hl
    · cases hl
      exact ho

/-- What a call does, in the order of its attempts. -/
inductive CallOutcome (s : StreamSession) (answer : CallAnswer) :
    Option (StreamSession × Except Error (List Event)) → Prop
  | refreshFailed (e : Error) (refresh : answer.refresh = .error e) : CallOutcome s answer (some (s,.error e))
  | schema (refreshed : List CaptureInstanceMeta) (events : List Event) (refresh : answer.refresh = .ok refreshed)
      (changed : computeSchemaEventsForMetaRefresh (fun kind captured statement =>
        s.handle.buildSchemaEventForMeta captured answer.clock kind statement) s.handle.metas s.handle.metas ≠ []) :
      CallOutcome s answer (some (s,.ok events))
  | drained (refreshed : List CaptureInstanceMeta) (refresh : answer.refresh = .ok refreshed)
      (buffer : s.handle.windowBuffer ≠ []) :
      CallOutcome s answer (some (⟨(s.handle.drainPage answer.settle).1,s.marked⟩,
        (s.handle.drainPage answer.settle).2))
  | read (refreshed : List CaptureInstanceMeta) (refresh : answer.refresh = .ok refreshed)
      (buffer : s.handle.windowBuffer = []) :
      CallOutcome s answer (loop readPass s answer.passes)

lemma nextEvents_outcome {answer : CallAnswer} (hr : s.handle.requeuedEvents = [])
    (hre : ∀ rf, answer.refresh = .ok rf → retainKnownCaptureFloors s.handle.metas rf = s.handle.metas) :
    CallOutcome s answer (nextEvents s answer) := by
  rw [nextEvents,hr]
  simp only [isEmpty_nil,Bool.not_true,Bool.false_eq_true,if_false,refreshMetasAndCollectSchemaEvents]
  cases ha : answer.refresh with
  | error e => exact .refreshFailed e ha
  | ok rf =>
    simp only [hre rf ha]
    by_cases hs : computeSchemaEventsForMetaRefresh (fun kind captured statement =>
        s.handle.buildSchemaEventForMeta captured answer.clock kind statement) s.handle.metas s.handle.metas = []
    · simp only [hs,isEmpty_nil,Bool.not_true,Bool.false_eq_true,if_false]
      by_cases hb : s.handle.windowBuffer = []
      · simp only [hb,isEmpty_nil,Bool.not_true,Bool.false_eq_true,if_false]
        have hrea := CallOutcome.read rf ha hb
        simpa [← hb] using hrea
      · have hso : s.handle.windowBuffer.isEmpty = false := by
          rw [isEmpty_eq_false_iff]
          exact hb
        simp only [hso,Bool.not_false,if_true]
        exact .drained rf ha hb
    · have hso := isEmpty_eq_false_iff.mpr hs
      simp only [hso,Bool.not_false,if_true]
      exact .schema rf _ ha hs

lemma nextEvents_readsOn {answer : CallAnswer} (hl : 0 < origin.maxEventsPerPoll)
    (hr : ReadsOn T origin s.handle rs) (ha : AnswersCall T s answer)
    (hk : CallKept s answer) (hc : nextEvents s answer = some (s',r)) :
    ReadsOn T origin s'.handle (rs++eventsOf r) := by
  have ho := nextEvents_outcome hr.rests.requeued ha.refresh
  rw [hc] at ho
  generalize hou : some (s',r) = out at ho
  cases ho with
  | refreshFailed | schema =>
    cases hou
    exact hr.append _
  | drained rf hre hb =>
    cases hou
    exact drainPage_readsOn hr.rests.toPlaced (hr.rests.window hb) hr.passes (hr.covers hb) ha.settle
  | read rf hre hb =>
    refine loop_keeps (P := fun s rs => ReadsOn T origin s.handle rs) ?_ hr hb
      (loopMeets_and (ha.passes hb) (hk hb)) hou.symm
    intro s answer hs hb hp
    exact ⟨readPass_readsOn hl hs hb hp.1 hp.2,(readPass_rests hs.rests hb hp.1).2⟩
end
section
/-- A stream with the events it has returned. -/
structure StreamTrace where
  session : StreamSession
  returned : List Event

/-- One call; one that does not return changes nothing that can be seen. -/
def StreamTrace.poll (t : StreamTrace) (answer : CallAnswer) : StreamTrace :=
  match nextEvents t.session answer with
  | none => t
  | some (s,result) => ⟨s,t.returned++eventsOf result⟩

def StreamTrace.start (h : SqlServerStreamHandle) : StreamTrace := ⟨⟨h,[]⟩,[]⟩

variable {T : ChangeTables} {o : SqlServerStreamHandle}

lemma poll_readsOn {t : StreamTrace} {answer : CallAnswer} (hl : 0 < o.maxEventsPerPoll)
    (hr : ReadsOn T o t.session.handle t.returned)
    (ha : AnswersCall T t.session answer) (hk : CallKept t.session answer) :
    ReadsOn T o (t.poll answer).session.handle (t.poll answer).returned := by
  rw [StreamTrace.poll]
  cases hc : nextEvents t.session answer with
  | none => exact hr
  | some => exact nextEvents_readsOn hl hr ha hk hc
end
end Rustcdc.Sqlserver
