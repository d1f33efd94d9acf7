import Rustcdc.Source.Sqlserver.Order

/-! Truncates over restarts.  A truncate is read from a table of its own and marked there in the pass
that reads it, before its event is returned; after that only the process holds it. -/
namespace Rustcdc.Sqlserver
open List Machine SqlServerStreamHandle StreamTrace

/-- The truncates captured on the server. -/
structure TruncateTable where
  rows : List TruncateEventRow
  distinct : (rows.map (·.id)).Nodup

variable {row : TruncateEventRow}

lemma TruncateTable.eq_of_id (R : TruncateTable) {other : TruncateEventRow} (hrow : row ∈ R.rows)
    (ho : other ∈ R.rows) (hi : row.id = other.id) : row = other :=
  inj_on_of_nodup_map R.distinct hrow ho hi

/-- The event announces the truncate, at the LSN and time of its row if that has them. -/
def AnnouncesTruncate (row : TruncateEventRow) (e : Event) : Prop :=
  ∃ lsnEnd now, e = buildTruncateEvent row (lsnBytesToHex (row.maxLsn.getD lsnEnd))
    (if 0 < row.tsMs then row.tsMs else now)
def Told (row : TruncateEventRow) (events : List Event) : Prop := ∃ e ∈ events, AnnouncesTruncate row e
/-- The query for truncates is not answered with this one. -/
def UnreadPass (row : TruncateEventRow) (answer : PassAnswer) : Prop :=
  ∀ rows, answer.truncates.rows = .ok rows → row ∉ rows
lemma AnnouncesTruncate.op {e : Event} (h : AnnouncesTruncate row e) : e.op = .truncate := by
  obtain ⟨_,_,rfl⟩ := h
  rfl

lemma Told.mono {es more : List Event} (h : Told row es)
    (hs : ∀ e ∈ es, e.op = .truncate → e ∈ more) : Told row more := by
  obtain ⟨e,he,ha⟩ := h
  exact ⟨e,hs e he ha.op,ha⟩
section
variable (R : TruncateTable)
section
variable (s : StreamSession) (answer : PassAnswer)

/-- The server's side of the query for truncates: it answers rows that are not marked, up to the
window's end. -/
def AnswersPending : Prop := ∀ rows, answer.truncates.rows = .ok rows → ∀ row ∈ rows,
    row ∈ R.rows ∧ row.id ∉ s.marked ∧ s.handle.truncateLsn row ≤ s.handle.lsnEnd

def emitted : List Event := eventsOf (s.handle.fetchAndEmitTruncateEvents answer.truncates).2

/-- A pass that reads truncates can move the window on. -/
def PassHands : Prop := emitted s answer ≠ [] → ∃ next, answer.advance = .ok next
end
variable {R} {m : List ℤ} {a : PassAnswer} {h : SqlServerStreamHandle} {s : StreamSession} {row : TruncateEventRow}

lemma told_of_marked {r : Except Error (List Event)} (hp : AnswersPending R s a)
    (hf : s.handle.fetchAndEmitTruncateEvents a.truncates = (m,r))
    (hrow : row ∈ R.rows)
    (hallowed : s.handle.tableIsAllowed (some row.schemaName) row.tableName = true)
    (hm : row.id ∈ m) : Told row (emitted s a) := by
  rw [emitted,hf]
  unfold fetchAndEmitTruncateEvents at hf
  split at hf
  · obtain ⟨rfl,_⟩ := Prod.mk.inj hf
    cases hm
  · split at hf
    · obtain ⟨rfl,_⟩ := Prod.mk.inj hf
      cases hm
    · obtain ⟨rfl,_⟩ := Prod.mk.inj hf
      cases hm
    · rename_i rows _ hr
      split at hf
      · obtain ⟨rfl,_⟩ := Prod.mk.inj hf
        cases hm
      · cases hf
        obtain ⟨o,ho,hi⟩ := mem_map.mp hm
        obtain rfl := R.eq_of_id (hp rows hr o ho).1 hrow hi
        exact ⟨_,mem_map_of_mem (mem_filter.mpr ⟨ho,hallowed⟩),_,_,rfl⟩

lemma read_of_marked {r : Except Error (List Event)} (hp : AnswersPending R s a)
    (hf : s.handle.fetchAndEmitTruncateEvents a.truncates = (m,r)) (hrow : row ∈ R.rows) (hm : row.id ∈ m) :
    ∃ rows, a.truncates.rows = .ok rows ∧ row ∈ rows := by
  unfold fetchAndEmitTruncateEvents at hf
  split at hf
  · cases hf
    cases hm
  · split at hf
    · cases hf
      cases hm
    · cases hf
      cases hm
    · rename_i rows _ hr
      split at hf
      · cases hf
        cases hm
      · cases hf
        obtain ⟨o,ho,hi⟩ := mem_map.mp hm
        obtain rfl := R.eq_of_id (hp rows hr o ho).1 hrow hi
        exact ⟨rows,hr,ho⟩

/-- A truncate is marked by the query that reads it. -/
lemma marked_of_read {a : TruncateAnswer} {rows : List TruncateEventRow} (hc : h.captureTruncateEvents = true)
    (hr : a.rows = .ok rows) (hrow : row ∈ rows) (hm : a.markConsumed = .ok ()) :
    row.id ∈ (h.fetchAndEmitTruncateEvents a).1 := by
  rw [fetchAndEmitTruncateEvents,hc,hr,hm]
  cases rows with
  | nil => cases hrow
  | cons => exact mem_map_of_mem hrow

lemma told_of_answered {a : TruncateAnswer} {events : List Event}
    {rows : List TruncateEventRow} (hc : h.captureTruncateEvents = true)
    (hr : a.rows = .ok rows) (hrow : row ∈ rows)
    (hallowed : h.tableIsAllowed (some row.schemaName) row.tableName = true)
    (hf : h.fetchAndEmitTruncateEvents a = (m,.ok events)) : Told row events := by
  rw [fetchAndEmitTruncateEvents,hc,hr] at hf
  cases rows with
  | nil => cases hrow
  | cons =>
    cases hm : a.markConsumed with
    | error =>
      rw [hm] at hf
      cases hf
    | ok =>
      rw [hm] at hf
      obtain rfl := Except.ok.inj (Prod.mk.inj hf).2
      exact ⟨_,mem_map_of_mem (mem_filter.mpr ⟨hrow,hallowed⟩),_,_,rfl⟩

/-- What is drained is returned or stays buffered, if the window can be moved on. -/
theorem mem_drainPage {a : Except Error (ℕ × ℕ)} {e : Event} (he : e ∈ h.windowBuffer) (han : ∃ n, a = .ok n) :
    e ∈ eventsOf (h.drainPage a).2++(h.drainPage a).1.windowBuffer := by
  have ho := drainPage_outcome h a
  generalize h.drainPage a = out at ho ⊢
  cases ho with
  | kept | resumed | advanced => simpa [eventsOf] using he
  | failed e hp ha =>
    obtain ⟨n,hok⟩ := han
    cases ha.symm.trans hok

lemma drainPage_capture (h : SqlServerStreamHandle) (a : Except Error (ℕ × ℕ)) :
    (h.drainPage a).1.captureTruncateEvents = h.captureTruncateEvents := by
  have ho := drainPage_outcome h a
  generalize h.drainPage a = out at ho ⊢
  cases ho <;> rfl

lemma readPass_capture {T : ChangeTables} (hb : s.handle.windowBuffer = []) (ha : AnswersPass T s a) :
    (readPass s a).1.handle.captureTruncateEvents = s.handle.captureTruncateEvents := by
  have ho := ha.outcome hb
  generalize readPass s a = out at ho ⊢
  cases ho with
  | passed f m es ic hm hf he ht hadv =>
    rw [hadv]
    rfl
  | filled f bs cs m es h hf hfo han ht hh =>
    rw [drainPage_capture,hh]
  | _ => rfl
end
/-- A truncate that is marked is announced by an event that was handed out before or is buffered. -/
def Held (row : TruncateEventRow) (s : StreamSession) (held : List Event) : Prop :=
  row.id ∈ s.marked → Told row (held++s.handle.windowBuffer)
section
variable {T : ChangeTables} {R : TruncateTable} {o : SqlServerStreamHandle}
  {row : TruncateEventRow} (hrow : row ∈ R.rows)
  (hal : o.tableIsAllowed (some row.schemaName) row.tableName = true)
include hrow hal
variable {a : PassAnswer} {s : StreamSession}

omit hrow hal in
/-- What is marked in a pass was marked before, or is what the query for truncates marks. -/
lemma readPass_marked {Q : Prop} (hb : s.handle.windowBuffer = []) (han : AnswersPass T s a)
    (hQ : ∀ ms r, s.handle.fetchAndEmitTruncateEvents a.truncates = (ms,r) → row.id ∈ ms → Q)
    (hm : row.id ∈ (readPass s a).1.marked) : row.id ∈ s.marked ∨ Q := by
  have hn : ∀ {ms r}, s.handle.fetchAndEmitTruncateEvents a.truncates = (ms,r) → row.id ∈ s.marked++ms →
      row.id ∈ s.marked ∨ Q := fun hf hme => (mem_append.mp hme).imp_right (hQ _ _ hf)
  have ho := han.outcome hb
  generalize readPass s a = out at ho hm
  cases ho with
  | fetchFailed => exact Or.inl hm
  | truncatesFailed f ms e hf he ht => exact hn ht hm
  | advanceFailed f ms es e hf he ht | passed f ms es ic har hf he ht =>
    exact hn ht hm
  | fillFailed f bs cs ms e hf hfo ha ht | filled f bs cs ms es h hf hfo ha ht =>
    exact hn ht hm

omit hrow hal in
/-- What a pass reads is returned or buffered, if it can move the window on. -/
theorem mem_readPass (hbu : s.handle.windowBuffer = []) (hans : AnswersPass T s a)
    (hfe : ∃ f, s.handle.fetchAll a.fetch 0 s.handle.metas ⟨none,[]⟩ = .ok f)
    (ha : ∃ n, a.advance = .ok n) {e : Event} (he : e ∈ emitted s a) :
    e ∈ ((readPass s a).2.map eventsOf).getD []++(readPass s a).1.handle.windowBuffer := by
  have ho := hans.outcome hbu
  generalize readPass s a = out at ho ⊢
  cases ho with
  | fetchFailed e hf =>
    obtain ⟨f,hok⟩ := hfe
    cases hf.symm.trans hok
  | truncatesFailed f ms e hf hem ht | fillFailed f bs cs ms e hf hfo han ht =>
    rw [emitted,ht] at he
    cases he
  | advanceFailed f ms es e hf hem ht hadv =>
    obtain ⟨n,hok⟩ := ha
    cases hadv.symm.trans hok
  | passed f ms es ic hm hf hem ht =>
    rw [emitted,ht] at he
    have hs : es.isEmpty = false := by
      rw [isEmpty_eq_false_iff]
      exact ne_nil_of_mem he
    simpa [hs,eventsOf] using Or.inl he
  | filled f bs cs ms es h hf hfo han ht hh =>
    rw [emitted,ht] at he
    have hb : e ∈ h.windowBuffer := by
      rw [hh]
      exact mem_mergeTruncates.mpr (Or.inr he)
    exact mem_drainPage hb ha

lemma readPass_held {held : List Event} (hr : Rests o s.handle)
    (hb : s.handle.windowBuffer = []) (ha : AnswersPass T s a)
    (hp : AnswersPending R s a) (hh : PassHands s a) (hhe : Held row s held) :
    Held row (readPass s a).1 (held++((readPass s a).2.map eventsOf).getD []) := by
  intro hm
  rw [append_assoc]
  by_cases hbe : row.id ∈ s.marked
  · refine (hhe hbe).mono fun e he _ => mem_append_left _ ?_
    simpa [hb] using he
  · have ht : Told row (emitted s a) := by
      refine (readPass_marked hb ha (fun ms r hf hno => ?_) hm).resolve_left hbe
      exact told_of_marked hp hf hrow (by rw [hr.allowed]; exact hal) hno
    have hf : ∃ f, s.handle.fetchAll a.fetch 0 s.handle.metas ⟨none,[]⟩ = .ok f := by
      -- nothing is marked before the change tables were read
      cases hfe : s.handle.fetchAll a.fetch 0 s.handle.metas ⟨none,[]⟩ with
      | ok f => exact ⟨f,rfl⟩
      | error =>
        rw [readPass,hfe] at hm
        exact absurd hm hbe
    refine ht.mono fun e he _ => mem_append_right _ ?_
    exact mem_readPass hb ha hf (hh (ne_nil_of_mem he)) he
end
section
variable (T : ChangeTables) (R : TruncateTable)

structure ServesCall (s : StreamSession) (answer : CallAnswer) : Prop extends AnswersCall T s answer where
  pending : s.handle.windowBuffer = [] → LoopMeets readPass (AnswersPending R) s answer.passes

/-- A call that hands out truncates can move the window on. -/
structure CallHands (s : StreamSession) (answer : CallAnswer) : Prop where
  settle : (∃ e ∈ s.handle.windowBuffer, e.op = .truncate) → ∃ next, answer.settle = .ok next
  passes : s.handle.windowBuffer = [] → LoopMeets readPass PassHands s answer.passes

variable {T R}

/-- A stream between two calls, with a truncate it holds if it is marked. -/
structure Holds (origin : SqlServerStreamHandle) (row : TruncateEventRow) (s : StreamSession)
    (held : List Event) : Prop where
  rests : Rests origin s.handle
  capture : s.handle.captureTruncateEvents = origin.captureTruncateEvents
  held : Held row s held

variable {o : SqlServerStreamHandle} {row : TruncateEventRow} (hrow : row ∈ R.rows)
  (h : o.tableIsAllowed (some row.schemaName) row.tableName = true)
include hrow h

lemma nextEvents_holds {s s' : StreamSession} {answer : CallAnswer} {held : List Event}
    {r : Except Error (List Event)} (hho : Holds o row s held)
    (hs : ServesCall T R s answer) (hh : CallHands s answer)
    (hca : nextEvents s answer = some (s',r)) : Holds o row s' (held++eventsOf r) := by
  obtain ⟨hr,hc,hhe⟩ := hho
  have hmo : ∀ mo, Held row s (held++mo) := fun mo hm =>
    (hhe hm).mono fun e he _ => by
      rcases mem_append.mp he with hbe | hbu
      · simp [hbe]
      · simp [hbu]
  have ho := nextEvents_outcome hr.requeued hs.refresh
  rw [hca] at ho
  generalize hou : some (s',r) = out at ho
  cases ho with
  | refreshFailed | schema =>
    cases hou
    exact ⟨hr,hc,hmo _⟩
  | drained rf hre hb =>
    cases hou
    refine ⟨drainPage_rests answer.settle hr.toPlaced (hr.window hb),(drainPage_capture _ _).trans hc,fun hm => ?_⟩
    refine (hhe hm).mono fun e he ht => ?_
    rw [append_assoc]
    rcases mem_append.mp he with hbe | hbu
    · exact mem_append_left _ hbe
    · exact mem_append_right _ (mem_drainPage hbu (hh.settle ⟨e,hbu,ht⟩))
  | read rf hre hb =>
    refine loop_keeps (P := fun s held => Holds o row s held) ?_ ⟨hr,hc,hhe⟩ hb
      (loopMeets_and (hs.passes hb) (loopMeets_and (hs.pending hb) (hh.passes hb))) hou.symm
    rintro s answer ⟨hr,hc,hhe⟩ hb ⟨ha,hp,hpa⟩
    obtain ⟨hr',hse⟩ := readPass_rests hr hb ha
    exact ⟨⟨hr',(readPass_capture hb ha).trans hc,readPass_held hrow h hr hb ha hp hpa hhe⟩,hse⟩

omit h in
lemma readPass_unmarked {s : StreamSession} {a : PassAnswer} (hb : s.handle.windowBuffer = []) (ha : AnswersPass T s a)
    (hp : AnswersPending R s a) (hu : UnreadPass row a) (hn : row.id ∉ s.marked) : row.id ∉ (readPass s a).1.marked := by
  intro hm
  have hq := readPass_marked (Q := False) hb ha (fun ms r hf hno => ?_) hm
  · exact hq.elim hn id
  · obtain ⟨rows,hr,hme⟩ := read_of_marked hp hf hrow hno
    exact hu rows hr hme

omit h in
/-- A call that is cut off and has not read the truncate has not marked it. -/
theorem reached_unmarked {s : StreamSession} (hre : Rests o s.handle)
    (hb : s.handle.windowBuffer = []) {passes : List PassAnswer}
    (ha : LoopMeets readPass (AnswersPass T) s passes)
    (hp : LoopMeets readPass (AnswersPending R) s passes)
    (hn : LoopMeets readPass (fun _ => UnreadPass row) s passes)
    (hu : row.id ∉ s.marked) : row.id ∉ (reached readPass s passes).marked := by
  induction passes generalizing s with
  | nil => exact hu
  | cons answer passes ih =>
    obtain ⟨hre',hs⟩ := readPass_rests hre hb ha.1
    have ho := readPass_unmarked hrow hb ha.1 hp.1 hn.1 hu
    have hrest := ha.2
    have hr := hp.2
    have hres := hn.2
    rw [reached]
    generalize readPass s answer = out at hre' hs ho hrest hr hres ⊢
    obtain ⟨s₁,_ | r⟩ := out
    · exact ih hre' (hs rfl) hrest hr hres ho
    · exact ho

omit h in
lemma nextEvents_unmarked {s s' : StreamSession} {answer : CallAnswer} {r : Except Error (List Event)}
    (hre : Rests o s.handle) (hn : row.id ∉ s.marked) (hs : ServesCall T R s answer)
    (hu : s.handle.windowBuffer = [] → LoopMeets readPass (fun _ => UnreadPass row) s answer.passes)
    (hca : nextEvents s answer = some (s',r)) : Rests o s'.handle ∧ row.id ∉ s'.marked := by
  have ho := nextEvents_outcome hre.requeued hs.refresh
  rw [hca] at ho
  generalize hou : some (s',r) = out at ho
  cases ho with
  | refreshFailed | schema =>
    cases hou
    exact ⟨hre,hn⟩
  | drained rf _ hb =>
    cases hou
    exact ⟨drainPage_rests answer.settle hre.toPlaced (hre.window hb),hn⟩
  | read rf _ hb =>
    let P : StreamSession → List Event → Prop := fun s _ => Rests o s.handle ∧ row.id ∉ s.marked
    have hP : P s [] := ⟨hre,hn⟩
    refine loop_keeps ?_ hP hb (loopMeets_and (hs.passes hb) (loopMeets_and (hs.pending hb) (hu hb))) hou.symm
    rintro s answer ⟨hr,hn⟩ hb ⟨ha,hp,hu⟩
    obtain ⟨hr',hse⟩ := readPass_rests hr hb ha
    exact ⟨⟨hr',readPass_unmarked hrow hb ha hp hu hn⟩,hse⟩
end
section
/-- A stream over restarts, with the events that were returned and are not committed, and those that
are. -/
structure TruncateTrace where
  session : StreamSession
  returned : List Event
  committed : List Event

inductive TruncateLabel where
  | poll (answer : CallAnswer)
  /-- The consumer commits that many of the events it was returned. -/
  | commit (count : ℕ)
  /-- The process ends, in a call that has made these passes, and another stream is started. -/
  | crash (passes : List PassAnswer) (h : SqlServerStreamHandle)

namespace TruncateTrace
def start (h : SqlServerStreamHandle) : TruncateTrace := ⟨⟨h,[]⟩,[],[]⟩

/-- The marks stay on the server.  A call with events to return reads nothing. -/
def step (t : TruncateTrace) : TruncateLabel → TruncateTrace
  | .poll answer =>
    match nextEvents t.session answer with
    | none => t
    | some (s,result) => {t with session := s, returned := t.returned++eventsOf result}
  | .commit count =>
    {t with returned := t.returned.drop count, committed := t.committed++t.returned.take count}
  | .crash passes h =>
    let last := if t.session.handle.windowBuffer.isEmpty then reached readPass t.session passes
      else t.session
    ⟨⟨h,last.marked⟩,[],t.committed⟩
end TruncateTrace
variable (T : ChangeTables) (R : TruncateTable) (config : StreamConfig)

/-- The server's side of a step. -/
def Serves (t : TruncateTrace) : TruncateLabel → Prop
  | .poll answer => ServesCall T R t.session answer
  | .commit _ => True
  | .crash passes h =>
    (∃ answers resumeFrom, startSqlserverStream config answers resumeFrom = .ok h) ∧
      (t.session.handle.windowBuffer = [] → LoopMeets readPass (AnswersPass T) t.session passes ∧
          LoopMeets readPass (AnswersPending R) t.session passes)

/-- No query of the step is answered with the truncate. -/
def Unread (row : TruncateEventRow) (t : TruncateTrace) : TruncateLabel → Prop
  | .poll answer => t.session.handle.windowBuffer = [] → LoopMeets readPass (fun _ => UnreadPass row) t.session answer.passes
  | .commit _ => True
  | .crash passes _ => t.session.handle.windowBuffer = [] → LoopMeets readPass (fun _ => UnreadPass row) t.session passes

variable {T R config}

/-- The stream is between two calls, and the truncate is not marked. -/
def Unmarked (row : TruncateEventRow) (t : TruncateTrace) : Prop :=
  (∃ origin, Rests origin t.session.handle) ∧ row.id ∉ t.session.marked

lemma Unmarked.step {row : TruncateEventRow} (hrow : row ∈ R.rows) (t : TruncateTrace) (l : TruncateLabel)
    (h : Unmarked row t) (hl : Serves T R config t l ∧ Unread row t l) : Unmarked row (t.step l) := by
  obtain ⟨⟨origin,hr⟩,hn⟩ := h
  obtain ⟨hse,hu⟩ := hl
  cases l with
  | poll answer =>
    rw [TruncateTrace.step]
    cases hca : nextEvents t.session answer with
    | none => exact ⟨⟨origin,hr⟩,hn⟩
    | some =>
      obtain ⟨hr',hn'⟩ := nextEvents_unmarked hrow hr hn hse hu hca
      exact ⟨⟨origin,hr'⟩,hn'⟩
  | commit => exact ⟨⟨origin,hr⟩,hn⟩
  | crash passes h =>
    obtain ⟨answers,resumeFrom,hst⟩ := hse.1
    refine ⟨⟨h,start_rests hst⟩,?_⟩
    rw [TruncateTrace.step]
    by_cases hb : t.session.handle.windowBuffer = []
    · simp only [hb,isEmpty_nil,if_true]
      obtain ⟨ha,hp⟩ := hse.2 hb
      exact reached_unmarked hrow hr hb ha hp (hu hb) hn
    · have hso : t.session.handle.windowBuffer.isEmpty = false := by
        rw [isEmpty_eq_false_iff]
        exact hb
      simp only [hso,Bool.false_eq_true,if_false]
      exact hn
end
section
variable {T : ChangeTables} {R : TruncateTable} {row : TruncateEventRow}

def Offers (row : TruncateEventRow) (s : StreamSession) (answer : PassAnswer) : Prop :=
  ∀ rows, answer.truncates.rows = .ok rows → row.id ∉ s.marked →
    s.handle.truncateLsn row ≤ s.handle.lsnEnd → row ∈ rows

structure Offered (row : TruncateEventRow) (s : StreamSession) (answer : CallAnswer) : Prop where
  answered : CallAnswered (row.maxLsn.getD 0) s answer
  offers : s.handle.windowBuffer = [] → LoopMeets readPass (Offers row) s answer.passes

lemma truncateLsn_le {h : SqlServerStreamHandle} (hr : row.maxLsn.getD 0 ≤ h.lsnEnd) :
    h.truncateLsn row ≤ h.lsnEnd := by
  rw [truncateLsn]
  cases hl : row.maxLsn with
  | none => exact le_rfl
  | some =>
    rw [hl] at hr
    exact hr

variable {o : SqlServerStreamHandle} (hrow : row ∈ R.rows)
  (h : o.tableIsAllowed (some row.schemaName) row.tableName = true)
include hrow h

/-- Passes bring the stream on until the truncate is returned. -/
theorem loop_progress_truncate {s s' : StreamSession} {r : Except Error (List Event)}
    (hc : o.captureTruncateEvents = true)
    (hn : ∀ c ∈ o.metas, validateCaptureInstanceName c.captureInstance = .ok ())
    (hr : Rests o s.handle)
    (hsa : s.handle.captureTruncateEvents = o.captureTruncateEvents)
    (hb : s.handle.windowBuffer = []) (hu : row.id ∉ s.marked) {passes : List PassAnswer}
    (hpa : LoopMeets readPass (fun s a => AnswersPass T s a ∧ AnswersPending R s a) s passes)
    (hh : LoopMeets readPass PassHands s passes)
    (ho : LoopMeets readPass (Offers row) s passes)
    (ha : ∀ pass ∈ passes, PassAnswered (row.maxLsn.getD 0) pass)
    (hl : loop readPass s passes = some (s',r)) :
    Told row (eventsOf r) ∨ progress T (row.maxLsn.getD 0) s'.handle < progress T (row.maxLsn.getD 0) s.handle := by
  refine loop_progress (P := fun s => Rests o s.handle ∧
      s.handle.captureTruncateEvents = o.captureTruncateEvents ∧ row.id ∉ s.marked)
    (Q := Told row) ?_ ⟨hr,hsa,hu⟩ hb
    (loopMeets_and hpa (loopMeets_and hh (loopMeets_and ho (loopMeets_of_forall ha s)))) hl
  rintro s answer ⟨hr,hsa,hu⟩ hb ⟨⟨han,hp⟩,hh,ho,ha⟩
  obtain ⟨fs,hf⟩ := ha.fetchAll_ok s.handle (hr.metas ▸ hn : ∀ c ∈ s.handle.metas, _) 0 ⟨none,[]⟩
  obtain ⟨n,_,hadv,_⟩ := ha.advance
  by_cases hre : fs.flat = [] ∧ row.maxLsn.getD 0 ≤ s.handle.lsnEnd
  · -- the window is passed with the truncates that it has
    obtain ⟨hem,hls⟩ := hre
    obtain ⟨rows,hro⟩ := ha.truncates
    obtain ⟨ms,es,ht⟩ := ha.truncates_ok s.handle
    have hallowed' : s.handle.tableIsAllowed (some row.schemaName) row.tableName = true := by
      rw [hr.allowed]
      exact h
    have hto := told_of_answered (hsa.trans hc) hro (ho rows hro hu (truncateLsn_le hls)) hallowed' ht
    refine Or.inl ⟨.ok es,?_,hto⟩
    obtain ⟨e,he,_⟩ := hto
    have hso : es.isEmpty = false := by
      rw [isEmpty_eq_false_iff]
      exact ne_nil_of_mem he
    rw [readPass,hf]
    simp [hem,emptyPage,ht,hadv,advanceWindow,hso]
  · refine Or.inr ⟨readPass_progress hn hr hb han ha ?_,fun hno => ?_⟩
    · intro f hfe hem
      obtain rfl := Except.ok.inj (hf.symm.trans hfe)
      by_contra hle
      exact hre ⟨hem,not_lt.mp hle⟩
    · obtain ⟨hr',hs⟩ := readPass_rests hr hb han
      refine ⟨⟨hr',(readPass_capture hb han).trans hsa,fun hm => ?_⟩, hs hno⟩
      -- a truncate that is read is returned
      have hbe : Held row s [] := fun hm => absurd hm hu
      obtain ⟨e,he,_⟩ := readPass_held hrow h hr hb han hp hh hbe hm
      rw [hno,hs hno] at he
      cases he

/-- A truncate that is not marked is returned once the calls are answered with it. -/
theorem eventually_told (hre : Rests o o) (hl : 0 < o.maxEventsPerPoll) (hc : o.captureTruncateEvents = true)
    (hna : ∀ c ∈ o.metas, validateCaptureInstanceName c.captureInstance = .ok ())
    (hd : (o.metas.map (·.captureInstance)).Nodup) {marked : List ℤ}
    (hu : row.id ∉ marked) {cs : ℕ → CallAnswer}
    (hca : ∀ n, let s := (states poll ⟨⟨o,marked⟩,[]⟩ cs n).session
      ServesCall T R s (cs n) ∧ CallHands s (cs n)) {f : ℕ}
    (ho : ∀ n, f ≤ n → Offered row (states poll ⟨⟨o,marked⟩,[]⟩ cs n).session (cs n)) :
    ∃ n, Told row (states poll ⟨⟨o,marked⟩,[]⟩ cs n).returned := by
  refine eventually_of_measure wellFounded_lt (fun t : StreamTrace => progress T (row.maxLsn.getD 0) t.session.handle)
    (Q := fun t : StreamTrace => Told row t.returned) f fun n hn hmi hne => ?_
  have hh := states_invariant
    (C := fun (t : StreamTrace) answer => ServesCall T R t.session answer ∧ CallHands t.session answer)
    (P := fun t : StreamTrace => Holds o row t.session t.returned)
    (fun t answer hh hcal => by
      rw [poll]
      cases hou : nextEvents t.session answer with
      | none => exact hh
      | some => exact nextEvents_holds hrow h hh hcal.1 hcal.2 hou)
    (s := ⟨⟨o,marked⟩,[]⟩) ⟨hre,rfl,fun hm => absurd hm hu⟩ hca n
  obtain ⟨hs,hha⟩ := hca n
  obtain ⟨ha,hof⟩ := ho n hn
  refine (poll_progress (Q := Told row) hl hd hh.rests hs.toAnswersCall ha fun hb s' r hlo => ?_).resolve_left ?_
  · refine loop_progress_truncate hrow h hc hna hh.rests hh.capture hb ?_
      (loopMeets_and (hs.passes hb) (hs.pending hb))
      (hha.passes hb) (hof hb) ha.passes hlo
    -- nothing is buffered, so that a truncate that is marked was returned
    intro hm
    have ht := hh.held hm
    rw [hb,append_nil] at ht
    exact hmi ht
  · rintro ⟨events,hr,ht⟩
    refine hne (ht.mono fun e he _ => ?_)
    have hme : e ∈ (states poll ⟨⟨o,marked⟩,[]⟩ cs n).returned++events := mem_append_right _ he
    exact hr ▸ hme
end
/-- A truncate that no query of the run was answered with is not marked, also when the process ends, and
the stream started then returns it once its calls are answered.  A query that is answered with it marks
it before its event is returned. -/
theorem truncates_at_least_once (T : ChangeTables) (R : TruncateTable) {config : StreamConfig}
    {answers : StreamAnswers} {resumeFrom : Option Offset} {h : SqlServerStreamHandle}
    (hstart : startSqlserverStream config answers resumeFrom = .ok h)
    (hlimit : 1 ≤ config.maxEventsPerPoll) (hcapture : config.captureTruncateEvents = true)
    {row : TruncateEventRow} (hrow : row ∈ R.rows)
    (hallowed : config.tableIsAllowed (some row.schemaName) row.tableName = true) {labels : List TruncateLabel}
    (hlabels : Meets TruncateTrace.step (fun t label => Serves T R config t label ∧ Unread row t label)
      (.start h) labels) :
    let t := run TruncateTrace.step (.start h) labels
    row.id ∉ t.session.marked ∧
    (∀ passes h', Serves T R config t (.crash passes h') → Unread row t (.crash passes h') →
        row.id ∉ (t.step (.crash passes h')).session.marked ∧
        ((∀ captured ∈ h'.metas, validateCaptureInstanceName captured.captureInstance = .ok ()) →
          (h'.metas.map (·.captureInstance)).Nodup → ∀ calls : ℕ → CallAnswer,
            let restarted : StreamTrace := ⟨(t.step (.crash passes h')).session,[]⟩
            let states := states StreamTrace.poll restarted calls
            (∀ n, ServesCall T R (states n).session (calls n) ∧ CallHands (states n).session (calls n)) →
            (∃ first, ∀ n, first ≤ n → Offered row (states n).session (calls n)) →
              ∃ n, Told row (states n).returned)) ∧
    ∀ (handle : SqlServerStreamHandle) (answer : TruncateAnswer) rows, handle.captureTruncateEvents = true →
      answer.rows = .ok rows → row ∈ rows → answer.markConsumed = .ok () →
      row.id ∈ (handle.fetchAndEmitTruncateEvents answer).1 := by
  intro t
  have hk : Unmarked row t :=
    run_invariant_of_meets _ (P := Unmarked row) (Unmarked.step hrow) ⟨⟨h,start_rests hstart⟩,by simp [TruncateTrace.start]⟩
      hlabels
  refine ⟨hk.2,fun passes h' hs hu => ?_,fun handle answer rows hc hr hm hk => marked_of_read hc hr hm hk⟩
  have hn := (hk.step hrow t (.crash passes h') ⟨hs,hu⟩).2
  refine ⟨hn,fun hna hd calls hc => ?_⟩
  rintro ⟨first,ho⟩
  obtain ⟨answers',resumeFrom',hre⟩ := hs.1
  have hr := startSqlserverStream_ok hre
  exact eventually_told hrow (by rw [hr.allowed]; exact hallowed) (start_rests hre)
    (by rw [hr.limit]; exact hlimit) (hr.capture.trans hcapture) hna hd hn hc ho

def noOrders : ChangeTables where
  changes _ := []
  sorted _ := List.Pairwise.nil
  operations _ := by simp

def truncateRow (id : ℤ) (tsMs : UInt64) : TruncateEventRow := ⟨id,"dbo","orders",some 6,tsMs⟩
def twoTruncates : TruncateTable := ⟨[truncateRow 1 1,truncateRow 2 2],by decide⟩
section
variable {R : TruncateTable} {s : StreamSession} {t : List TruncateEventRow}

lemma ordersCall_hands (lsnEnd : ℕ) (rows : List SqlServerRawChange) : CallHands s (ordersCall lsnEnd rows (.ok t)) :=
  ⟨fun _ => ⟨_,rfl⟩,fun _ => loopMeets_cons (fun _ => ⟨_,rfl⟩) fun _ => trivial⟩

lemma ordersCall_serves (he : s.handle.lsnEnd = 6) (hm : s.handle.metas = [ordersInstance])
    (hr : ∀ row ∈ t, row ∈ R.rows ∧ row.id ∉ s.marked ∧ row.maxLsn = some 6) :
    ServesCall noOrders R s (ordersCall 6 [] (.ok t)) := by
  refine ⟨ordersCall_answers he hm fun _ => by simp [unread,noOrders],fun _ => loopMeets_cons ?_ fun _ => trivial⟩
  intro rows hre row hrow
  cases hre
  obtain ⟨hme,hu,hl⟩ := hr row hrow
  refine ⟨hme,hu,?_⟩
  rw [truncateLsn,hl,he]
  rfl
end
def firstTruncate : List TruncateLabel := [.poll (ordersCall 6 [] (.ok [truncateRow 1 1])),.commit 1]

/-- The process ends, and the stream is started again. -/
def afterFirst : TruncateTrace := (run TruncateTrace.step (.start (ordersStream 6)) firstTruncate).step
    (.crash [] (ordersStream 6))

/-- The second truncate is read, and then nothing. -/
def secondTruncate : ℕ → CallAnswer
  | 0 => ordersCall 6 [] (.ok [truncateRow 2 2])
  | _ => ordersCall 6 [] (.ok [])
def secondRead : StreamTrace := states StreamTrace.poll ⟨afterFirst.session,[]⟩ secondTruncate 2

lemma secondRead_stays (n : ℕ) : states poll ⟨afterFirst.session,[]⟩ secondTruncate (n+2) = secondRead := by
  induction n with
  | zero => rfl
  | succ n ih =>
    calc states poll ⟨afterFirst.session,[]⟩ secondTruncate (n+2+1)
        = poll secondRead (secondTruncate (n+2)) := by rw [← ih]; rfl
      _ = secondRead := by rfl

lemma secondTruncate_serves (n : ℕ) :
    let s := (states poll ⟨afterFirst.session,[]⟩ secondTruncate n).session
    ServesCall noOrders twoTruncates s (secondTruncate n) ∧ CallHands s (secondTruncate n) := by
  match n with
  | 0 => exact ⟨ordersCall_serves rfl rfl (by decide +kernel),ordersCall_hands 6 []⟩
  | 1 => exact ⟨ordersCall_serves rfl rfl (by simp),ordersCall_hands 6 []⟩
  | n+2 =>
    rw [secondRead_stays]
    exact ⟨ordersCall_serves rfl rfl (by simp),ordersCall_hands 6 []⟩

lemma secondTruncate_offered (n : ℕ) : Offered (truncateRow 2 2)
    (states poll ⟨afterFirst.session,[]⟩ secondTruncate n).session
    (secondTruncate n) := by
  have hc : ∀ {s : StreamSession} {ts : List TruncateEventRow},
      (nextEvents s (ordersCall 6 [] (.ok ts))).isSome = true →
      (2 ∉ s.marked → truncateRow 2 2 ∈ ts) → Offered (truncateRow 2 2) s (ordersCall 6 [] (.ok ts)) := by
    intro s ts hr ho
    refine ⟨⟨⟨_,rfl⟩,⟨_,6,rfl,le_rfl⟩,fun pass hp => ?_,hr⟩,fun _ =>
      loopMeets_cons ?_ fun _ => trivial⟩
    · obtain rfl := mem_singleton.mp hp
      exact ⟨fun i => ⟨_,rfl⟩,⟨_,rfl⟩,rfl,_,6,rfl,le_rfl⟩
    · intro rows hre hu _
      cases hre
      exact ho hu
  match n with
  | 0 => exact hc rfl fun _ => mem_singleton_self _
  | 1 => exact hc rfl fun hu => absurd (by decide +kernel) hu
  | n+2 =>
    rw [secondRead_stays]
    exact hc rfl fun hu => absurd (by decide +kernel) hu

theorem truncates_at_least_once_sample : ∃ n, Told (truncateRow 2 2)
      (states StreamTrace.poll ⟨afterFirst.session,[]⟩ secondTruncate n).returned := by
  have hne : truncateRow 2 2 ∉ [truncateRow 1 1] := by decide
  have hu : ∀ s, LoopMeets readPass (fun _ => UnreadPass (truncateRow 2 2)) s
      (ordersCall 6 [] (.ok [truncateRow 1 1])).passes := fun s =>
    loopMeets_cons (fun rows hr => by cases hr; exact hne) fun _ => trivial
  have hl : Meets TruncateTrace.step
      (fun t label => Serves noOrders twoTruncates ordersConfig t label ∧ Unread (truncateRow 2 2) t label)
      (.start (ordersStream 6)) firstTruncate :=
    ⟨⟨ordersCall_serves rfl rfl (by decide +kernel),fun _ => hu _⟩,⟨trivial,trivial⟩,trivial⟩
  have hal := truncates_at_least_once noOrders twoTruncates ordersStream_started (by decide) rfl
    (List.mem_cons_of_mem _ (List.mem_singleton_self (truncateRow 2 2))) rfl hl
  exact (hal.2.1 [] (ordersStream 6) ⟨⟨_,_,ordersStream_started⟩,fun _ => ⟨trivial,trivial⟩⟩
    fun _ => trivial).2 (by decide +kernel) (by decide) secondTruncate
    secondTruncate_serves ⟨0,fun n _ => secondTruncate_offered n⟩

def readTruncate : List TruncateLabel := [.poll (ordersCall 6 [] (.ok [truncateRow 1 1]))]

/-- The process ends before the event is committed, and the next stream asks for truncates. -/
def lostTruncate : List TruncateLabel := readTruncate++[.crash [] (ordersStream 6),.poll (ordersCall 6 [] (.ok []))]
def lostTrace : TruncateTrace := run TruncateTrace.step (.start (ordersStream 6)) lostTruncate

/-- The truncate is marked when it is read.  After the restart the server does not answer it again. -/
theorem uncommitted_truncate_lost : startSqlserverStream ordersConfig (ordersAnswers 6) none = .ok (ordersStream 6) ∧
      Meets TruncateTrace.step (Serves noOrders twoTruncates ordersConfig) (.start (ordersStream 6)) lostTruncate ∧
      1 ∈ (run TruncateTrace.step (.start (ordersStream 6)) readTruncate).session.marked ∧
      (run TruncateTrace.step (.start (ordersStream 6)) readTruncate).committed = [] ∧
      1 ∈ lostTrace.session.marked ∧
      lostTrace.committed++lostTrace.returned++lostTrace.session.handle.windowBuffer = [] ∧
      ∀ s answer rows, 1 ∈ s.marked → AnswersPending twoTruncates s answer →
        answer.truncates.rows = .ok rows → truncateRow 1 1 ∉ rows := by
  refine ⟨ordersStream_started,⟨?_,?_,?_,trivial⟩,by decide +kernel,rfl,by decide +kernel,rfl,?_⟩
  · exact ordersCall_serves rfl rfl (by decide +kernel)
  · exact ⟨⟨_,_,ordersStream_started⟩,fun _ => ⟨trivial,trivial⟩⟩
  · exact ordersCall_serves rfl rfl (by simp)
  · intro s answer rows hm hp hr hme
    exact (hp rows hr _ hme).2.1 hm
end Rustcdc.Sqlserver
