import Rustcdc.Source.Sqlserver.Complete

/-! Every change is returned: every call that is answered brings the stream on. -/
namespace Rustcdc.Sqlserver
open List Machine SqlServerStreamHandle StreamTrace
section
variable {T : ChangeTables} {ori : SqlServerStreamHandle}

/-- A pass all of whose queries are answered, when the capture job is past an LSN. -/
structure PassAnswered (lsn : ℕ) (answer : PassAnswer) : Prop where
  fetch : ∀ i, ∃ rows, answer.fetch i = .rows rows
  truncates : ∃ rows, answer.truncates.rows = .ok rows
  marked : answer.truncates.markConsumed = .ok ()
  advance : ∃ incremented harvestedMax, answer.advance = .ok (incremented,harvestedMax) ∧ lsn ≤ harvestedMax

structure CallAnswered (lsn : ℕ) (s : StreamSession) (answer : CallAnswer) : Prop where
  refresh : ∃ refreshed, answer.refresh = .ok refreshed
  settle : ∃ incremented harvestedMax, answer.settle = .ok (incremented,harvestedMax) ∧ lsn ≤ harvestedMax
  passes : ∀ pass ∈ answer.passes, PassAnswered lsn pass
  returns : (nextEvents s answer).isSome

variable {m : List CaptureInstanceMeta} {an : PassAnswer} {h h' : SqlServerStreamHandle} {s : StreamSession} {lsn : ℕ}
section
variable (ha : PassAnswered lsn an) (h : SqlServerStreamHandle)
include ha

lemma PassAnswered.fetchAll_ok (hn : ∀ captured ∈ m, validateCaptureInstanceName captured.captureInstance = .ok ())
    (i : ℕ) (f : Fetched) : ∃ g, h.fetchAll an.fetch i m f = .ok g := by
  induction m generalizing i f with
  | nil => exact ⟨f,rfl⟩
  | cons captured m ih =>
    obtain ⟨rows,hr⟩ := ha.fetch i
    have hon : ∃ changes, h.fetchChangesForCaptureInstance captured (an.fetch i) = .ok changes := by
      unfold fetchChangesForCaptureInstance
      rw [hn captured mem_cons_self,hr]
      by_cases he : h.lsnEnd < h.lsnStart
      · exact ⟨[],if_pos he⟩
      · by_cases hf : h.lsnEnd < h.windowStart captured
        · exact ⟨[],by simp [he,hf]⟩
        · exact ⟨rows,by simp [he,hf]⟩
    obtain ⟨changes,hc⟩ := hon
    rw [fetchAll,hc]
    exact ih (fun o ho => hn o (mem_cons_of_mem _ ho)) _ _

lemma PassAnswered.truncates_ok : ∃ ms es, h.fetchAndEmitTruncateEvents an.truncates = (ms,.ok es) := by
  obtain ⟨rows,hr⟩ := ha.truncates
  rw [fetchAndEmitTruncateEvents,hr,ha.marked]
  cases h.captureTruncateEvents with
  | false => exact ⟨[],[],rfl⟩
  | true =>
    cases rows with
    | nil => exact ⟨[],[],rfl⟩
    | cons => exact ⟨_,_,rfl⟩
end
/-- The row is behind the stream or in its buffer. -/
def Consumed (h : SqlServerStreamHandle) (c : SqlServerRawChange) : Prop :=
  Behind h c ∨ h.windowBuffer ≠ [] ∧ c.startLsn ≤ h.lsnEnd ∧ ∀ cut, h.pendingCursor = some cut → c.rank ≤ cut.rank

variable (T) in
open Classical in
/-- The number of rows the stream has not come to. -/
noncomputable def left (h : SqlServerStreamHandle) : ℕ :=
  (h.metas.flatMap fun captured => (T.changes captured).map (captured,·)).countP fun change =>
    decide ¬Consumed h change.2

variable (T) in
/-- The rows to come, whether the window has reached an LSN, and what is buffered. -/
noncomputable def progress (lsn : ℕ) (h : SqlServerStreamHandle) : ℕ ×ₗ ℕ ×ₗ ℕ :=
  toLex (left T h,toLex (if lsn ≤ h.lsnEnd then 0 else 1,h.windowBuffer.length))

open Classical in
lemma countP_left_le (hs : ∀ c, Consumed h c → Consumed h' c)
    (rows : List (CaptureInstanceMeta × SqlServerRawChange)) :
    rows.countP (fun ch => decide ¬Consumed h' ch.2) ≤ rows.countP (fun ch => decide ¬Consumed h ch.2) := by
  refine countP_mono_left fun ch _ hl => ?_
  rw [decide_eq_true_eq] at hl ⊢
  exact fun hc => hl (hs ch.2 hc)

lemma left_le (hm : h'.metas = h.metas) (hs : ∀ c, Consumed h c → Consumed h' c) :
    left T h' ≤ left T h := by
  rw [left,left,hm]
  exact countP_left_le hs _

variable {captured : CaptureInstanceMeta} {r : Except Error (List Event)}
  {Q : List Event → Prop} {pa : List PassAnswer} {s' : StreamSession}

lemma left_lt (hm : h'.metas = h.metas) (hsu : ∀ c, Consumed h c → Consumed h' c)
    (hca : captured ∈ h.metas) {c : SqlServerRawChange} (hc : c ∈ T.changes captured)
    (hl : ¬Consumed h c) (hr : Consumed h' c) :
    left T h' < left T h := by
  rw [left,left,hm]
  have hme : (captured,c) ∈ h.metas.flatMap fun captured =>
      (T.changes captured).map (captured,·) :=
    mem_flatMap.mpr ⟨captured,hca,mem_map.mpr ⟨c,hc,rfl⟩⟩
  obtain ⟨fr,re,hs⟩ := append_of_mem hme
  have hf := countP_left_le hsu fr
  have hre := countP_left_le hsu re
  rw [hs,countP_append,countP_append,countP_cons_of_neg (by simpa using hr),countP_cons_of_pos (by simpa using hl)]
  omega

lemma progress_lt_of_left (hl : left T h' < left T h) : progress T lsn h' < progress T lsn h := by
  rw [progress,progress,Prod.Lex.toLex_lt_toLex]
  exact Or.inl hl

lemma progress_lt_of_window (hl : left T h' ≤ left T h) (hb : h.lsnEnd < lsn) (hr : lsn ≤ h'.lsnEnd) :
    progress T lsn h' < progress T lsn h := by
  rcases hl.lt_or_eq with hlt | he
  · exact progress_lt_of_left hlt
  · rw [progress,progress,Prod.Lex.toLex_lt_toLex,Prod.Lex.toLex_lt_toLex,if_pos hr,if_neg (by omega)]
    exact Or.inr ⟨he,Or.inl Nat.zero_lt_one⟩

lemma progress_lt_of_buffer (hl : left T h' ≤ left T h) (hr : lsn ≤ h.lsnEnd → lsn ≤ h'.lsnEnd)
    (hbu : h'.windowBuffer.length < h.windowBuffer.length) :
    progress T lsn h' < progress T lsn h := by
  by_cases ha : lsn ≤ h'.lsnEnd
  · by_cases hb : lsn ≤ h.lsnEnd
    · rcases hl.lt_or_eq with hlt | he
      · exact progress_lt_of_left hlt
      · rw [progress,progress,Prod.Lex.toLex_lt_toLex,Prod.Lex.toLex_lt_toLex,if_pos ha,if_pos hb]
        exact Or.inr ⟨he,Or.inr ⟨rfl,hbu⟩⟩
    · exact progress_lt_of_window hl (by omega) ha
  · have hb : ¬lsn ≤ h.lsnEnd := fun hle => ha (hr hle)
    rcases hl.lt_or_eq with hlt | he
    · exact progress_lt_of_left hlt
    · rw [progress,progress,Prod.Lex.toLex_lt_toLex,Prod.Lex.toLex_lt_toLex,if_neg ha,if_neg hb]
      exact Or.inr ⟨he,Or.inr ⟨rfl,hbu⟩⟩

lemma drainPage_consumes {an : Except Error (ℕ × ℕ)} (hpl : Placed ori h)
    (hw : h.lsnStart ≤ h.lsnEnd) (hans : AnswersAdvance h an)
    (han : ∃ ic har, an = .ok (ic,har) ∧ lsn ≤ har) :
    (∀ c, (Behind h c ∨ c.startLsn ≤ h.lsnEnd ∧ ∀ cut, h.pendingCursor = some cut → c.rank ≤ cut.rank) →
      Consumed (h.drainPage an).1 c) ∧
    (lsn ≤ h.lsnEnd → lsn ≤ (h.drainPage an).1.lsnEnd) ∧
    (h.drainPage an).1.metas = h.metas ∧
    (0 < h.maxEventsPerPoll → h.windowBuffer ≠ [] →
      (h.drainPage an).1.windowBuffer.length < h.windowBuffer.length) := by
  have ho := drainPage_outcome h an
  generalize h.drainPage an = out at ho ⊢
  cases ho with
  | kept hm =>
    refine ⟨fun c hc => ?_,id,rfl,fun hlimit hn => ?_⟩
    · rcases hc with hb | ⟨hle,hcut⟩
      · exact Or.inl hb
      · exact Or.inr ⟨hm,hle,hcut⟩
    · have hl := length_pos_of_ne_nil hn
      simp only [length_drop]
      omega
  | resumed cut hp =>
    refine ⟨fun c hc => Or.inl ?_,id,rfl,fun _ hn => length_pos_of_ne_nil hn⟩
    rcases hc with (hlt | ⟨cu,hcu,hle⟩) | ⟨_,hcut⟩
    · exact Or.inl hlt
    · exact Or.inr ⟨cut,rfl,hle.trans (hpl.pending_past cut cu hp hcu)⟩
    · exact Or.inr ⟨cut,rfl,hcut cut hp⟩
  | advanced ic har hp ha =>
    subst ha
    obtain ⟨_,_,he,hma⟩ := han
    cases he
    refine ⟨fun c hc => Or.inl ?_,fun _ => hma,rfl,fun _ hn => length_pos_of_ne_nil hn⟩
    refine (hpl.behind_advance hans rfl rfl c).mpr ?_
    rcases hc with hb | ⟨hle,_⟩
    · exact Or.inl hb
    · exact Or.inr ⟨hw,hle⟩
  | failed e hp ha =>
    obtain ⟨_,_,he,_⟩ := han
    cases ha.symm.trans he

/-- A pass that is answered brings the stream on, if the window has not reached the LSN without
changes. -/
theorem readPass_progress (hn : ∀ captured ∈ ori.metas, validateCaptureInstanceName captured.captureInstance = .ok ())
    (hr : Rests ori s.handle) (hbu : s.handle.windowBuffer = [])
    (hanswers : AnswersPass T s an) (han : PassAnswered lsn an)
    (hpa : ∀ f, s.handle.fetchAll an.fetch 0 s.handle.metas ⟨none,[]⟩ = .ok f → f.flat = [] → s.handle.lsnEnd < lsn) :
    progress T lsn (readPass s an).1.handle < progress T lsn s.handle := by
  have hpl := hr.toPlaced
  have hb : ∀ c, Consumed s.handle c → Behind s.handle c := by
    rintro c (hb | ⟨hne,_⟩)
    · exact hb
    · exact absurd hbu hne
  obtain ⟨fs,hfe⟩ := han.fetchAll_ok s.handle (hpl.metas ▸ hn : ∀ captured ∈ s.handle.metas, _) 0 ⟨none,[]⟩
  obtain ⟨marked₀,events₀,ht₀⟩ := han.truncates_ok s.handle
  obtain ⟨incremented₀,harvestedMax₀,ha₀,hma⟩ := han.advance
  have ho := hanswers.outcome hbu
  generalize readPass s an = out at ho ⊢
  cases ho with
  | fetchFailed e hf => cases hf.symm.trans hfe
  | truncatesFailed f ms e hf he ht => cases ht.symm.trans ht₀
  | advanceFailed f ms es e hf he ht ha =>
    cases ha.symm.trans ha₀
  | passed f ms es ic har hf he ht ha =>
    obtain ⟨rfl,rfl⟩ := Prod.mk.inj (Except.ok.inj (ha.symm.trans ha₀))
    have hi := hanswers.incremented ha
    rw [ha]
    simp only [advanceWindow,nextWindow_snd]
    refine progress_lt_of_window (left_le rfl fun c hc => Or.inl ?_) (hpa f hf he) hma
    exact (hpl.behind_advance hi rfl rfl c).mpr (Or.inl (hb c hc))
  | fillFailed f bs cs ms e hf hfo hann ht =>
    cases ht.symm.trans ht₀
  | filled f bs cs ms es h hf hfo hann ht hh =>
    have hs := fetchAll_sound hanswers hf
    obtain ⟨hfi,hw,hans⟩ := hpl.filled hanswers hf hfo hh
    obtain ⟨hco,_,hm,_⟩ := drainPage_consumes hfi hw hans han.advance
    have hsa : ∀ c, Behind s.handle c → Behind h c := by
      rw [hh]
      exact fun c hc => hc
    obtain ⟨p,hp⟩ := exists_mem_of_ne_nil _ (hs.page_ne_nil hfo)
    obtain ⟨hca,hu⟩ := hs.sound p hp
    obtain ⟨hro,_,hend,_⟩ := mem_unread.mp hu
    refine progress_lt_of_left (left_lt (hm.trans (by rw [hh]))
      (fun c hc => hco c (Or.inl (hsa c (hb c hc)))) hca hro ?_ ?_)
    · exact fun hcon => unread_not_behind hu (hb p.2 hcon)
    · refine hco p.2 (Or.inr ?_)
      rw [hh]
      exact ⟨hend,(mem_page.mp hp).2⟩

/-- Passes that each bring the stream on bring it on together, unless the last returns what was
wanted. -/
theorem loop_progress {P : StreamSession → Prop} {C : StreamSession → PassAnswer → Prop}
    (hpa : ∀ s an, P s → s.handle.windowBuffer = [] → C s an → (∃ r, (readPass s an).2 = some r ∧ Q (eventsOf r)) ∨
        progress T lsn (readPass s an).1.handle < progress T lsn s.handle ∧ ((readPass s an).2 = none →
            P (readPass s an).1 ∧ (readPass s an).1.handle.windowBuffer = [])) (hs : P s)
    (hb : s.handle.windowBuffer = []) (hp : LoopMeets readPass C s pa)
    (hlo : loop readPass s pa = some (s',r)) :
    Q (eventsOf r) ∨ progress T lsn s'.handle < progress T lsn s.handle := by
  induction pa generalizing s with
  | nil => cases hlo
  | cons an pa ih =>
    have ho := hpa s an hs hb hp.1
    have hr := hp.2
    rw [loop] at hlo
    generalize readPass s an = out at ho hr hlo
    obtain ⟨s₁,_ | result₁⟩ := out
    · rcases ho with ⟨_,hn,_⟩ | ⟨hd,hk⟩
      · cases hn
      · obtain ⟨hs₁,hb₁⟩ := hk rfl
        exact (ih hs₁ hb₁ hr hlo).imp_right fun hl => hl.trans hd
    · cases hlo
      rcases ho with ⟨_,hso,hq⟩ | ⟨hd,_⟩
      · cases hso
        exact Or.inl hq
      · exact Or.inr hd

lemma loop_progress_change {rs : List Event} (hlimit : 0 < ori.maxEventsPerPoll)
    (hn : ∀ captured ∈ ori.metas, validateCaptureInstanceName captured.captureInstance = .ok ())
    (hr : ReadsOn T ori s.handle rs) (hb : s.handle.windowBuffer = [])
    {c : CaptureInstanceMeta × SqlServerRawChange} (hw : Wanted T ori c)
    (hm : ¬Announced ori.txIdFromSeqval c rs)
    (hpa : LoopMeets readPass (fun s a => AnswersPass T s a ∧ PassKept s a) s pa)
    (han : ∀ pass ∈ pa, PassAnswered c.2.startLsn pass)
    (hl : loop readPass s pa = some (s',r)) :
    progress T c.2.startLsn s'.handle < progress T c.2.startLsn s.handle := by
  refine (loop_progress (P := fun s => ReadsOn T ori s.handle rs) (Q := fun _ => False) ?_
    hr hb (loopMeets_and hpa (loopMeets_of_forall han s))
    hl).resolve_left id
  intro s an hs hb hpas
  obtain ⟨⟨ha,hk⟩,han⟩ := hpas
  have ho := readPass_readsOn hlimit hs hb ha hk
  refine Or.inr ⟨readPass_progress hn hs.rests hb ha han ?_,fun hno => ?_⟩
  · -- a window that has reached the change has it unread
    intro f hf he
    by_contra hre
    have hp := hs.rests.toPlaced
    exact hm (hs.passes c hw (hp.behind_of_empty (fetchAll_reads (hp.limit ▸ hlimit) ha hk.harvested hf) he hw
      (not_lt.mp hre)))
  · rw [hno] at ho
    exact ⟨by simpa using ho,(readPass_rests hs.rests hb ha).2 hno⟩

lemma find_of_mem (hd : (m.map (·.captureInstance)).Nodup) (hm : captured ∈ m) :
    m.find? (fun o => decide (o.captureInstance = captured.captureInstance)) = some captured := by
  induction m with
  | nil => cases hm
  | cons f m ih =>
    rw [map_cons,nodup_cons] at hd
    rcases mem_cons.mp hm with rfl | hl
    · simp
    · have hn : f.captureInstance ≠ captured.captureInstance := fun he =>
        hd.1 (he ▸ mem_map_of_mem hl)
      rw [List.find?_cons_of_neg (by simpa using hn)]
      exact ih hd.2 hl

lemma schemaEvents_same (ddlEvent : String → CaptureInstanceMeta → String → Event)
    (hd : (m.map (·.captureInstance)).Nodup) :
    computeSchemaEventsForMetaRefresh ddlEvent m m = [] := by
  rw [computeSchemaEventsForMetaRefresh,append_eq_nil_iff,map_eq_nil_iff]
  constructor
  · rw [filter_eq_nil_iff]
    intro captured hm
    simpa using ⟨captured,hm,rfl⟩
  · rw [flatMap_eq_nil_iff]
    intro captured hm
    simp [find_of_mem hd hm]

/-- A call that is answered brings the stream on, if its passes do. -/
theorem poll_progress {t : StreamTrace} {an : CallAnswer} (hlimit : 0 < ori.maxEventsPerPoll)
    (hd : (ori.metas.map (·.captureInstance)).Nodup)
    (hre : Rests ori t.session.handle) (han : AnswersCall T t.session an)
    (ha : CallAnswered lsn t.session an)
    (hread : t.session.handle.windowBuffer = [] → ∀ s' r, loop readPass t.session an.passes = some (s',r) →
        Q (eventsOf r) ∨ progress T lsn s'.handle < progress T lsn t.session.handle) :
    (∃ es, (t.poll an).returned = t.returned++es ∧ Q es) ∨
      progress T lsn (t.poll an).session.handle < progress T lsn t.session.handle := by
  obtain ⟨out,hca⟩ := Option.isSome_iff_exists.mp ha.returns
  have ho := nextEvents_outcome hre.requeued han.refresh
  rw [poll,hca]
  rw [hca] at ho
  generalize hso : some out = r at ho
  cases ho with
  | refreshFailed e hr =>
    obtain ⟨rf,hok⟩ := ha.refresh
    cases hr.symm.trans hok
  | schema rf es hr hch =>
    exact absurd (schemaEvents_same _ (hre.metas ▸ hd)) hch
  | drained rf hr hb =>
    cases hso
    obtain ⟨hco,hrea,hm,hs⟩ := drainPage_consumes hre.toPlaced (hre.window hb) han.settle ha.settle
    refine Or.inr (progress_lt_of_buffer (left_le hm fun c hc => hco c ?_) hrea (hs (hre.limit ▸ hlimit) hb))
    rcases hc with hbe | ⟨_,hw⟩
    · exact Or.inl hbe
    · exact Or.inr hw
  | read rf hr hb =>
    rw [← hso]
    exact (hread hb _ _ hso.symm).imp_left fun hq => ⟨_,rfl,hq⟩
end
lemma start_readsOn {T : ChangeTables} {cf : StreamConfig} {answers : StreamAnswers}
    {rf : Option Offset} {h : SqlServerStreamHandle}
    (hstart : startSqlserverStream cf answers rf = .ok h) : ReadsOn T h h [] := by
  have hs := startSqlserverStream_ok hstart
  refine ⟨⟨⟨rfl,rfl,rfl,rfl,hs.requeued,?_,by simp [hs.pending],by simp [hs.pending]⟩,
    fun _ => hs.pending,fun hn => absurd hs.buffer hn⟩,?_,
    fun hn => absurd hs.buffer hn⟩
  · intro c hc
    rw [startSqlserverStream_cursor hstart hc]
    exact hs.window
  · intro ch hw hb
    rcases hb with hl | ⟨c,hc,hle⟩
    · exact absurd hw.start (not_le.mpr hl)
    · exact absurd hle (not_le.mpr (hw.cursor c hc))

/-- The server's side of a call and what the code asks of it. -/
def Keeps (T : ChangeTables) (t : StreamTrace) (answer : CallAnswer) : Prop :=
  AnswersCall T t.session answer ∧ CallKept t.session answer
section
variable {T : ChangeTables} {co : StreamConfig} {answers : StreamAnswers}
  {r : Option Offset} {h : SqlServerStreamHandle}
  (hs : startSqlserverStream co answers r = .ok h)
  (hli : 1 ≤ co.maxEventsPerPoll)
include hs hli

lemma keeps_readsOn (t : StreamTrace) (a : CallAnswer)
    (hr : ReadsOn T h t.session.handle t.returned) (hk : Keeps T t a) :
    ReadsOn T h (t.poll a).session.handle (t.poll a).returned := by
  refine poll_readsOn ?_ hr hk.1 hk.2
  rw [(startSqlserverStream_ok hs).limit]
  exact hli

lemma run_readsOn {cs : List CallAnswer} (hc : Meets poll (Keeps T) (.start h) cs) :
    ReadsOn T h (run poll (.start h) cs).session.handle (run poll (.start h) cs).returned :=
  run_invariant_of_meets _ (P := fun t : StreamTrace => ReadsOn T h t.session.handle t.returned)
    (keeps_readsOn hs hli) (start_readsOn hs) hc

lemma eventually_announced (hna : ∀ captured ∈ h.metas, validateCaptureInstanceName captured.captureInstance = .ok ())
    (hd : (h.metas.map (·.captureInstance)).Nodup) {cs : ℕ → CallAnswer}
    (hc : ∀ n, Keeps T (states poll (.start h) cs n) (cs n))
    {c : CaptureInstanceMeta × SqlServerRawChange} (hw : Wanted T h c) {f : ℕ}
    (ha : ∀ n, f ≤ n → CallAnswered c.2.startLsn (states poll (.start h) cs n).session (cs n)) :
    ∃ n, Announced h.txIdFromSeqval c (states poll (.start h) cs n).returned := by
  have hp : 0 < h.maxEventsPerPoll := by
    rw [(startSqlserverStream_ok hs).limit]
    exact hli
  refine eventually_of_measure wellFounded_lt (fun t : StreamTrace => progress T c.2.startLsn t.session.handle)
    (Q := fun t : StreamTrace => Announced h.txIdFromSeqval c t.returned) f fun n hn hm _ => ?_
  have hr := states_invariant (P := fun t : StreamTrace => ReadsOn T h t.session.handle t.returned)
    (keeps_readsOn hs hli) (start_readsOn hs) hc n
  refine (poll_progress (Q := fun _ => False) hp hd hr.rests (hc n).1
    (ha n hn) fun hb s' result hl => Or.inr ?_).resolve_left (by simp)
  exact loop_progress_change hp hna hr hb hw hm (loopMeets_and ((hc n).1.passes hb) ((hc n).2 hb)) (ha n hn).passes hl
end
/-- In a run whose windows were harvested when they were read and whose cut pages came with their
truncates, no row is passed before it was returned, and every change at or above the start is returned
once the calls are answered and the capture job has come to it. -/
theorem every_change_returned (T : ChangeTables) {config : StreamConfig} {answers : StreamAnswers}
    {resumeFrom : Option Offset} {h : SqlServerStreamHandle}
    (hstart : startSqlserverStream config answers resumeFrom = .ok h)
    (hlimit : 1 ≤ config.maxEventsPerPoll)
    (hnames : ∀ captured ∈ h.metas, validateCaptureInstanceName captured.captureInstance = .ok ())
    (hdistinct : (h.metas.map (·.captureInstance)).Nodup) :
    (∀ calls, Meets StreamTrace.poll (Keeps T) (.start h) calls → ∀ change, Wanted T h change →
        Behind (run StreamTrace.poll (.start h) calls).session.handle change.2 →
          Announced h.txIdFromSeqval change (run StreamTrace.poll (.start h) calls).returned) ∧
    ∀ calls, (∀ n, Keeps T (states StreamTrace.poll (.start h) calls n) (calls n)) →
      ∀ change, Wanted T h change → (∃ first, ∀ n, first ≤ n → CallAnswered change.2.startLsn
          (states StreamTrace.poll (.start h) calls n).session (calls n)) →
        ∃ n, Announced h.txIdFromSeqval change (states StreamTrace.poll (.start h) calls n).returned := by
  constructor
  · intro calls hc
    exact (run_readsOn hstart hlimit hc).passes
  · rintro calls hc change hw ⟨first,ha⟩
    exact eventually_announced hstart hlimit hnames hdistinct hc hw ha

def ordersInstance : CaptureInstanceMeta := ⟨"dbo_orders","dbo","orders",["id"],["id"],0⟩
def insertAt (lsn : ℕ) : SqlServerRawChange := ⟨lsn,1,2,0,.obj []⟩

/-- One table with two inserts. -/
def twoOrders : ChangeTables where
  changes _ := [insertAt 5,insertAt 6]
  sorted _ := by decide
  operations _ := by decide

def ordersConfig : StreamConfig := ⟨true,fun _ _ => true,fun _ => 0,1⟩
def ordersAnswers (maxLsn : ℕ) : StreamAnswers := ⟨.ok [ordersInstance],⟨[.ok 5],.ok ()⟩,.ok maxLsn⟩

/-- The stream as it is started, with a window up to an LSN. -/
def ordersStream (lsnEnd : ℕ) : SqlServerStreamHandle :=
  ⟨true,fun _ _ => true,fun _ => 0,5,lsnEnd,none,none,[ordersInstance],[],1,[],[]⟩
lemma ordersStream_started : startSqlserverStream ordersConfig (ordersAnswers 6) none = .ok (ordersStream 6) := rfl
section
variable (lsnEnd : ℕ) (rows : List SqlServerRawChange) (truncates : Except Error (List TruncateEventRow))

def ordersPass : PassAnswer := ⟨lsnEnd,fun _ => .rows rows,⟨1,truncates,.ok ()⟩,.ok (lsnEnd+1,lsnEnd),true⟩

/-- A call of one pass, when the capture job stands at the window's end. -/
def ordersCall : CallAnswer := ⟨.ok [ordersInstance],fun _ => (0,0),
    .ok (lsnEnd+1,lsnEnd),[ordersPass lsnEnd rows truncates]⟩
end
section
variable {T : ChangeTables} {s : StreamSession}

lemma answersCall_single (hm : s.handle.metas = [ordersInstance])
    {clock : CaptureInstanceMeta → UInt64 × UInt64} {settle : Except Error (ℕ × ℕ)}
    {pass : PassAnswer} (hs : AnswersAdvance s.handle settle)
    (hf : s.handle.windowBuffer = [] → AnswersFetch T s.handle pass.harvested ordersInstance (pass.fetch 0))
    (ha : AnswersAdvance s.handle pass.advance) :
    AnswersCall T s ⟨.ok [ordersInstance],clock,settle,[pass]⟩ := by
  refine ⟨fun rf hr => ?_,hs,fun hb =>
    loopMeets_cons ⟨fun i captured hc => ?_,ha⟩ fun _ => trivial⟩
  · cases hr
    rw [hm]
    rfl
  · rw [hm] at hc
    cases i with
    | zero =>
      cases hc
      exact hf hb
    | succ => simp at hc

variable {l : ℕ} (h : s.handle.lsnEnd = l) {r : List SqlServerRawChange} {t : Except Error (List TruncateEventRow)}
include h

lemma ordersCall_answers (hm : s.handle.metas = [ordersInstance]) (hr : s.handle.windowBuffer = [] →
      r = ((s.handle.unread T ordersInstance).filter (·.startLsn ≤ l)).take s.handle.maxEventsPerPoll) :
    AnswersCall T s (ordersCall l r t) := by
  have ha : AnswersAdvance s.handle (.ok (l+1,l)) := by
    show l+1 = s.handle.lsnEnd+1
    rw [h]
  exact answersCall_single hm ha hr ha

lemma ordersCall_kept : CallKept s (ordersCall l r (.ok [])) := by
  intro _
  refine loopMeets_cons ⟨fun _ => h.le,fun f cut _ _ ms e => ?_⟩ fun _ => trivial
  cases ht : s.handle.captureTruncateEvents <;>
    simp [fetchAndEmitTruncateEvents,ordersPass,ht]
end
/-- The inserts are read in two pages, and then nothing. -/
def ordersCalls : ℕ → CallAnswer
  | 0 => ordersCall 6 [insertAt 5] (.ok [])
  | 1 => ordersCall 6 [insertAt 6] (.ok [])
  | _ => ordersCall 6 [] (.ok [])

/-- The stream after the window was passed. -/
def ordersRead : StreamTrace := states StreamTrace.poll (.start (ordersStream 6)) ordersCalls 3

lemma ordersRead_stays (n : ℕ) : states poll (.start (ordersStream 6)) ordersCalls (n+3) = ordersRead := by
  induction n with
  | zero => rfl
  | succ n ih =>
    calc states poll (.start (ordersStream 6)) ordersCalls (n+3+1)
        = poll ordersRead (ordersCalls (n+3)) := by rw [← ih]; rfl
      _ = ordersRead := by rfl

lemma ordersCalls_keep (n : ℕ) : Keeps twoOrders (states poll (.start (ordersStream 6)) ordersCalls n)
      (ordersCalls n) := by
  match n with
  | 0 | 1 | 2 => exact ⟨ordersCall_answers rfl rfl fun _ => by decide +kernel,ordersCall_kept rfl⟩
  | n+3 =>
    rw [ordersRead_stays]
    exact ⟨ordersCall_answers rfl rfl fun _ => by decide +kernel,ordersCall_kept rfl⟩

lemma ordersCall_answered {s : StreamSession} {lsnEnd : ℕ} {rows : List SqlServerRawChange}
    (hr : (nextEvents s (ordersCall lsnEnd rows (.ok []))).isSome = true) :
    CallAnswered lsnEnd s (ordersCall lsnEnd rows (.ok [])) := by
  refine ⟨⟨_,rfl⟩,⟨_,lsnEnd,rfl,le_rfl⟩,fun pass hp => ?_,hr⟩
  obtain rfl := mem_singleton.mp hp
  exact ⟨fun i => ⟨rows,rfl⟩,⟨[],rfl⟩,rfl,_,lsnEnd,rfl,le_rfl⟩

lemma ordersCalls_answered (n : ℕ) : CallAnswered 6 (states poll (.start (ordersStream 6)) ordersCalls n).session
      (ordersCalls n) := by
  match n with
  | 0 | 1 | 2 => exact ordersCall_answered rfl
  | n+3 =>
    rw [ordersRead_stays]
    exact ordersCall_answered rfl

lemma orders_wanted {lsn : ℕ} (hi : insertAt lsn ∈ [insertAt 5,insertAt 6]) (hstart : 5 ≤ lsn)
    (lsnEnd : ℕ) : Wanted twoOrders (ordersStream lsnEnd) (ordersInstance,insertAt lsn) :=
  ⟨by simp [ordersStream],hi,Nat.zero_le _,rfl,hstart,by simp [ordersStream]⟩

theorem every_change_returned_sample : ∃ n, Announced (ordersStream 6).txIdFromSeqval (ordersInstance,insertAt 6)
      (states StreamTrace.poll (.start (ordersStream 6)) ordersCalls n).returned :=
  (every_change_returned twoOrders ordersStream_started (by decide) (by decide +kernel) (by decide)).2
    ordersCalls ordersCalls_keep _ (orders_wanted (by decide) (by decide) 6)
    ⟨0,fun n _ => ordersCalls_answered n⟩

/-- The truncates of the first page cannot be read. -/
def failingTruncates : List CallAnswer :=
  [ordersCall 6 [insertAt 5] (.error (.sourceError "")),ordersCall 6 [] (.ok [])]

/-- The first window is read before the server has harvested it. -/
def earlyCalls : List CallAnswer :=
  [⟨.ok [ordersInstance],fun _ => (0,0),.error (.sourceError ""),
    [⟨4,fun _ => .rows [],⟨1,.ok [],.ok ()⟩,.ok (6,6),true⟩]⟩]

instance (tx : String → UInt64) (change : CaptureInstanceMeta × SqlServerRawChange) (e : Event) :
    Decidable (Announces tx change e) := by
  unfold Announces
  infer_instance

instance (tx : String → UInt64) (change : CaptureInstanceMeta × SqlServerRawChange) (events : List Event) :
    Decidable (Announced tx change events) := by
  unfold Announced
  infer_instance

/-- The stream passes a row that was cut off when the page's truncates could not be read.  A stream
started past the harvested maximum passes its first LSN. -/
theorem cut_row_skipped : startSqlserverStream ordersConfig (ordersAnswers 6) none = .ok (ordersStream 6) ∧
      Meets StreamTrace.poll (fun t answer => AnswersCall twoOrders t.session answer)
        (.start (ordersStream 6)) failingTruncates ∧
      Wanted twoOrders (ordersStream 6) (ordersInstance,insertAt 6) ∧
      Behind (run StreamTrace.poll (.start (ordersStream 6)) failingTruncates).session.handle (insertAt 6) ∧
      ¬Announced (ordersStream 6).txIdFromSeqval (ordersInstance,insertAt 6) (run StreamTrace.poll (.start (ordersStream 6))
        failingTruncates).returned ∧
      startSqlserverStream ordersConfig (ordersAnswers 4) none = .ok (ordersStream 5) ∧
      Meets StreamTrace.poll (fun t answer => AnswersCall twoOrders t.session answer)
        (.start (ordersStream 5)) earlyCalls ∧
      Wanted twoOrders (ordersStream 5) (ordersInstance,insertAt 5) ∧
      Behind (run StreamTrace.poll (.start (ordersStream 5)) earlyCalls).session.handle (insertAt 5) ∧
      ¬Announced (ordersStream 5).txIdFromSeqval (ordersInstance,insertAt 5) (run StreamTrace.poll (.start (ordersStream 5))
        earlyCalls).returned := by
  refine ⟨ordersStream_started,⟨?_,?_,trivial⟩,orders_wanted (by decide) (by decide) 6,
    Or.inl (by decide +kernel),by decide +kernel,rfl,⟨?_,trivial⟩,orders_wanted (by decide) (by decide) 5,
    Or.inl (by decide +kernel),by decide +kernel⟩
  · exact ordersCall_answers rfl rfl fun _ => by decide +kernel
  · exact ordersCall_answers rfl rfl fun hb => absurd hb (by decide +kernel)
  · exact answersCall_single rfl trivial (fun _ => rfl) rfl
end Rustcdc.Sqlserver
