import Rustcdc.Source.Sqlserver.Order

/-! A stream started from a recorded position.  What the first stream had gone past it had returned, so
that a change past the last one it returned is not behind the position, and the second stream returns
it. -/
namespace Rustcdc.Sqlserver
open List Machine SqlServerCdcCursor StreamTrace
section
def isRowChange (e : Event) : Bool :=
  match e.op with
  | .insert | .update | .delete => true
  | _ => false
def lastChange (events : List Event) : Option Event := (events.filter isRowChange).getLast?

/-- The last change returned is not below an LSN. -/
def Reaches (events : List Event) (lsn : ℕ) : Prop :=
  ∃ e, lastChange events = some e ∧ lsnBytesToHex lsn ≤ e.source.offset

variable {e : Event} {m : List Event}

lemma Announces.isRowChange {tx : String → UInt64} {c : CaptureInstanceMeta × SqlServerRawChange}
    (h : Announces tx c e) : isRowChange e = true := by
  unfold Sqlserver.isRowChange
  rcases h.2.2.2.2 with ⟨_,ho,_⟩ | ⟨_,ho,_⟩ | ⟨_,ho,_⟩ <;> rw [ho]

variable {es : List Event}

lemma lastChange_mem (h : lastChange es = some e) : e ∈ es ∧ isRowChange e = true := mem_filter.mp (mem_of_getLast? h)
lemma lastChange_append (es m : List Event) : lastChange (es++m) = (lastChange m).or (lastChange es) := by
  rw [lastChange,filter_append,List.getLast?_append]
  rfl

lemma Reaches.append {lsn : ℕ} (h : Reaches es lsn)
    (hm : ∀ e ∈ m, isRowChange e = true → lsnBytesToHex lsn ≤ e.source.offset) :
    Reaches (es++m) lsn := by
  obtain ⟨l,hl,hle⟩ := h
  cases hn : lastChange m with
  | none => exact ⟨l,by rw [lastChange_append,hn,hl]; rfl,hle⟩
  | some e =>
    obtain ⟨he,hc⟩ := lastChange_mem hn
    exact ⟨e,by rw [lastChange_append,hn]; rfl,hm e he hc⟩

lemma reaches_of_sorted {lsn : ℕ} (hso : m.Pairwise offsetLE) (he : e ∈ m)
    (hc : isRowChange e = true) (hle : lsnBytesToHex lsn ≤ e.source.offset) :
    Reaches (es++m) lsn := by
  have hm : e ∈ m.filter isRowChange := mem_filter.mpr ⟨he,hc⟩
  obtain ⟨fr,last,hs⟩ : ∃ fr last, m.filter isRowChange = fr++[last] :=
    ⟨_,_,(dropLast_append_getLast (ne_nil_of_mem hm)).symm⟩
  have hl : lastChange m = some last := by
    rw [lastChange,hs,List.getLast?_concat]
  refine ⟨last,by rw [lastChange_append,hl]; rfl,?_⟩
  have hf := hso.filter isRowChange
  rw [hs,pairwise_append] at hf
  rw [hs,mem_append,mem_singleton] at hm
  rcases hm with hfr | rfl
  · exact String.le_trans hle (hf.2.2 e hfr last mem_cons_self)
  · exact hle
end
section
variable (T : ChangeTables) (origin : SqlServerStreamHandle)

/-- What is behind the stream does not go past the last change it returned. -/
structure Trails (h : SqlServerStreamHandle) (returned : List Event) : Prop where
  cursor : ∀ cursor, h.cursor = some cursor → CursorFits cursor
  pending : ∀ cut, h.pendingCursor = some cut → CursorFits cut
  texts : ∀ e ∈ returned++h.windowBuffer, isRowChange e = true → ∃ lsn < lsnBound, e.source.offset = lsnBytesToHex lsn
  sorted : h.windowBuffer.Pairwise offsetLE
  behind : ∀ change, Wanted T origin change → Behind h change.2 → Reaches returned change.2.startLsn
  ahead : ∀ change, Wanted T origin change → Behind h change.2 → ∀ e ∈ h.windowBuffer,
    isRowChange e = true → lsnBytesToHex change.2.startLsn ≤ e.source.offset

/-- The last change of the buffer is not below what the window has up to the parked cursor. -/
def TrailsBuffer (h : SqlServerStreamHandle) (returned : List Event) : Prop :=
  ∀ change, Wanted T origin change → change.2.startLsn ≤ h.lsnEnd →
    (∀ cut, h.pendingCursor = some cut → change.2.rank ≤ cut.rank) →
      Reaches (returned++h.windowBuffer) change.2.startLsn

variable {T origin} {returned : List Event} {h : SqlServerStreamHandle}

lemma Trails.drain {a : Except Error (ℕ × ℕ)} (hpl : Placed origin h)
    (han : AnswersAdvance h a) (ht : Trails T origin h returned)
    (hbu : TrailsBuffer T origin h returned) :
    Trails T origin (h.drainPage a).1 (returned++eventsOf (h.drainPage a).2) ∧
      ((h.drainPage a).1.windowBuffer ≠ [] → TrailsBuffer T origin (h.drainPage a).1
        (returned++eventsOf (h.drainPage a).2)) := by
  have hr : ∀ c, Wanted T origin c → Behind h c.2 → Reaches (returned++h.windowBuffer) c.2.startLsn := fun c hw hb =>
    (ht.behind c hw hb).append (ht.ahead c hw hb)
  have ho := drainPage_outcome h a
  generalize h.drainPage a = out at ho ⊢
  cases ho with
  | kept =>
    have hs : returned++h.windowBuffer.take h.maxEventsPerPoll++
        h.windowBuffer.drop h.maxEventsPerPoll = returned++h.windowBuffer := by
      rw [append_assoc,take_append_drop]
    refine ⟨⟨ht.cursor,ht.pending,?_,ht.sorted.sublist (drop_sublist _ _),?_,?_⟩,fun _ c hw hle hcu => ?_⟩
    · exact hs ▸ ht.texts
    · intro c hw hb
      exact (ht.behind c hw hb).append fun e he =>
        ht.ahead c hw hb e (mem_of_mem_take he)
    · intro c hw hb e he
      exact ht.ahead c hw hb e (mem_of_mem_drop he)
    · exact hs ▸ hbu c hw hle hcu
  | resumed cut hp =>
    refine ⟨⟨?_,by simp,by simpa [eventsOf] using ht.texts,List.Pairwise.nil,?_,by simp⟩,fun hn => absurd rfl hn⟩
    · intro cursor hc
      exact ht.pending cursor (hp.trans hc)
    · intro c hw hb
      rcases hb with hst | ⟨cursor,hc,hle⟩
      · exact hr c hw (Or.inl hst)
      · obtain rfl : cut = cursor := Option.some.inj hc
        have hl := lsn_le_of_rank_le hle
        refine hbu c hw (hl.trans (hpl.pending_le cut hp)) ?_
        intro cut' hcu'
        obtain rfl : cut = cut' := Option.some.inj (hp.symm.trans hcu')
        exact hle
  | advanced ic hm hp ha =>
    subst ha
    refine ⟨⟨by simp,by simp,by simpa [eventsOf] using ht.texts,List.Pairwise.nil,?_,by simp⟩,fun hn => absurd rfl hn⟩
    intro c hw hb
    rcases (hpl.behind_advance han rfl rfl c.2).mp hb with hbe | ⟨_,hle⟩
    · exact hr c hw hbe
    · exact hbu c hw hle (by simp [hp])
  | failed e =>
    refine ⟨⟨ht.cursor,ht.pending,fun e he => ?_,List.Pairwise.nil,?_,by simp⟩,fun hn => absurd rfl hn⟩
    · refine ht.texts e (mem_append_left _ ?_)
      simpa [eventsOf] using he
    · intro c hw hb
      simpa [eventsOf] using ht.behind c hw hb

variable {cs : List Event}

lemma page_events_sorted (ht : T.TenBytes) {f : Fetched} (hs : SoundPage T h f)
    {tableIsAllowed : Option String → String → Bool} {tx : String → UInt64}
    (han : List.Forall₂ (Announces tx) (f.page.filter (isAnnounced tableIsAllowed)) cs) :
    cs.Pairwise offsetLE := by
  have hbo : ∀ c ∈ f.page.filter (isAnnounced tableIsAllowed), c.2.startLsn < lsnBound := by
    intro c hc
    exact (ht c.1 c.2 (mem_unread.mp (hs.sound c (mem_filter.mp hc).1).2).1).1
  refine pairwise_of_forall₂ han ((page_sorted f).filter _) fun a ha b hb e e' he he' hl => ?_
  rw [offsetLE,he.1,he'.1]
  exact (lsnBytesToHex_le_iff (hbo a ha) (hbo b hb)).mpr (lsn_le_of_rank_le hl)

lemma mergeTruncates_sorted {buffer : List Event} (ts : List Event)
    (hs : buffer.Pairwise offsetLE) : (mergeTruncates buffer ts).Pairwise offsetLE := by
  by_cases hn : ts = []
  · rw [hn]
    exact hs
  · rw [mergeTruncates_eq _ _ hn]
    have : Std.Total offsetLE := ⟨fun a b => String.le_total a.source.offset b.source.offset⟩
    have : IsTrans Event offsetLE := ⟨fun a b c => String.le_trans⟩
    exact pairwise_insertionSort _ _

lemma truncates_not_rowChange {a : TruncateAnswer} {ms : List ℤ} {ev : List Event}
    (ho : h.fetchAndEmitTruncateEvents a = (ms,.ok ev)) :
    ∀ e ∈ ev, isRowChange e = false := by
  obtain ⟨kept,rfl,_⟩ := truncates_rows ho
  intro e he
  obtain ⟨row,_,rfl⟩ := mem_map.mp he
  rfl

lemma Trails.fill (hte : T.TenBytes) (hpl : Placed origin h)
    (ht : Trails T origin h returned) {f : Fetched} (hs : SoundPage T h f)
    (hr : ReadsPage T h f)
    {tx : String → UInt64} (han : List.Forall₂ (Announces tx) (f.page.filter (isAnnounced h.tableIsAllowed)) cs)
    (h' : SqlServerStreamHandle) (hst : h'.lsnStart = h.lsnStart)
    (hcu : h'.cursor = h.cursor) (hen : h'.lsnEnd = h.lsnEnd)
    (hpe : h'.pendingCursor = f.truncationCursor) (ts : List Event)
    (htr : ∀ e ∈ ts, isRowChange e = false)
    (hf : h'.windowBuffer = mergeTruncates cs ts) :
    Trails T origin h' returned ∧ TrailsBuffer T origin h' returned := by
  have hsa : ∀ c, Behind h' c ↔ Behind h c := fun c => by rw [Behind,Behind,hst,hcu]
  have hro : ∀ e ∈ h'.windowBuffer, isRowChange e = true → ∃ c ∈
      f.page.filter (isAnnounced h.tableIsAllowed), Announces tx c e := by
    intro e he hch
    rw [hf] at he
    rcases mem_mergeTruncates.mp he with hm | hm
    · exact forall₂_mem_right han hm
    · rw [htr e hm] at hch
      cases hch
  have hu : ∀ c ∈ f.page.filter (isAnnounced h.tableIsAllowed), c.2 ∈ h.unread T c.1 :=
    fun c hc => (hs.sound c (mem_filter.mp hc).1).2
  have hte' : ∀ ca c, c ∈ h.unread T ca → c.startLsn < lsnBound := fun ca c hc =>
    (hte ca c (mem_unread.mp hc).1).1
  have hso : h'.windowBuffer.Pairwise offsetLE := by
    rw [hf]
    exact mergeTruncates_sorted ts (page_events_sorted hte hs han)
  have hah : ∀ ch, Wanted T origin ch → Behind h ch.2 → ∀ e ∈ h'.windowBuffer,
      isRowChange e = true → lsnBytesToHex ch.2.startLsn ≤ e.source.offset := by
    intro ch hw hb e he hch
    obtain ⟨c,hc,ha⟩ := hro e he hch
    have hpa : Passed h (.change ch) := hb
    have hpr := hpa.precedes (hu c hc)
    rw [ha.1]
    exact (lsnBytesToHex_le_iff (hte ch.1 ch.2 hw.harvested).1 (hte' c.1 c.2 (hu c hc))).mpr hpr.1
  refine ⟨⟨?_,?_,?_,hso,?_,?_⟩,?_⟩
  · rw [hcu]
    exact ht.cursor
  · intro cut hcut
    rw [hpe] at hcut
    obtain ⟨p,hp,rfl⟩ := hs.attained cut hcut
    have hm := (mem_unread.mp (hs.sound p hp).2).1
    obtain ⟨hl,hse⟩ := hte p.1 p.2 hm
    refine ⟨hl,hse,?_⟩
    show -2^31 ≤ p.2.operation ∧ p.2.operation < 2^31
    rcases T.operations p.1 p.2 hm with h | h | h | h <;> omega
  · intro e he hch
    rcases mem_append.mp he with ho | hn
    · exact ht.texts e (mem_append_left _ ho) hch
    · obtain ⟨c,hc,ha⟩ := hro e hn hch
      exact ⟨c.2.startLsn,hte' c.1 c.2 (hu c hc),ha.1⟩
  · intro ch hw hb
    exact ht.behind ch hw ((hsa ch.2).mp hb)
  · intro ch hw hb
    exact hah ch hw ((hsa ch.2).mp hb)
  · intro ch hw hle hcut
    rw [hen] at hle
    rw [hpe] at hcut
    by_cases hb : Behind h ch.2
    · exact (ht.behind ch hw hb).append (hah ch hw hb)
    · obtain ⟨e,he,ha⟩ := announced_of_mem han (hpl.mem_page_of_wanted hr hw hle hcut hb)
      refine reaches_of_sorted hso ?_ ha.isRowChange ?_
      · rw [hf]
        exact mem_mergeTruncates.mpr (Or.inl he)
      · exact ha.1 ▸ String.le_refl _

variable (T origin) in
/-- The state between two calls, with the last change returned. -/
structure Recordable (h : SqlServerStreamHandle) (returned : List Event) : Prop where
  readsOn : ReadsOn T origin h returned
  trails : Trails T origin h returned
  buffer : h.windowBuffer ≠ [] → TrailsBuffer T origin h returned

lemma Trails.append_nil (ht : Trails T origin h returned) : Trails T origin h (returned++[]) := by
  rw [List.append_nil]
  exact ht

lemma Recordable.pass (hte : T.TenBytes) {s : StreamSession} {a : PassAnswer}
    (hl : 0 < origin.maxEventsPerPoll) (hre : Recordable T origin s.handle returned)
    (hb : s.handle.windowBuffer = []) (ha : AnswersPass T s a)
    (hk : PassKept s a) :
    Recordable T origin (readPass s a).1.handle (returned++((readPass s a).2.map eventsOf).getD []) := by
  have hr := readPass_readsOn hl hre.readsOn hb ha hk
  have hp := hre.readsOn.rests.toPlaced
  have ht := hre.trails
  have hrea : ∀ f, s.handle.fetchAll a.fetch 0 s.handle.metas ⟨none,[]⟩ = .ok f →
      ReadsPage T s.handle f := fun f hf =>
    fetchAll_reads (hp.limit ▸ hl) ha hk.harvested hf
  have ho := ha.outcome hb
  generalize readPass s a = out at hr ho ⊢
  cases ho with
  | fetchFailed => exact ⟨hr,ht.append_nil,fun hne => absurd hb hne⟩
  | truncatesFailed | advanceFailed =>
    exact ⟨hr,ht.append_nil,fun hne => absurd hb hne⟩
  | passed f ms ev ic hm hf hem hread hadv =>
    have hi := ha.incremented hadv
    have hn := truncates_not_rowChange hread
    rw [passed_events,hadv] at hr ⊢
    simp only [SqlServerStreamHandle.advanceWindow] at hr ⊢
    refine ⟨hr,⟨by simp,by simp,?_,?_,?_,?_⟩,fun hne => absurd hb hne⟩
    · intro e he hc
      rw [hb,append_nil] at he
      rcases mem_append.mp he with hol | hnew
      · exact ht.texts e (mem_append_left _ hol) hc
      · rw [hn e hnew] at hc
        cases hc
    · exact ht.sorted
    · intro c hw hbeh
      have hbe : Behind s.handle c.2 := by
        rcases (hp.behind_advance hi rfl rfl c.2).mp hbeh with
          hbe | ⟨_,hle⟩
        · exact hbe
        · exact hp.behind_of_empty (hrea f hf) hem hw hle
      refine (ht.behind c hw hbe).append fun e he hc => ?_
      rw [hn e he] at hc
      cases hc
    · intro c _ _ e he
      rw [hb] at he
      cases he
  | fillFailed f bs cs ms e hf hfo han hread =>
    have hwh := hk.uncut hf hread
    have hpe : s.handle.pendingCursor = f.truncationCursor := by
      rw [hwh]
      exact hre.readsOn.rests.settled hb
    have hfil := ht.fill hte hp (fetchAll_sound ha hf) (hrea f hf) han
      {s.handle with pendingUpdateBefores := bs, windowBuffer := cs} rfl rfl rfl
      hpe [] (by simp) rfl
    simp only [Option.map_some,Option.getD_some,eventsOf,append_nil] at hr ⊢
    exact ⟨hr,hfil.1,fun _ => hfil.2⟩
  | filled f bs cs ms ev h hf hfo han hread hh =>
    have hfil := ht.fill hte hp (fetchAll_sound ha hf) (hrea f hf) han h (by rw [hh]) (by rw [hh]) (by rw [hh])
      (by rw [hh]) ev (truncates_not_rowChange hread) (by rw [hh])
    obtain ⟨hfi,-,hans⟩ := hp.filled ha hf hfo hh
    obtain ⟨hd,hres⟩ := hfil.1.drain hfi hans hfil.2
    exact ⟨hr,hd,hres⟩

lemma Recordable.poll (ht : T.TenBytes) {t : StreamTrace} {a : CallAnswer} (hl : 0 < origin.maxEventsPerPoll)
    (hd : (origin.metas.map (·.captureInstance)).Nodup)
    (hr : Recordable T origin t.session.handle t.returned) (hk : Keeps T t a) :
    Recordable T origin (t.poll a).session.handle (t.poll a).returned := by
  have hre := poll_readsOn hl hr.readsOn hk.1 hk.2
  have hres := hr.readsOn.rests
  rw [StreamTrace.poll] at hre ⊢
  have ho := nextEvents_outcome hres.requeued hk.1.refresh
  cases hca : nextEvents t.session a with
  | none => exact hr
  | some r =>
    obtain ⟨s',r⟩ := r
    rw [hca] at ho hre
    generalize hou : some (s',r) = out at ho hre
    cases ho with
    | refreshFailed =>
      cases hou
      refine ⟨hre,hr.trails.append_nil,fun hn => ?_⟩
      simpa [eventsOf] using hr.buffer hn
    | schema rf ev href hc =>
      exact absurd (schemaEvents_same _ (hres.metas ▸ hd)) hc
    | drained rf href hb =>
      cases hou
      obtain ⟨hdr,hrest⟩ := hr.trails.drain hres.toPlaced hk.1.settle (hr.buffer hb)
      exact ⟨hre,hdr,hrest⟩
    | read rf href hb =>
      rw [← hou]
      refine loop_keeps (P := fun s returned => Recordable T origin s.handle returned) ?_ hr
        hb (loopMeets_and (hk.1.passes hb) (hk.2 hb)) hou.symm
      intro s pass hs hb hp
      exact ⟨hs.pass ht hl hb hp.1 hp.2,(readPass_rests hs.readsOn.rests hb hp.1).2⟩
end
/-- A position recorded of a stream: its own, or that of the last change it returned. -/
def Records (t : StreamTrace) (position : Offset) : Prop := position = t.session.handle.savedPosition ∨
    ∃ e incremental, lastChange t.returned = some e ∧ position = .sqlserver e.source.offset incremental

variable {position : Offset} {h : SqlServerStreamHandle} {answers : StreamAnswers} {config : StreamConfig}

lemma resumed_start (hst : startSqlserverStream config answers (some position) = .ok h) :
    resumeLsn position = .ok h.lsnStart ∧ h.cursor = resumeCursor (some position) := by
  have hs := startSqlserverStream_ok hst
  exact ⟨startLsn_ok hs.start,hs.cursor⟩

lemma resumeLsn_text {text : String} {st : ℕ} (hp : position = .generic "sqlserver" text ∨
      ∃ inc, position = .sqlserver text inc)
    (hs : resumeLsn position = .ok st) :
    lsnFromSourceOffset text = some st ∧ resumeCursor (some position) = decode text := by
  unfold resumeLsn at hs
  rcases hp with rfl | ⟨inc,rfl⟩ <;>
  · split at hs
    · cases hs
    · refine ⟨?_,rfl⟩
      simp only at hs
      split at hs
      · cases hs
      · rename_i lsn hl
        rw [hl,Except.ok.inj hs]

lemma resumeCursor_fits {rf : Option Offset} {cursor : SqlServerCdcCursor}
    (h : resumeCursor rf = some cursor) : CursorFits cursor := by
  cases rf with
  | none => cases h
  | some o =>
    cases o with
    | sqlserver | generic => exact decode_fits h
    | _ => cases h

/-- A change past the last one returned is not behind a position recorded then. -/
theorem Recordable.resumes {T : ChangeTables} {origin : SqlServerStreamHandle} (hte : T.TenBytes)
    {t : StreamTrace} (hr : Recordable T origin t.session.handle t.returned)
    (hpo : Records t position)
    (hs : startSqlserverStream config answers (some position) = .ok h)
    {c : CaptureInstanceMeta × SqlServerRawChange} (hw : Wanted T origin c)
    (hla : ∀ e, lastChange t.returned = some e → e.source.offset < lsnBytesToHex c.2.startLsn) :
    h.lsnStart ≤ c.2.startLsn ∧ ∀ cu, h.cursor = some cu → cu.rank < c.2.rank := by
  obtain ⟨hls,hc⟩ := resumed_start hs
  rcases hpo with rfl | ⟨e,inc,hlas,rfl⟩
  · have ha : ¬Behind t.session.handle c.2 := by
      intro hb
      obtain ⟨e,hlas,hle⟩ := hr.trails.behind c hw hb
      exact hle (hla e hlas)
    rw [Behind,not_or,not_exists,not_lt] at ha
    obtain ⟨ht,hd⟩ := resumeLsn_text (Or.inl rfl) hls
    replace hc := hc.trans hd
    cases hp : t.session.handle.cursor with
    | none =>
      simp only [hp] at ht hc
      rw [decode_hex] at hc
      rw [lsnFromSourceOffset_hex ht]
      exact ⟨ha.1,by simp [hc]⟩
    | some p =>
      simp only [hp] at ht hc
      rw [decode_encode (hr.trails.cursor p hp)] at hc
      have hpa : p.rank < c.2.rank := by
        have hn := ha.2 p
        rw [not_and,not_le] at hn
        exact hn hp
      have hl := startSqlserverStream_cursor hs hc
      refine ⟨?_,fun cu hso => ?_⟩
      · rw [← hl]
        exact lsn_le_of_rank_le hpa.le
      · rw [← Option.some.inj (hc.symm.trans hso)]
        exact hpa
  · obtain ⟨hm,hch⟩ := lastChange_mem hlas
    obtain ⟨lsn,hbo,ht⟩ := hr.trails.texts e (mem_append_left _ hm) hch
    obtain ⟨hre,hd⟩ := resumeLsn_text (Or.inr ⟨inc,rfl⟩) hls
    rw [hd,ht,decode_hex] at hc
    rw [ht] at hre
    rw [lsnFromSourceOffset_hex hre]
    refine ⟨?_,by simp [hc]⟩
    by_contra hg
    have hle := (lsnBytesToHex_le_iff (hte c.1 c.2 hw.harvested).1 hbo).mpr (not_le.mp hg).le
    have hlt := hla e hlas
    rw [ht] at hlt
    exact hle hlt

/-- A stream started from a position recorded of another one returns every change past the last change
that one returned, if the windows of both were harvested when they were read and their cut pages came
with their truncates. -/
theorem restart_skips_nothing (T : ChangeTables) (hten : T.TenBytes) {config : StreamConfig}
    {answers answers' : StreamAnswers} {resumeFrom : Option Offset} {h h' : SqlServerStreamHandle}
    (hstart : startSqlserverStream config answers resumeFrom = .ok h)
    (hlimit : 1 ≤ config.maxEventsPerPoll)
    (hnames : ∀ captured ∈ h.metas, validateCaptureInstanceName captured.captureInstance = .ok ())
    (hdistinct : (h.metas.map (·.captureInstance)).Nodup) {calls : List CallAnswer}
    (hcalls : Meets StreamTrace.poll (Keeps T) (.start h) calls) {position : Offset}
    (hposition : Records (run StreamTrace.poll (.start h) calls) position)
    (hrestart : startSqlserverStream config answers' (some position) = .ok h')
    (hmetas : answers'.metas = answers.metas) {calls' : ℕ → CallAnswer}
    (hcalls' : ∀ n, Keeps T (states StreamTrace.poll (.start h') calls' n) (calls' n))
    {change : CaptureInstanceMeta × SqlServerRawChange} (hwanted : Wanted T h change)
    (hlater : ∀ e, lastChange (run StreamTrace.poll (.start h) calls).returned = some e →
      e.source.offset < lsnBytesToHex change.2.startLsn)
    (hanswered : ∃ first, ∀ n, first ≤ n → CallAnswered change.2.startLsn
      (states StreamTrace.poll (.start h') calls' n).session (calls' n)) :
    ∃ n, Announced h'.txIdFromSeqval change (states StreamTrace.poll (.start h') calls' n).returned := by
  have hs := startSqlserverStream_ok hstart
  have hs' := startSqlserverStream_ok hrestart
  have hsa : h'.metas = h.metas := by
    have hl := hs'.metas
    rw [hmetas,hs.metas] at hl
    exact (Except.ok.inj hl).symm
  have hpo : 0 < h.maxEventsPerPoll := by
    rw [hs.limit]
    exact hlimit
  have hf : Recordable T h (StreamTrace.start h).session.handle (StreamTrace.start h).returned := by
    have hr := start_readsOn (T := T) hstart
    refine ⟨hr,⟨?_,?_,?_,?_,?_,?_⟩,fun hn => absurd hs.buffer hn⟩
    · intro cursor hso
      exact resumeCursor_fits (hs.cursor.symm.trans hso)
    · intro cut hc
      cases hs.pending.symm.trans hc
    · simp [StreamTrace.start,hs.buffer]
    · simp [StreamTrace.start,hs.buffer]
    · intro change hwanted hb
      obtain ⟨e,he,_⟩ := hr.passes change hwanted hb
      cases he
    · simp [StreamTrace.start,hs.buffer]
  have hre := run_invariant_of_meets _ (P := fun t : StreamTrace => Recordable T h t.session.handle t.returned)
    (fun t answer ht hk => ht.poll hten hpo hdistinct hk) hf hcalls
  obtain ⟨ha,hp⟩ := hre.resumes hten hposition hrestart hwanted hlater
  have hwanted' : Wanted T h' change := by
    refine ⟨hsa ▸ hwanted.captured,hwanted.harvested,hwanted.floor,?_,ha,hp⟩
    rw [hs'.allowed,← hs.allowed]
    exact hwanted.announced
  obtain ⟨first,hanswered⟩ := hanswered
  exact eventually_announced hrestart hlimit (hsa ▸ hnames) (hsa ▸ hdistinct) hcalls' hwanted' hanswered

/-- A table whose second insert comes with the LSN after the first window. -/
def laterOrder : ChangeTables where
  changes _ := [insertAt 5,insertAt 7]
  sorted _ := by decide
  operations _ := by decide

/-- The first insert is read, and then the rest of the window. -/
def firstOrder : List CallAnswer := [ordersCall 6 [insertAt 5] (.ok []),ordersCall 6 [] (.ok [])]

/-- The position after the window: the successor of its end. -/
def successor : Offset := .generic "sqlserver" (lsnBytesToHex 7)

/-- The stream restarted there, by the server's maximum then. -/
def restarted (lsnEnd : ℕ) : SqlServerStreamHandle := {ordersStream lsnEnd with lsnStart := 7}

/-- The second insert is read once it is harvested, and then nothing. -/
def restartedCalls : ℕ → CallAnswer
  | 0 => ordersCall 7 [insertAt 7] (.ok [])
  | _ => ordersCall 7 [] (.ok [])

lemma successor_start (maxLsn : ℕ) : startSqlserverStream ordersConfig (ordersAnswers maxLsn) (some successor) =
      .ok (restarted (if maxLsn < 7 then 7 else maxLsn)) := by
  have hl : startLsn (ordersAnswers maxLsn).start (some successor) = .ok 7 := by
    have hr : resumeLsn successor = .ok 7 := by
      have ho : lsnFromSourceOffset (lsnBytesToHex 7) = some 7 := by decide +kernel
      have ht : successor.sourceType = "sqlserver" := rfl
      unfold resumeLsn
      rw [if_neg (not_not.mpr ht)]
      simp only [successor,ho]
    rw [startLsn]
    simp only [hr]
    rfl
  have hc : resumeCursor (some successor) = none := decode_hex 7
  rw [startSqlserverStream,hl,hc]
  rfl

/-- The restarted stream after its window was passed. -/
def restartedRead : StreamTrace := states StreamTrace.poll (.start (restarted 7)) restartedCalls 2

lemma restartedRead_stays (n : ℕ) : states poll (.start (restarted 7)) restartedCalls (n+2) = restartedRead := by
  induction n with
  | zero => rfl
  | succ n ih =>
    calc states poll (.start (restarted 7)) restartedCalls (n+2+1)
        = poll restartedRead (restartedCalls (n+2)) := by rw [← ih]; rfl
      _ = restartedRead := by rfl

lemma restartedCalls_keep (n : ℕ) : Keeps laterOrder (states poll (.start (restarted 7)) restartedCalls n)
      (restartedCalls n) := by
  match n with
  | 0 | 1 => exact ⟨ordersCall_answers rfl rfl fun _ => by decide +kernel,ordersCall_kept rfl⟩
  | n+2 =>
    rw [restartedRead_stays]
    exact ⟨ordersCall_answers rfl rfl fun _ => by decide +kernel,ordersCall_kept rfl⟩

lemma restartedCalls_answered (n : ℕ) : CallAnswered 7 (states poll (.start (restarted 7)) restartedCalls n).session
      (restartedCalls n) := by
  match n with
  | 0 | 1 => exact ordersCall_answered rfl
  | n+2 =>
    rw [restartedRead_stays]
    exact ordersCall_answered rfl

lemma laterOrder_tenBytes : laterOrder.TenBytes := by
  have ha : ∀ c ∈ [insertAt 5,insertAt 7], c.startLsn < lsnBound ∧ c.seqval < lsnBound := by decide
  exact fun _ => ha
lemma laterOrder_wanted : Wanted laterOrder (ordersStream 6) (ordersInstance,insertAt 7) :=
  ⟨by simp [ordersStream],mem_cons_of_mem _ mem_cons_self,Nat.zero_le _,rfl,by decide,
    by simp [ordersStream]⟩
lemma firstOrder_answers : Meets poll (Keeps laterOrder) (.start (ordersStream 6)) firstOrder :=
  ⟨⟨ordersCall_answers rfl rfl fun _ => by decide +kernel,ordersCall_kept rfl⟩,
    ⟨ordersCall_answers rfl rfl fun _ => by decide +kernel,ordersCall_kept rfl⟩,trivial⟩
lemma successor_recorded : Records (run poll (.start (ordersStream 6)) firstOrder) successor :=
  Or.inl (by decide +kernel)

theorem restart_skips_nothing_sample : ∃ n, Announced (restarted 7).txIdFromSeqval (ordersInstance,insertAt 7)
      (states StreamTrace.poll (.start (restarted 7)) restartedCalls n).returned := by
  have hl : ∀ e, lastChange (run StreamTrace.poll (.start (ordersStream 6))
      firstOrder).returned = some e → e.source.offset < lsnBytesToHex 7 := by
    have hla : ∀ e ∈ lastChange (run StreamTrace.poll (.start (ordersStream 6))
      firstOrder).returned, e.source.offset < lsnBytesToHex 7 := by decide +kernel
    exact hla
  exact restart_skips_nothing laterOrder laterOrder_tenBytes ordersStream_started (by decide)
    (by decide +kernel) (by decide) firstOrder_answers successor_recorded (successor_start 7) rfl
    restartedCalls_keep laterOrder_wanted hl ⟨0,fun n _ => restartedCalls_answered n⟩

/-- The restarted stream polls before its first LSN is harvested. -/
def earlyRestart : List CallAnswer :=
  [⟨.ok [ordersInstance],fun _ => (0,0),.error (.sourceError ""),
    [⟨6,fun _ => .rows [],⟨1,.ok [],.ok ()⟩,.ok (8,7),true⟩]⟩]

/-- The position is the successor of the last LSN that was read, which the server does not have yet.
The restarted stream takes its first window for read when it polls, and passes the insert that comes
there. -/
theorem successor_skipped : startSqlserverStream ordersConfig (ordersAnswers 6) none = .ok (ordersStream 6) ∧
      Meets StreamTrace.poll (Keeps laterOrder) (.start (ordersStream 6)) firstOrder ∧
      Records (run StreamTrace.poll (.start (ordersStream 6)) firstOrder) successor ∧
      startSqlserverStream ordersConfig (ordersAnswers 6) (some successor) = .ok (restarted 7) ∧
      Meets StreamTrace.poll (fun t answer => AnswersCall laterOrder t.session answer)
        (.start (restarted 7)) earlyRestart ∧
      Wanted laterOrder (ordersStream 6) (ordersInstance,insertAt 7) ∧
      ¬Announced (ordersStream 6).txIdFromSeqval (ordersInstance,insertAt 7)
        (run StreamTrace.poll (.start (ordersStream 6)) firstOrder).returned ∧
      Behind (run StreamTrace.poll (.start (restarted 7)) earlyRestart).session.handle (insertAt 7) ∧
      ¬Announced (restarted 7).txIdFromSeqval (ordersInstance,insertAt 7)
        (run StreamTrace.poll (.start (restarted 7)) earlyRestart).returned :=
  ⟨ordersStream_started,firstOrder_answers,successor_recorded,successor_start 6,
    ⟨answersCall_single rfl trivial (fun _ => by rfl) rfl,trivial⟩,laterOrder_wanted,
    by decide +kernel,Or.inl (by decide +kernel),by decide +kernel⟩
end Rustcdc.Sqlserver
