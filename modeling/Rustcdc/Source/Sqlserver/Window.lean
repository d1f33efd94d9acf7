import Rustcdc.Source.Sqlserver.Stream
import Rustcdc.Lib.Paging

/-! What a pass of the SQL Server stream reads: the rows of its window past its cursor, up to the least
place at which an instance's page was cut. -/
namespace Rustcdc.Sqlserver
open List SqlServerCdcCursor SqlServerStreamHandle

/-- A row's place in the order the change tables are read in. -/
def SqlServerRawChange.rank (c : SqlServerRawChange) : ℕ ×ₗ ℕ ×ₗ ℤ := c.cursor.rank

variable {a b : SqlServerCdcCursor}

lemma SqlServerCdcCursor.rank_le_iff : a.rank ≤ b.rank ↔ a.lsn < b.lsn ∨ a.lsn = b.lsn ∧
      (a.seqval < b.seqval ∨ a.seqval = b.seqval ∧ a.operation ≤ b.operation) := by
  simp [rank,Prod.Lex.toLex_le_toLex]
lemma SqlServerCdcCursor.lsn_le_of_rank_le (h : a.rank ≤ b.rank) : a.lsn ≤ b.lsn := by
  rcases rank_le_iff.mp h with hl | ⟨he,_⟩ <;> omega
lemma SqlServerCdcCursor.rank_le_of_lsn_lt (h : a.lsn < b.lsn) : a.rank ≤ b.rank := rank_le_iff.mpr (Or.inl h)

lemma cursorOrdering_isLE : (cursorOrdering a b).isLE = true ↔ a.rank ≤ b.rank := by
  rw [rank_le_iff,cursorOrdering]
  rcases lt_trichotomy a.lsn b.lsn with h | h | h
  · simp [compare_lt_iff_lt.mpr h,h]
  · rw [compare_eq_iff_eq.mpr h,Ordering.eq_then]
    rcases lt_trichotomy a.seqval b.seqval with h₂ | h₂ | h₂
    · simp [compare_lt_iff_lt.mpr h₂,h,h₂]
    · simp [h,h₂,Ordering.isLE_iff_ne_gt,compare_gt_iff_gt]
    · simp [compare_gt_iff_gt.mpr h₂,h,h₂.ne',h₂.not_gt]
  · simp [compare_gt_iff_gt.mpr h,h.ne',h.not_gt]

/-- The change tables, with everything that is ever harvested into them. -/
structure ChangeTables where
  changes : CaptureInstanceMeta → List SqlServerRawChange
  sorted : ∀ captured, ((changes captured).map SqlServerRawChange.rank).Pairwise (· < ·)
  operations : ∀ captured, ∀ c ∈ changes captured,
    c.operation = 1 ∨ c.operation = 2 ∨ c.operation = 3 ∨ c.operation = 4
section
variable (T : ChangeTables)
section
variable (h : SqlServerStreamHandle)

/-- The rows of an instance that are in the window and past the cursor. -/
def SqlServerStreamHandle.unread (captured : CaptureInstanceMeta) : List SqlServerRawChange :=
  (T.changes captured).filter fun c => h.windowStart captured ≤ c.startLsn && c.startLsn ≤ h.lsnEnd &&
    Paging.past SqlServerRawChange.rank (h.cursor.map (·.rank)) c

/-- What the server may answer when an instance is read: the rows harvested by then, or that it cannot
serve the range, which it has purged or not come to. -/
def AnswersFetch (harvested : ℕ) (captured : CaptureInstanceMeta) : FetchAnswer → Prop
  | .rows rows =>
    rows = ((h.unread T captured).filter (·.startLsn ≤ harvested)).take h.maxEventsPerPoll
  | .windowError _ minLsnHex => harvested < h.lsnEnd ∨
      ∀ min, lsnHexToBytes minLsnHex = .ok min → h.windowStart captured < min
  | .failed _ => True

/-- What the server may answer when the window is moved on. -/
def AnswersAdvance : Except Error (ℕ × ℕ) → Prop
  | .ok (incremented,_) => incremented = h.lsnEnd+1
  | .error _ => True
end
structure AnswersPass (s : StreamSession) (answer : PassAnswer) : Prop where
  fetch : ∀ i captured, s.handle.metas[i]? = some captured →
    AnswersFetch T s.handle answer.harvested captured (answer.fetch i)
  advance : AnswersAdvance s.handle answer.advance

variable {T} {captured : CaptureInstanceMeta} {f : Fetched} {h : SqlServerStreamHandle} {har : ℕ}

lemma mem_unread {c : SqlServerRawChange} : c ∈ h.unread T captured ↔ c ∈ T.changes captured ∧
      h.windowStart captured ≤ c.startLsn ∧ c.startLsn ≤ h.lsnEnd ∧
      ∀ cu, h.cursor = some cu → cu.rank < c.rank := by
  rw [unread,mem_filter]
  cases h.cursor with
  | none => simp [Paging.past]
  | some => simp [Paging.past,and_assoc]

lemma lsnStart_le_windowStart (h : SqlServerStreamHandle) (captured : CaptureInstanceMeta) :
    h.lsnStart ≤ h.windowStart captured := by
  rw [windowStart]
  split <;> omega

lemma windowStart_le {lsn : ℕ} (hs : h.lsnStart ≤ lsn) (hf : captured.captureFloor ≤ lsn) :
    h.windowStart captured ≤ lsn := by
  rw [windowStart]
  split <;> assumption

lemma unread_sorted (h : SqlServerStreamHandle) (captured : CaptureInstanceMeta) :
    ((h.unread T captured).map SqlServerRawChange.rank).Pairwise (· < ·) :=
  Paging.pairwise_filter (T.sorted captured) _

lemma unread_eq_nil (he : h.lsnEnd < h.windowStart captured) : h.unread T captured = [] := by
  rw [eq_nil_iff_forall_not_mem]
  intro c hc
  have hw := mem_unread.mp hc
  omega

variable {an : FetchAnswer} {metas : List CaptureInstanceMeta}
  {cs : List SqlServerRawChange} {s : StreamSession} {fe : ℕ → FetchAnswer}

/-- A fetch returns the server's rows, or nothing because the window is empty or not yet harvested. -/
lemma fetch_cases (hf : h.fetchChangesForCaptureInstance captured an = .ok cs) :
    (cs = [] ∧ (h.lsnEnd < h.windowStart captured ∨ ∃ m hex min, an = .windowError m hex ∧
      lsnHexToBytes hex = .ok min ∧ min ≤ h.windowStart captured ∧ h.windowStart captured ≤ h.lsnEnd)) ∨
    (h.windowStart captured ≤ h.lsnEnd ∧ an = .rows cs) := by
  have hs := lsnStart_le_windowStart h captured
  unfold fetchChangesForCaptureInstance at hf
  split at hf
  · cases hf
    exact .inl ⟨rfl,.inl (by omega)⟩
  · split at hf
    · cases hf
    · split at hf
      · cases hf
        exact .inl ⟨rfl,.inl ‹_›⟩
      · split at hf
        · cases hf
          exact .inr ⟨by omega,rfl⟩
        · rename_i m hex
          unfold classifyCdcWindowError at hf
          split at hf
          · cases hf
          · split at hf
            · cases hf
            · cases hf
              exact .inl ⟨rfl,.inr ⟨m,hex,_,rfl,‹_›,by omega,by omega⟩⟩
        · cases hf

lemma fetch_eq (ha : AnswersFetch T h har captured an) (hh : h.lsnStart ≤ h.lsnEnd → h.lsnEnd ≤ har)
    (hf : h.fetchChangesForCaptureInstance captured an = .ok cs) :
    cs = (h.unread T captured).take h.maxEventsPerPoll := by
  have hs := lsnStart_le_windowStart h captured
  rcases fetch_cases hf with ⟨rfl,he | ⟨m,hex,min,rfl,hm,hl,hw⟩⟩ | ⟨hw,rfl⟩
  · rw [unread_eq_nil he,take_nil]
  · -- the range was harvested, so that the server has purged it
    have hal := hh (by omega)
    rcases ha with hn | hp
    · omega
    · have := hp min hm
      omega
  · have hal := hh (by omega)
    have hr : cs = _ := ha
    have hk : (h.unread T captured).filter (·.startLsn ≤ har) = h.unread T captured := by
      rw [filter_eq_self]
      intro c hc
      have hw := mem_unread.mp hc
      exact decide_eq_true (by omega)
    rw [hr,hk]

def fetched (h : SqlServerStreamHandle) (pages : CaptureInstanceMeta → List SqlServerRawChange)
    (metas : List CaptureInstanceMeta) (f : Fetched) : Fetched :=
  metas.foldl (fun f captured => f.add h.maxEventsPerPoll captured (pages captured)) f

lemma fetchAll_eq {ps : CaptureInstanceMeta → List SqlServerRawChange} {k : ℕ}
    (hp : ∀ i captured, metas[i]? = some captured → ∀ cs,
      h.fetchChangesForCaptureInstance captured (fe (k+i)) = .ok cs →
        cs = ps captured) {g : Fetched} (hf : h.fetchAll fe k metas f = .ok g) :
    g = fetched h ps metas f := by
  induction metas generalizing k f with
  | nil => exact (Except.ok.inj hf).symm
  | cons captured metas ih =>
    rw [fetchAll] at hf
    cases hon : h.fetchChangesForCaptureInstance captured (fe k) with
    | error => simp [hon] at hf
    | ok cs =>
      simp only [hon] at hf
      rw [hp 0 captured rfl cs hon] at hf
      refine ih (fun i o ho => ?_) hf
      rw [Nat.add_assoc,Nat.add_comm 1 i]
      exact hp (i+1) o ho
section
variable {h : SqlServerStreamHandle} {pa : CaptureInstanceMeta → List SqlServerRawChange}

lemma fetched_flat (metas : List CaptureInstanceMeta) (f : Fetched) : (fetched h pa metas f).flat =
      f.flat++metas.flatMap fun captured => (pa captured).map (captured,·) := by
  induction metas generalizing f with
  | nil => simp [fetched]
  | cons captured metas ih =>
    have hr := ih (f.add h.maxEventsPerPoll captured (pa captured))
    simpa [fetched,Fetched.add] using hr

lemma leastCursor_le_candidate (ex : Option SqlServerCdcCursor)
    (candidate : SqlServerCdcCursor) : (leastCursor ex candidate).rank ≤ candidate.rank := by
  cases ex with
  | none => exact le_rfl
  | some ex =>
    rw [leastCursor]
    split
    · exact cursorOrdering_isLE.mp ‹_›
    · exact le_rfl

lemma leastCursor_le_existing (ex candidate : SqlServerCdcCursor) :
    (leastCursor (some ex) candidate).rank ≤ ex.rank := by
  rw [leastCursor]
  split_ifs with hg
  · exact le_rfl
  · rw [cursorOrdering_isLE,not_le] at hg
    exact hg.le

lemma leastCursor_cases (ex : Option SqlServerCdcCursor) (candidate : SqlServerCdcCursor) :
    ex = some (leastCursor ex candidate) ∨ leastCursor ex candidate = candidate := by
  cases ex with
  | none => exact Or.inr rfl
  | some =>
    rw [leastCursor]
    split
    · exact Or.inl rfl
    · exact Or.inr rfl

lemma add_cut_cases (f : Fetched) (k : ℕ) (captured : CaptureInstanceMeta) (cs : List SqlServerRawChange) :
    ((f.add k captured cs).truncationCursor = f.truncationCursor ∧ (cs.length < k ∨ cs = [])) ∨
    ∃ l, k ≤ cs.length ∧ cs.getLast? = some l ∧
      (f.add k captured cs).truncationCursor = some (leastCursor f.truncationCursor l.cursor) := by
  rw [Fetched.add]
  by_cases hf : k ≤ cs.length
  · cases hl : cs.getLast? with
    | none =>
      rw [List.getLast?_eq_none_iff] at hl
      exact Or.inl ⟨by simp [hf],Or.inr hl⟩
    | some l => exact Or.inr ⟨l,hf,rfl,by simp [hf]⟩
  · exact Or.inl ⟨by simp [hf],Or.inl (by omega)⟩

lemma fetched_cut_le (metas : List CaptureInstanceMeta) {f : Fetched} {cursor : SqlServerCdcCursor}
    (hc : f.truncationCursor = some cursor) :
    ∃ cut, (fetched h pa metas f).truncationCursor = some cut ∧ cut.rank ≤ cursor.rank := by
  induction metas generalizing f cursor with
  | nil => exact ⟨cursor,hc,le_rfl⟩
  | cons captured metas ih =>
    rcases add_cut_cases f h.maxEventsPerPoll captured (pa captured) with
      ⟨hs,_⟩ | ⟨last,_,_,hl⟩
    · exact ih (hs.trans hc)
    · obtain ⟨cut,he,hle⟩ := ih hl
      rw [hc] at hle
      exact ⟨cut,he,hle.trans (leastCursor_le_existing _ _)⟩

lemma fetched_cut_le_last {metas : List CaptureInstanceMeta} {captured : CaptureInstanceMeta}
    (hm : captured ∈ metas) (hf : h.maxEventsPerPoll ≤ (pa captured).length)
    {last : SqlServerRawChange} (hla : (pa captured).getLast? = some last) (f : Fetched) :
    ∃ cut, (fetched h pa metas f).truncationCursor = some cut ∧ cut.rank ≤ last.rank := by
  induction metas generalizing f with
  | nil => cases hm
  | cons other metas ih =>
    rcases mem_cons.mp hm with rfl | hl
    · rcases add_cut_cases f h.maxEventsPerPoll captured (pa captured) with
        ⟨_,hs | hn⟩ | ⟨last',_,hla',hlea⟩
      · omega
      · simp [hn] at hla
      · obtain rfl : last = last' := Option.some.inj (hla.symm.trans hla')
        obtain ⟨cut,he,hle⟩ := fetched_cut_le metas hlea
        exact ⟨cut,he,hle.trans (leastCursor_le_candidate _ _)⟩
    · exact ih hl _

lemma mem_page {f : Fetched} {p : CaptureInstanceMeta × SqlServerRawChange} :
    p ∈ f.page ↔ p ∈ f.flat ∧ ∀ cut, f.truncationCursor = some cut → p.2.rank ≤ cut.rank := by
  rw [Fetched.page]
  cases f.truncationCursor with
  | none => simp [mem_insertionSort]
  | some => simp [mem_insertionSort,cursorOrdering_isLE,SqlServerRawChange.rank]

lemma page_sorted (f : Fetched) : f.page.Pairwise fun a b => a.2.rank ≤ b.2.rank := by
  have hs : (f.flat.insertionSort fun a b => a.2.cursor.rank ≤ b.2.cursor.rank).Pairwise
      fun a b => a.2.cursor.rank ≤ b.2.cursor.rank := by
    have : Std.Total (fun a b : CaptureInstanceMeta × SqlServerRawChange =>
      a.2.cursor.rank ≤ b.2.cursor.rank) := ⟨fun a b => le_total _ _⟩
    have : IsTrans (CaptureInstanceMeta × SqlServerRawChange)
      (fun a b => a.2.cursor.rank ≤ b.2.cursor.rank) := ⟨fun a b c => le_trans⟩
    exact pairwise_insertionSort _ _
  rw [Fetched.page]
  cases f.truncationCursor with
  | none => exact hs
  | some => exact hs.filter _
end
/-- The rows of a page are unread ones, and the cut is one of them. -/
structure SoundPage (T : ChangeTables) (h : SqlServerStreamHandle) (f : Fetched) : Prop where
  sound : ∀ p ∈ f.page, p.1 ∈ h.metas ∧ p.2 ∈ h.unread T p.1
  attained : ∀ cut, f.truncationCursor = some cut → ∃ p ∈ f.page, p.2.cursor = cut

/-- What a page is: all unread rows up to the cut. -/
structure ReadsPage (T : ChangeTables) (h : SqlServerStreamHandle) (f : Fetched) : Prop where
  complete : ∀ captured ∈ h.metas, ∀ c ∈ h.unread T captured,
    (∀ cut, f.truncationCursor = some cut → c.rank ≤ cut.rank) → (captured,c) ∈ f.page
  empty : f.flat = [] → ∀ captured ∈ h.metas, h.unread T captured = []

lemma fetch_subset (ha : AnswersFetch T h har captured an)
    (hf : h.fetchChangesForCaptureInstance captured an = .ok cs) :
    ∀ c ∈ cs, c ∈ h.unread T captured := by
  rcases fetch_cases hf with ⟨rfl,_⟩ | ⟨_,rfl⟩
  · exact fun c hc => absurd hc not_mem_nil
  · intro c hc
    have hr : cs = _ := ha
    rw [hr] at hc
    exact (mem_filter.mp (mem_of_mem_take hc)).1

lemma fetchAll_subset {k : ℕ} (ha : ∀ i captured, metas[i]? = some captured →
      AnswersFetch T h har captured (fe (k+i))) {g : Fetched}
    (hf : h.fetchAll fe k metas f = .ok g) :
    (∀ p ∈ g.flat, p ∈ f.flat ∨ p.1 ∈ metas ∧ p.2 ∈ h.unread T p.1) ∧ (∀ p ∈ f.flat, p ∈ g.flat) ∧
      ∀ cut, g.truncationCursor = some cut → f.truncationCursor = some cut ∨ ∃ p ∈ g.flat, p.2.cursor = cut := by
  induction metas generalizing k f with
  | nil =>
    cases hf
    exact ⟨fun p hp => Or.inl hp,fun p hp => hp,fun cut hcu => Or.inl hcu⟩
  | cons captured metas ih =>
    rw [fetchAll] at hf
    cases hon : h.fetchChangesForCaptureInstance captured (fe k) with
    | error => simp [hon] at hf
    | ok cs =>
      simp only [hon] at hf
      have hs := fetch_subset (ha 0 captured rfl) hon
      obtain ⟨hfl,hg,hcu⟩ := ih (fun i o ho => by
        rw [Nat.add_assoc,Nat.add_comm 1 i]
        exact ha (i+1) o ho) hf
      have hadd : ∀ c ∈ cs, (captured,c) ∈ g.flat := fun c hc =>
        hg _ (mem_append_right _ (mem_map_of_mem hc))
      refine ⟨fun p hp => ?_,fun p hp => hg p (mem_append_left _ hp),fun cut hcu' => ?_⟩
      · rcases hfl p hp with hfi | ⟨hca,hu⟩
        · rcases mem_append.mp hfi with hb | hn
          · exact Or.inl hb
          · obtain ⟨c,hc,rfl⟩ := mem_map.mp hn
            exact Or.inr ⟨mem_cons_self,hs c hc⟩
        · exact Or.inr ⟨mem_cons_of_mem _ hca,hu⟩
      · rcases hcu cut hcu' with hfi | hl
        · rcases add_cut_cases f h.maxEventsPerPoll captured cs with
            ⟨hsa,_⟩ | ⟨last,_,hla,hle⟩
          · exact Or.inl (hsa.symm.trans hfi)
          · have he : leastCursor f.truncationCursor last.cursor = cut := Option.some.inj (hle.symm.trans hfi)
            rcases leastCursor_cases f.truncationCursor last.cursor with hk | hn
            · exact Or.inl (hk.trans (congrArg some he))
            · exact Or.inr ⟨_,hadd last (mem_of_getLast? hla),hn.symm.trans he⟩
        · exact Or.inr hl

lemma fetchAll_sound {an : PassAnswer} (ha : AnswersPass T s an)
    (hf : s.handle.fetchAll an.fetch 0 s.handle.metas ⟨none,[]⟩ = .ok f) :
    SoundPage T s.handle f := by
  obtain ⟨hfl,_,hcu⟩ := fetchAll_subset (fun i captured hc => by
    rw [Nat.zero_add]
    exact ha.fetch i captured hc) hf
  refine ⟨fun p hp => ?_,fun cut hcu' => ?_⟩
  · rcases hfl p (mem_page.mp hp).1 with hn | hr
    · cases hn
    · exact hr
  · rcases hcu cut hcu' with hn | ⟨p,hp,rfl⟩
    · cases hn
    · refine ⟨p,mem_page.mpr ⟨hp,fun cut hcu => ?_⟩,rfl⟩
      exact le_of_eq (congrArg rank (Option.some.inj (hcu'.symm.trans hcu)))

lemma fetchAll_reads {an : PassAnswer} (hl : 0 < s.handle.maxEventsPerPoll) (ha : AnswersPass T s an)
    (hh : s.handle.lsnStart ≤ s.handle.lsnEnd → s.handle.lsnEnd ≤ an.harvested)
    (hfe : s.handle.fetchAll an.fetch 0 s.handle.metas ⟨none,[]⟩ = .ok f) :
    ReadsPage T s.handle f := by
  generalize hpa : (fun captured => (s.handle.unread T captured).take s.handle.maxEventsPerPoll) = pages
  have hp : ∀ captured, pages captured =
      (s.handle.unread T captured).take s.handle.maxEventsPerPoll := fun captured =>
    (congrFun hpa captured).symm
  have hf : f = fetched s.handle pages s.handle.metas ⟨none,[]⟩ := by
    refine fetchAll_eq (fun i captured hca cs hch => ?_) hfe
    rw [Nat.zero_add] at hch
    rw [hp]
    exact fetch_eq (ha.fetch i captured hca) hh hch
  have hfl : ∀ captured ∈ s.handle.metas, ∀ c ∈ pages captured, (captured,c) ∈ f.flat := by
    intro captured hca c hc
    rw [hf,fetched_flat,nil_append,mem_flatMap]
    exact ⟨captured,hca,mem_map.mpr ⟨c,hc,rfl⟩⟩
  constructor
  · intro captured hca c hc hcu
    refine mem_page.mpr ⟨hfl captured hca c ?_,hcu⟩
    rw [hp]
    by_cases hr : (s.handle.unread T captured).length ≤ s.handle.maxEventsPerPoll
    · rwa [take_of_length_le hr]
    · -- the instance's page is full, so that the cut is not past its last row
      cases hla : (pages captured).getLast? with
      | none =>
        rw [List.getLast?_eq_none_iff,hp,take_eq_nil_iff] at hla
        rcases hla with hz | hni
        · omega
        · simp [hni] at hc
      | some =>
        have hfu : s.handle.maxEventsPerPoll ≤ (pages captured).length := by
          rw [hp,length_take]
          omega
        obtain ⟨cut,he,hle⟩ := fetched_cut_le_last hca hfu hla ⟨none,[]⟩
        rw [← hf] at he
        rw [hp] at hla
        exact Paging.mem_take_of_le_getLast (unread_sorted _ _) hla hc ((hcu cut he).trans hle)
  · intro hni captured hca
    have hn : pages captured = [] := by
      rw [eq_nil_iff_forall_not_mem]
      intro c hc
      have hm := hfl captured hca c hc
      simp [hni] at hm
    rw [hp,take_eq_nil_iff] at hn
    rcases hn with hz | hu
    · omega
    · exact hu

lemma SoundPage.operations (hs : SoundPage T h f) :
    ∀ p ∈ f.page, p.2.operation = 1 ∨ p.2.operation = 2 ∨ p.2.operation = 3 ∨ p.2.operation = 4 := by
  intro p hp
  exact T.operations p.1 p.2 (mem_unread.mp (hs.sound p hp).2).1

lemma SoundPage.page_ne_nil (hs : SoundPage T h f) (hf : f.flat ≠ []) : f.page ≠ [] := by
  cases hc : f.truncationCursor with
  | none =>
    obtain ⟨p,hp⟩ := exists_mem_of_ne_nil _ hf
    exact ne_nil_of_mem (mem_page.mpr ⟨hp,by simp [hc]⟩)
  | some cut =>
    obtain ⟨p,hp,_⟩ := hs.attained cut hc
    exact ne_nil_of_mem hp

lemma SoundPage.window (hs : SoundPage T h f) (hf : f.flat ≠ []) : h.lsnStart ≤ h.lsnEnd := by
  obtain ⟨p,hp⟩ := exists_mem_of_ne_nil _ (hs.page_ne_nil hf)
  have hu := mem_unread.mp (hs.sound p hp).2
  have hst := lsnStart_le_windowStart h p.1
  omega
end
section
/-- The event of a change: its place, its transaction, its table and its row. -/
def Announces (txIdFromSeqval : String → UInt64) (change : CaptureInstanceMeta × SqlServerRawChange) (e : Event) :
    Prop :=
  e.source.offset = lsnBytesToHex change.2.startLsn ∧
    e.transaction = some ⟨txIdFromSeqval (lsnBytesToHex change.2.seqval),some 1,0⟩ ∧ e.schema = some change.1.schema ∧ e.table = change.1.table ∧
    (change.2.operation = 1 ∧ e.op = .delete ∧ e.before = some change.2.row ∨
      change.2.operation = 2 ∧ e.op = .insert ∧ e.after = some change.2.row ∨
      change.2.operation = 4 ∧ e.op = .update ∧ e.after = some change.2.row)

/-- A change with an event of its own: an UPDATE's first row has none. -/
def isAnnounced (tableIsAllowed : Option String → String → Bool)
    (change : CaptureInstanceMeta × SqlServerRawChange) : Bool :=
  change.2.operation ≠ 3 && tableIsAllowed (some change.1.schema) change.1.table

variable {c : SqlServerRawChange}

lemma allowed_announces {h : SqlServerStreamHandle} {captured : CaptureInstanceMeta}
    (ho : c.operation ≠ 3) {e : Event} (he : Announces h.txIdFromSeqval (captured,c) e) :
    List.Forall₂ (Announces h.txIdFromSeqval) ([(captured,c)].filter (isAnnounced h.tableIsAllowed)) (h.allowed captured e) := by
  rw [allowed]
  by_cases ha : h.tableIsAllowed (some captured.schema) captured.table = true
  · simpa [isAnnounced,ho,ha] using he
  · simp [isAnnounced,ha]

variable (h : SqlServerStreamHandle)

lemma mapChangeToEvents_eq (captured : CaptureInstanceMeta)
    (ho : c.operation = 1 ∨ c.operation = 2 ∨ c.operation = 3 ∨ c.operation = 4) :
    ∃ bs events, h.mapChangeToEvents captured c = ({h with pendingUpdateBefores := bs},.ok events) ∧
      List.Forall₂ (Announces h.txIdFromSeqval) ([(captured,c)].filter (isAnnounced h.tableIsAllowed)) events := by
  unfold mapChangeToEvents
  rcases ho with ho | ho | ho | ho
  · simp only [ho]
    refine ⟨h.pendingUpdateBefores,_,rfl,allowed_announces (by omega) ⟨rfl,rfl,rfl,rfl,Or.inl ?_⟩⟩
    exact ⟨ho,rfl,rfl⟩
  · simp only [ho]
    refine ⟨h.pendingUpdateBefores,_,rfl,allowed_announces (by omega) ⟨rfl,rfl,rfl,rfl,Or.inr (Or.inl ?_)⟩⟩
    exact ⟨ho,rfl,rfl⟩
  · simp only [ho]
    exact ⟨_,[],rfl,by simp [isAnnounced,ho]⟩
  · simp only [ho]
    refine ⟨_,_,rfl,allowed_announces (by omega) ⟨rfl,rfl,rfl,rfl,Or.inr (Or.inr ?_)⟩⟩
    exact ⟨ho,rfl,rfl⟩

lemma bufferChanges_eq {pag : List (CaptureInstanceMeta × SqlServerRawChange)}
    (ho : ∀ p ∈ pag, p.2.operation = 1 ∨ p.2.operation = 2 ∨ p.2.operation = 3 ∨ p.2.operation = 4) :
    ∃ bs events, h.bufferChanges pag = ({h with
        pendingUpdateBefores := bs, windowBuffer := h.windowBuffer++events},.ok ()) ∧
      List.Forall₂ (Announces h.txIdFromSeqval) (pag.filter (isAnnounced h.tableIsAllowed)) events := by
  induction pag generalizing h with
  | nil =>
    refine ⟨h.pendingUpdateBefores,[],?_,List.Forall₂.nil⟩
    rw [append_nil]
    rfl
  | cons p pag ih =>
    obtain ⟨bs,events,hm,he⟩ := mapChangeToEvents_eq h p.1 (ho p mem_cons_self)
    obtain ⟨bs',events',hr,he'⟩ := ih {h with pendingUpdateBefores := bs, windowBuffer := h.windowBuffer++events}
      fun q hq => ho q (mem_cons_of_mem _ hq)
    refine ⟨bs',events++events',?_,?_⟩
    · rw [bufferChanges,hm]
      simpa [append_assoc] using hr
    · rw [← singleton_append,filter_append]
      exact rel_append he he'
end
/-- What a pass does, with the page and the truncates it read. -/
inductive PassOutcome (s : StreamSession) (answer : PassAnswer) :
    StreamSession × Option (Except Error (List Event)) → Prop
  | fetchFailed (e : Error) (fetch : s.handle.fetchAll answer.fetch 0 s.handle.metas ⟨none,[]⟩ = .error e) :
      PassOutcome s answer (s,some (.error e))
  | truncatesFailed (f : Fetched) (marked : List ℤ) (e : Error)
      (fetch : s.handle.fetchAll answer.fetch 0 s.handle.metas ⟨none,[]⟩ = .ok f)
      (empty : f.flat = [])
      (truncates : s.handle.fetchAndEmitTruncateEvents answer.truncates = (marked,.error e)) :
      PassOutcome s answer (⟨s.handle,s.marked++marked⟩,some (.error e))
  | advanceFailed (f : Fetched) (marked : List ℤ) (events : List Event) (e : Error)
      (fetch : s.handle.fetchAll answer.fetch 0 s.handle.metas ⟨none,[]⟩ = .ok f)
      (empty : f.flat = [])
      (truncates : s.handle.fetchAndEmitTruncateEvents answer.truncates = (marked,.ok events))
      (advance : answer.advance = .error e) :
      PassOutcome s answer (⟨s.handle,s.marked++marked⟩,some (.error e))
  | passed (f : Fetched) (marked : List ℤ) (events : List Event) (incremented harvestedMax : ℕ)
      (fetch : s.handle.fetchAll answer.fetch 0 s.handle.metas ⟨none,[]⟩ = .ok f)
      (empty : f.flat = [])
      (truncates : s.handle.fetchAndEmitTruncateEvents answer.truncates = (marked,.ok events))
      (advance : answer.advance = .ok (incremented,harvestedMax)) :
      PassOutcome s answer (⟨(s.handle.advanceWindow answer.advance).1,s.marked++marked⟩,
        if !events.isEmpty then some (.ok events)
        else if answer.expired then some (.ok []) else none)
  | fillFailed (f : Fetched) (befores : List ((ℕ × ℕ) × Json × UInt64)) (changes : List Event)
      (marked : List ℤ) (e : Error)
      (fetch : s.handle.fetchAll answer.fetch 0 s.handle.metas ⟨none,[]⟩ = .ok f)
      (found : f.flat ≠ [])
      (announced : List.Forall₂ (Announces s.handle.txIdFromSeqval)
        (f.page.filter (isAnnounced s.handle.tableIsAllowed)) changes)
      (truncates : s.handle.fetchAndEmitTruncateEvents answer.truncates = (marked,.error e)) :
      PassOutcome s answer (⟨{s.handle with
        pendingUpdateBefores := befores, windowBuffer := changes},s.marked++marked⟩,some (.error e))
  | filled (f : Fetched) (befores : List ((ℕ × ℕ) × Json × UInt64)) (changes : List Event)
      (marked : List ℤ) (events : List Event) (h : SqlServerStreamHandle)
      (fetch : s.handle.fetchAll answer.fetch 0 s.handle.metas ⟨none,[]⟩ = .ok f)
      (found : f.flat ≠ [])
      (announced : List.Forall₂ (Announces s.handle.txIdFromSeqval)
        (f.page.filter (isAnnounced s.handle.tableIsAllowed)) changes)
      (truncates : s.handle.fetchAndEmitTruncateEvents answer.truncates = (marked,.ok events))
      (handle : h = {s.handle with
        pendingUpdateBefores := befores, windowBuffer := mergeTruncates changes events,
        pendingCursor := f.truncationCursor}) :
      PassOutcome s answer (⟨(h.drainPage answer.advance).1,s.marked++marked⟩,some (h.drainPage answer.advance).2)

lemma readPass_outcome {s : StreamSession} {ans : PassAnswer} (hbu : s.handle.windowBuffer = [])
    (ho : ∀ f, s.handle.fetchAll ans.fetch 0 s.handle.metas ⟨none,[]⟩ = .ok f →
      ∀ p ∈ f.page, p.2.operation = 1 ∨ p.2.operation = 2 ∨ p.2.operation = 3 ∨ p.2.operation = 4) :
    PassOutcome s ans (readPass s ans) := by
  rw [readPass]
  cases hf : s.handle.fetchAll ans.fetch 0 s.handle.metas ⟨none,[]⟩ with
  | error e => exact .fetchFailed e hf
  | ok f =>
    by_cases he : f.flat = []
    · simp only [he,isEmpty_nil,if_true,emptyPage]
      cases ht : s.handle.fetchAndEmitTruncateEvents ans.truncates with
      | mk ms r =>
        cases r with
        | error e => exact .truncatesFailed f ms e hf he ht
        | ok es =>
          cases ha : ans.advance with
          | error e => exact .advanceFailed f ms es e hf he ht ha
          | ok n =>
            rw [← ha]
            have hp := PassOutcome.passed f ms es n.1 n.2 hf he ht ha
            simpa [advanceWindow,ha] using hp
    · have hs : f.flat.isEmpty = false := by simpa using he
      obtain ⟨bs,ch,hb,han⟩ := bufferChanges_eq s.handle (ho f hf)
      rw [hbu,nil_append] at hb
      simp only [hs,Bool.false_eq_true,if_false,fillPage,hb]
      have hsa : fetchAndEmitTruncateEvents {s.handle with
          pendingUpdateBefores := bs, windowBuffer := ch} ans.truncates =
          s.handle.fetchAndEmitTruncateEvents ans.truncates := rfl
      rw [hsa]
      cases ht : s.handle.fetchAndEmitTruncateEvents ans.truncates with
      | mk ms r =>
        cases r with
        | error e => exact .fillFailed f bs ch ms e hf he han ht
        | ok es =>
          exact .filled f bs ch ms es _ hf he han ht rfl
section
variable {T : ChangeTables} {s : StreamSession} {answer : PassAnswer}

lemma AnswersPass.outcome (ha : AnswersPass T s answer) (hb : s.handle.windowBuffer = []) :
    PassOutcome s answer (readPass s answer) :=
  readPass_outcome hb fun _ hf => (fetchAll_sound ha hf).operations
lemma AnswersPass.incremented {ic m : ℕ} (ha : AnswersPass T s answer) (hn : answer.advance = .ok (ic,m)) :
    ic = s.handle.lsnEnd+1 := by
  have hans := ha.advance
  rw [hn] at hans
  exact hans
end
/-- What is left of the buffer goes on, and the window is settled when nothing is. -/
inductive DrainOutcome (h : SqlServerStreamHandle) (answer : Except Error (ℕ × ℕ)) :
    SqlServerStreamHandle × Except Error (List Event) → Prop
  | kept (more : h.windowBuffer.drop h.maxEventsPerPoll ≠ []) :
      DrainOutcome h answer ({h with windowBuffer := h.windowBuffer.drop h.maxEventsPerPoll},
        .ok (h.windowBuffer.take h.maxEventsPerPoll))
  | resumed (cut : SqlServerCdcCursor) (pending : h.pendingCursor = some cut) : DrainOutcome h answer
        ({h with windowBuffer := [], cursor := some cut, pendingCursor := none},
          .ok h.windowBuffer)
  | advanced (incremented harvestedMax : ℕ) (pending : h.pendingCursor = none)
      (advance : answer = .ok (incremented,harvestedMax)) :
      DrainOutcome h answer ({h with
          windowBuffer := []
          lsnStart := (nextWindow h.lsnStart h.lsnEnd incremented harvestedMax).1
          lsnEnd := harvestedMax
          cursor := none
          pendingCursor := none},.ok h.windowBuffer)
  | failed (e : Error) (pending : h.pendingCursor = none) (advance : answer = .error e) :
      DrainOutcome h answer ({h with windowBuffer := []},.error e)

lemma nextWindow_snd (currentStart currentEnd incrementedEnd harvestedMax : ℕ) :
    (nextWindow currentStart currentEnd incrementedEnd harvestedMax).2 = harvestedMax := by
  rw [nextWindow]
  split <;> rfl

lemma drainPage_outcome (h : SqlServerStreamHandle) (ans : Except Error (ℕ × ℕ)) :
    DrainOutcome h ans (h.drainPage ans) := by
  by_cases hm : h.windowBuffer.drop h.maxEventsPerPoll = []
  · have hal : h.windowBuffer.take h.maxEventsPerPoll = h.windowBuffer := take_of_length_le (drop_eq_nil_iff.mp hm)
    cases hp : h.pendingCursor with
    | some cut =>
      simp only [drainPage,hm,hal,isEmpty_nil,if_true,settleDrainedWindow,hp]
      exact .resumed cut hp
    | none =>
      cases ha : ans with
      | error e =>
        simp only [drainPage,hm,hal,isEmpty_nil,if_true,settleDrainedWindow,hp,advanceWindow]
        have hf : DrainOutcome h (.error e) _ := .failed e hp rfl
        simpa [hp] using hf
      | ok n =>
        simp only [drainPage,hm,hal,isEmpty_nil,if_true,settleDrainedWindow,hp,advanceWindow,nextWindow_snd]
        exact .advanced n.1 n.2 hp rfl
  · have hs : (h.windowBuffer.drop h.maxEventsPerPoll).isEmpty = false := by
      rw [isEmpty_eq_false_iff]
      exact hm
    simp only [drainPage,hs,Bool.false_eq_true,if_false]
    exact .kept hm
end Rustcdc.Sqlserver
