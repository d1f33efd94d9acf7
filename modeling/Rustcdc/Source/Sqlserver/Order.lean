import Rustcdc.Source.Sqlserver.Progress
import Rustcdc.Source.Sqlserver.Lsn

/-! The order in which the SQL Server stream returns changes and truncates. -/
namespace Rustcdc.Sqlserver
open List Machine SqlServerStreamHandle

/-- LSNs and sequence values have ten bytes. -/
def ChangeTables.TenBytes (T : ChangeTables) : Prop :=
  ∀ captured, ∀ c ∈ T.changes captured, c.startLsn < lsnBound ∧ c.seqval < lsnBound

/-- Sorting is stable: what is in order already stays as it is. -/
theorem filter_insertionSort {α : Type*} (r : α → α → Prop) [DecidableRel r] (keep : α → Bool)
    {l : List α} (hs : (l.filter keep).Pairwise r) :
    (l.insertionSort r).filter keep = l.filter keep := by
  have hsu : (l.filter keep).Sublist ((l.insertionSort r).filter keep) := by
    have hk := (sublist_insertionSort hs filter_sublist).filter keep
    rwa [filter_filter,filter_congr (fun _ _ => Bool.and_self _)] at hk
  exact (hsu.eq_of_length ((perm_insertionSort r l).symm.filter keep).length_eq).symm

/-- The texts of the LSNs, as they are sorted. -/
def offsetLE (a b : Event) : Prop := a.source.offset ≤ b.source.offset

instance : DecidableRel offsetLE := fun a b => inferInstanceAs (Decidable (a.source.offset ≤ b.source.offset))

lemma mergeTruncates_eq (buffer truncates : List Event) (hn : truncates ≠ []) :
    mergeTruncates buffer truncates = (buffer++truncates).insertionSort offsetLE := by
  rw [mergeTruncates,if_neg (by simpa using hn)]
  rfl

/-- What an event is about. -/
inductive Item
  | change (change : CaptureInstanceMeta × SqlServerRawChange)
  | truncate (lsn : ℕ)

namespace Item
def lsn : Item → ℕ
  | change c => c.2.startLsn
  | truncate lsn => lsn
def Of (txIdFromSeqval : String → UInt64) : Item → Event → Prop
  | change c, e => Announces txIdFromSeqval c e
  | truncate lsn, e => e.op = .truncate ∧ e.source.offset = lsnBytesToHex lsn

/-- LSNs in order, and changes in the order of their tables. -/
def Precedes (a b : Item) : Prop := a.lsn ≤ b.lsn ∧ ∀ c d, a = change c → b = change d → c.2.rank ≤ d.2.rank

lemma Of.offset {tx : String → UInt64} {x : Item} {e : Event} (h : x.Of tx e) : e.source.offset = lsnBytesToHex x.lsn := by
  cases x with
  | change => exact h.1
  | truncate => exact h.2

lemma precedes_of_rank {c d : CaptureInstanceMeta × SqlServerRawChange} (h : c.2.rank ≤ d.2.rank) :
    (change c).Precedes (change d) := by
  refine ⟨SqlServerCdcCursor.lsn_le_of_rank_le h,fun c' d' hc hd => ?_⟩
  obtain rfl := Item.change.inj hc
  obtain rfl := Item.change.inj hd
  exact h

lemma precedes_truncate {a : Item} {lsn : ℕ} (h : a.lsn ≤ lsn) : a.Precedes (truncate lsn) :=
  ⟨h,fun _ _ _ hd => by cases hd⟩
lemma truncate_precedes {lsn : ℕ} {b : Item} (h : lsn ≤ b.lsn) : (truncate lsn).Precedes b :=
  ⟨h,fun _ _ hc _ => by cases hc⟩
/-- A change is one of the change table of a captured instance. -/
def Known (T : ChangeTables) (metas : List CaptureInstanceMeta) (x : Item) : Prop :=
  x.lsn < lsnBound ∧ ∀ c, x = change c → c.1 ∈ metas ∧ c.2 ∈ T.changes c.1

lemma known_truncate {T : ChangeTables} {metas : List CaptureInstanceMeta} {lsn : ℕ} (h : lsn < lsnBound) :
    (truncate lsn).Known T metas :=
  ⟨h,fun _ hc => by cases hc⟩
def isChange : Item → Bool
  | change _ => true
  | truncate _ => false
end Item
section
variable {cs : List (CaptureInstanceMeta × SqlServerRawChange)} {es truncates : List Event} {l : List ℕ}
  {tx : String → UInt64}

lemma changes_items (he : List.Forall₂ (Announces tx) cs es) (hs : cs.Pairwise fun a b => a.2.rank ≤ b.2.rank) :
    List.Forall₂ (Item.Of tx) (cs.map .change) es ∧ (cs.map Item.change).Pairwise Item.Precedes := by
  constructor
  · rw [forall₂_map_left_iff]
    exact he
  · rw [pairwise_map]
    exact hs.imp Item.precedes_of_rank

lemma sorted_items {ps : List (Item × Event)} (hof : ∀ p ∈ ps, p.1.Of tx p.2) (hbo : ∀ p ∈ ps, p.1.lsn < lsnBound)
    (hch : (ps.filter fun p => p.1.isChange).Pairwise fun a b => a.1.Precedes b.1) :
    ((ps.insertionSort fun a b => offsetLE a.2 b.2).map Prod.fst).Pairwise Item.Precedes := by
  have hl : ∀ a ∈ ps, ∀ b ∈ ps, offsetLE a.2 b.2 ↔ a.1.lsn ≤ b.1.lsn := by
    intro a ha b hb
    rw [offsetLE,(hof a ha).offset,(hof b hb).offset]
    exact lsnBytesToHex_le_iff (hbo a ha) (hbo b hb)
  have : Std.Total (fun a b : Item × Event => offsetLE a.2 b.2) :=
    ⟨fun a b => String.le_total a.2.source.offset b.2.source.offset⟩
  have : IsTrans (Item × Event) (fun a b => offsetLE a.2 b.2) := ⟨fun a b c => String.le_trans⟩
  have ho := pairwise_insertionSort (fun a b : Item × Event => offsetLE a.2 b.2) ps
  -- the changes among the items are where they were
  have hs : (ps.insertionSort fun a b => offsetLE a.2 b.2).filter (fun p => p.1.isChange) =
      ps.filter fun p => p.1.isChange := by
    refine filter_insertionSort _ _ (hch.imp_of_mem fun ha hb hp => ?_)
    exact (hl _ (mem_filter.mp ha).1 _ (mem_filter.mp hb).1).mpr hp.1
  rw [← hs,pairwise_filter] at hch
  rw [pairwise_map]
  refine (ho.and hch).imp_of_mem fun {a b} ha hb hbot => ?_
  rw [mem_insertionSort] at ha hb
  refine ⟨(hl a ha b hb).mp hbot.1,fun c d hc hd => ?_⟩
  exact (hbot.2 (by rw [hc]; rfl) (by rw [hd]; rfl)).2 c d hc hd

lemma mergeTruncates_items (he : List.Forall₂ (Announces tx) cs es) (hs : cs.Pairwise fun a b => a.2.rank ≤ b.2.rank)
    (hb : ∀ c ∈ cs, c.2.startLsn < lsnBound)
    (ht : List.Forall₂ (fun lsn e => (Item.truncate lsn).Of tx e) l truncates)
    (hls : ∀ lsn ∈ l, lsn < lsnBound) :
    ∃ xs, List.Forall₂ (Item.Of tx) xs (mergeTruncates es truncates) ∧ xs.Pairwise Item.Precedes ∧
      ∀ x ∈ xs, x ∈ cs.map Item.change++l.map Item.truncate := by
  obtain ⟨hofs,ho⟩ := changes_items he hs
  by_cases hn : truncates = []
  · subst hn
    exact ⟨cs.map .change,hofs,ho,fun x hi => mem_append_left _ hi⟩
  · rw [mergeTruncates_eq _ _ hn]
    have ha : List.Forall₂ (Item.Of tx) (cs.map Item.change++l.map Item.truncate) (es++truncates) := by
      refine rel_append hofs ?_
      rw [forall₂_map_left_iff]
      exact ht
    obtain ⟨hl,hz⟩ := forall₂_iff_zip.mp ha
    generalize hpa : (cs.map Item.change++l.map Item.truncate).zip (es++truncates) = ps at hz
    have hfs : ps.map Prod.fst = cs.map Item.change++l.map Item.truncate := by
      rw [← hpa,map_fst_zip hl.le]
    have hsn : ps.map Prod.snd = es++truncates := by
      rw [← hpa,map_snd_zip hl.ge]
    have hi : ∀ p ∈ ps, p.1 ∈ cs.map Item.change++l.map Item.truncate := fun p hp =>
      hfs ▸ mem_map_of_mem hp
    have hof : ∀ p ∈ ps, p.1.Of tx p.2 := fun p hp => hz hp
    have hlsn : ∀ p ∈ ps, p.1.lsn < lsnBound := by
      intro p hp
      rcases mem_append.mp (hi p hp) with hcha | htr
      · obtain ⟨c,hc,heq⟩ := mem_map.mp hcha
        rw [← heq]
        exact hb c hc
      · obtain ⟨lsn,hlsn,heq⟩ := mem_map.mp htr
        rw [← heq]
        exact hls lsn hlsn
    have hch : (ps.filter fun p => p.1.isChange).Pairwise fun a b => a.1.Precedes b.1 := by
      have hm : (ps.filter fun p => p.1.isChange).map Prod.fst = cs.map Item.change := by
        have hf : (ps.map Prod.fst).filter Item.isChange =
            (ps.filter fun p => p.1.isChange).map Prod.fst := filter_map
        rw [← hf,hfs,filter_append]
        simp [filter_map,Function.comp_def,Item.isChange]
      rw [← hm,pairwise_map] at ho
      exact ho
    refine ⟨_,?_,sorted_items hof hlsn hch,fun x hme => ?_⟩
    · rw [← hsn,← map_insertionSort (fun a b : Item × Event => offsetLE a.2 b.2) offsetLE
        Prod.snd ps (fun _ _ _ _ => Iff.rfl),forall₂_map_left_iff,forall₂_map_right_iff,
        forall₂_same]
      intro p hp
      rw [mem_insertionSort] at hp
      exact hof p hp
    · obtain ⟨p,hp,rfl⟩ := mem_map.mp hme
      rw [mem_insertionSort] at hp
      exact hi p hp
end
section
def SqlServerStreamHandle.truncateLsn (h : SqlServerStreamHandle) (row : TruncateEventRow) : ℕ :=
  row.maxLsn.getD h.lsnEnd

variable {events returned : List Event} {delivered buffered : List Item} {h h' : SqlServerStreamHandle}
  {m : List ℤ} {answer : PassAnswer} {s : StreamSession} {inc : ℕ}

lemma truncates_rows {answer : TruncateAnswer} (ho : h.fetchAndEmitTruncateEvents answer = (m,.ok events)) :
    ∃ kept : List TruncateEventRow, events = kept.map (h.truncateEvent answer.now) ∧
      (kept ≠ [] → ∃ rs, h.captureTruncateEvents = true ∧ answer.rows = .ok rs ∧ kept.Sublist rs) := by
  rw [fetchAndEmitTruncateEvents] at ho
  cases hc : h.captureTruncateEvents with
  | false =>
    simp only [hc,Bool.not_false,if_true,Prod.mk.injEq,Except.ok.injEq] at ho
    exact ⟨[],ho.2.symm,fun hn => absurd rfl hn⟩
  | true =>
    simp only [hc,Bool.not_true,Bool.false_eq_true,if_false] at ho
    split at ho
    · cases ho
    · simp only [Prod.mk.injEq,Except.ok.injEq] at ho
      exact ⟨[],ho.2.symm,fun hn => absurd rfl hn⟩
    · rename_i rs _ hr
      split at ho
      · cases ho
      · simp only [Prod.mk.injEq,Except.ok.injEq] at ho
        exact ⟨_,ho.2.symm,fun _ => ⟨rs,rfl,hr,filter_sublist⟩⟩

/-- The server's side of the truncates: none is past the window's end. -/
def AnswersTruncates (s : StreamSession) (answer : PassAnswer) : Prop :=
  s.handle.lsnEnd < lsnBound ∧ ∀ rows, answer.truncates.rows = .ok rows → ∀ row ∈ rows,
    s.handle.truncateLsn row ≤ s.handle.lsnEnd

/-- What the order asks of a pass: the window can be moved on, and truncates are not below what was
returned, come with a page that was not cut, and are sorted if they come alone. -/
structure PassOrdered (returned : List Event) (s : StreamSession) (answer : PassAnswer) : Prop where
  advances : ∃ next, answer.advance = .ok next
  after : ∀ rows, s.handle.captureTruncateEvents = true → answer.truncates.rows = .ok rows →
    ∀ row ∈ rows, ∀ e ∈ returned, e.source.offset ≤ lsnBytesToHex (s.handle.truncateLsn row)
  whole : ∀ rows f, s.handle.captureTruncateEvents = true → answer.truncates.rows = .ok rows →
    rows ≠ [] → s.handle.fetchAll answer.fetch 0 s.handle.metas ⟨none,[]⟩ = .ok f → f.truncationCursor = none
  sorted : ∀ rows f, s.handle.captureTruncateEvents = true → answer.truncates.rows = .ok rows →
    s.handle.fetchAll answer.fetch 0 s.handle.metas ⟨none,[]⟩ = .ok f → f.flat = [] →
      (rows.map s.handle.truncateLsn).Pairwise (· ≤ ·)

def Passed (h : SqlServerStreamHandle) : Item → Prop
  | .change c => Behind h c.2
  | .truncate lsn => lsn < h.lsnStart

/-- The item is in the window, up to the parked cursor. -/
def Within (h : SqlServerStreamHandle) (item : Item) : Prop := item.lsn ≤ h.lsnEnd ∧
    ∀ cut, h.pendingCursor = some cut → ∃ c, item = .change c ∧ c.2.rank ≤ cut.rank

/-- What was returned and what is buffered are in order, and before what is to come. -/
structure Flow (T : ChangeTables) (origin h : SqlServerStreamHandle) (returned : List Event)
    (delivered buffered : List Item) : Prop where
  delivered_of : List.Forall₂ (Item.Of origin.txIdFromSeqval) delivered returned
  buffered_of : List.Forall₂ (Item.Of origin.txIdFromSeqval) buffered h.windowBuffer
  ordered : (delivered++buffered).Pairwise Item.Precedes
  known : ∀ item ∈ delivered++buffered, item.Known T origin.metas
  reached : ∀ item ∈ delivered++buffered, Passed h item ∨ Within h item
  settled : h.windowBuffer = [] → ∀ item ∈ delivered, Passed h item

variable {T : ChangeTables} {origin : SqlServerStreamHandle}

lemma Passed.precedes {x : Item} (hp : Passed h x) {ca : CaptureInstanceMeta}
    {c : SqlServerRawChange} (hu : c ∈ h.unread T ca) :
    x.Precedes (.change (ca,c)) := by
  obtain ⟨_,hs,_,hpa⟩ := mem_unread.mp hu
  have hw := lsnStart_le_windowStart h ca
  cases x with
  | change d =>
    rcases hp with hl | ⟨cu,hc,hle⟩
    · exact Item.precedes_of_rank (SqlServerCdcCursor.rank_le_of_lsn_lt (show d.2.startLsn < c.startLsn by omega))
    · exact Item.precedes_of_rank (hle.trans (hpa cu hc).le)
  | truncate lsn =>
    have hl : lsn < h.lsnStart := hp
    exact Item.truncate_precedes (show lsn ≤ c.startLsn by omega)

/-- A window that is passed takes its items with it. -/
theorem Placed.passed_advance (hp : Placed origin h) {hm : ℕ} (hi : inc = h.lsnEnd+1)
    (hs : h'.lsnStart = (nextWindow h.lsnStart h.lsnEnd inc hm).1)
    (hc : h'.cursor = none) {item : Item}
    (hit : Passed h item ∨ h.lsnStart ≤ h.lsnEnd ∧ item.lsn ≤ h.lsnEnd) : Passed h' item := by
  cases item with
  | change c => exact (hp.behind_advance hi hs hc c.2).mpr hit
  | truncate lsn =>
    show lsn < h'.lsnStart
    rw [hs,nextWindow]
    rcases hit with hl | ⟨ho,hle⟩
    · have hl' : lsn < h.lsnStart := hl
      split
      · exact hl'
      · show lsn < inc
        omega
    · have hle' : lsn ≤ h.lsnEnd := hle
      rw [if_neg (by omega)]
      show lsn < inc
      omega

lemma Flow.drain {answer : Except Error (ℕ × ℕ)} (hpl : Placed origin h)
    (hwi : h.lsnStart ≤ h.lsnEnd) (han : AnswersAdvance h answer)
    (hadv : ∃ n, answer = .ok n) (hf : Flow T origin h returned delivered buffered) :
    ∃ delivered' buffered', Flow T origin (h.drainPage answer).1
      (returned++eventsOf (h.drainPage answer).2) delivered' buffered' := by
  have ho := drainPage_outcome h answer
  generalize h.drainPage answer = out at ho ⊢
  have hal : List.Forall₂ (Item.Of origin.txIdFromSeqval) (delivered++buffered++[]) (returned++h.windowBuffer) := by
    rw [append_nil]
    exact rel_append hf.delivered_of hf.buffered_of
  cases ho with
  | kept hm =>
    have hs : delivered++buffered.take h.maxEventsPerPoll++buffered.drop h.maxEventsPerPoll =
        delivered++buffered := by
      rw [append_assoc,take_append_drop]
    refine ⟨delivered++buffered.take h.maxEventsPerPoll,buffered.drop h.maxEventsPerPoll,
      rel_append hf.delivered_of (forall₂_take _ hf.buffered_of),
      forall₂_drop _ hf.buffered_of,?_,?_,?_,fun hn => absurd hn hm⟩
    · rw [hs]
      exact hf.ordered
    · rw [hs]
      exact hf.known
    · rw [hs]
      exact hf.reached
  | resumed cut hp =>
    have hpa : ∀ item ∈ delivered++buffered, Passed {h with
        windowBuffer := [], cursor := some cut, pendingCursor := none} item := by
      intro item hi
      rcases hf.reached item hi with hb | hw
      · cases item with
        | change =>
          rcases hb with hlt | ⟨cursor,hc,hl⟩
          · exact Or.inl hlt
          · exact Or.inr ⟨cut,rfl,hl.trans (hpl.pending_past cut cursor hp hc)⟩
        | truncate => exact hb
      · obtain ⟨c,rfl,hl⟩ := hw.2 cut hp
        exact Or.inr ⟨cut,rfl,hl⟩
    exact ⟨delivered++buffered,[],by simpa [eventsOf] using hal,List.Forall₂.nil,
      by simpa using hf.ordered,by simpa using hf.known,
      fun item hi => Or.inl (hpa item (by simpa using hi)),fun _ => hpa⟩
  | advanced inc har hp ha =>
    subst ha
    have hpa : ∀ item ∈ delivered++buffered, Passed {h with
        windowBuffer := []
        lsnStart := (nextWindow h.lsnStart h.lsnEnd inc har).1
        lsnEnd := har
        cursor := none
        pendingCursor := none} item := by
      intro item hi
      refine hpl.passed_advance han rfl rfl ?_
      rcases hf.reached item hi with hb | hw
      · exact Or.inl hb
      · exact Or.inr ⟨hwi,hw.1⟩
    exact ⟨delivered++buffered,[],by simpa [eventsOf] using hal,List.Forall₂.nil,
      by simpa using hf.ordered,by simpa using hf.known,
      fun item hi => Or.inl (hpa item (by simpa using hi)),fun _ => hpa⟩
  | failed e hp ha =>
    obtain ⟨n,hok⟩ := hadv
    cases ha.symm.trans hok

lemma Flow.fill {items : List Item} (hf : Flow T origin h returned delivered buffered)
    (hbu : h.windowBuffer = []) (hs : h'.lsnStart = h.lsnStart)
    (hc : h'.cursor = h.cursor) (hi : List.Forall₂ (Item.Of origin.txIdFromSeqval) items h'.windowBuffer)
    (ho : items.Pairwise Item.Precedes) (ha : ∀ item ∈ items, item.Known T origin.metas ∧
      (∀ b ∈ delivered, b.Precedes item) ∧ Within h' item) : Flow T origin h' returned delivered items := by
  have hp : ∀ item ∈ delivered, Passed h' item := by
    intro item hit
    have hb := hf.settled hbu item hit
    cases item with
    | change =>
      rw [Passed,Behind,hs,hc]
      exact hb
    | truncate =>
      rw [Passed,hs]
      exact hb
  refine ⟨hf.delivered_of,hi,?_,?_,?_,fun _ => hp⟩
  · rw [pairwise_append]
    exact ⟨(pairwise_append.mp hf.ordered).1,ho,fun b hb item hit =>
      (ha item hit).2.1 b hb⟩
  · intro item hit
    rcases mem_append.mp hit with hol | hn
    · exact hf.known item (mem_append_left _ hol)
    · exact (ha item hn).1
  · intro item hit
    rcases mem_append.mp hit with hol | hn
    · exact Or.inl (hp item hol)
    · exact Or.inr (ha item hn).2.2

lemma Flow.precedes_truncate (hf : Flow T origin h returned delivered buffered) {lsn : ℕ}
    (hl : lsn < lsnBound) (ha : ∀ e ∈ returned, e.source.offset ≤ lsnBytesToHex lsn) :
    ∀ b ∈ delivered, b.Precedes (.truncate lsn) := by
  intro b hb
  obtain ⟨e,he,ho⟩ := forall₂_mem_right hf.delivered_of.flip hb
  have ho' : b.Of _ e := ho
  have hle := ha e he
  rw [ho'.offset,lsnBytesToHex_le_iff (hf.known b (mem_append_left _ hb)).1 hl] at hle
  exact Item.precedes_truncate hle

lemma truncateEvents_of (tx : String → UInt64) (h : SqlServerStreamHandle) (now : UInt64) (rs : List TruncateEventRow) :
    List.Forall₂ (fun lsn e => (Item.truncate lsn).Of tx e) (rs.map h.truncateLsn) (rs.map (h.truncateEvent now)) := by
  rw [forall₂_map_left_iff,forall₂_map_right_iff,forall₂_same]
  exact fun row _ => ⟨rfl,rfl⟩

lemma Flow.page (hf : Flow T origin h returned delivered buffered) (hpl : Placed origin h) (hb : h.windowBuffer = [])
    (ht : T.TenBytes) {f : Fetched} (hs : SoundPage T h f) {tableIsAllowed}
    {c : CaptureInstanceMeta × SqlServerRawChange}
    (hc : c ∈ f.page.filter (isAnnounced tableIsAllowed)) :
    (Item.change c).Known T origin.metas ∧ c.2.startLsn ≤ h.lsnEnd ∧ (∀ cut, f.truncationCursor = some cut → c.2.rank ≤ cut.rank) ∧
      ∀ b ∈ delivered, b.Precedes (.change c) := by
  have hp := (mem_filter.mp hc).1
  have hu := (hs.sound c hp).2
  have hr := mem_unread.mp hu
  refine ⟨⟨(ht c.1 c.2 hr.1).1,fun c' hc' => ?_⟩,hr.2.2.1,(mem_page.mp hp).2,fun b hbe =>
    (hf.settled hb b hbe).precedes hu⟩
  obtain rfl := Item.change.inj hc'
  exact ⟨hpl.metas ▸ (hs.sound c hp).1,hr.1⟩

lemma Flow.truncates (hfl : Flow T origin s.handle returned delivered buffered)
    (ht : AnswersTruncates s answer) (ho : PassOrdered returned s answer)
    (hre : s.handle.fetchAndEmitTruncateEvents answer.truncates = (m,.ok events))
    {f : Fetched} (hf : s.handle.fetchAll answer.fetch 0 s.handle.metas ⟨none,[]⟩ = .ok f) :
    ∃ lsns, List.Forall₂ (fun lsn e => (Item.truncate lsn).Of origin.txIdFromSeqval e) lsns events ∧
      (∀ lsn ∈ lsns, lsn ≤ s.handle.lsnEnd ∧ ∀ b ∈ delivered, b.Precedes (.truncate lsn)) ∧
      (∀ lsn ∈ lsns, f.truncationCursor = none) ∧ (f.flat = [] → lsns.Pairwise (· ≤ ·)) := by
  obtain ⟨kept,rfl,hk⟩ := truncates_rows hre
  refine ⟨kept.map s.handle.truncateLsn,truncateEvents_of _ s.handle answer.truncates.now kept,?_,?_,?_⟩
  · intro lsn hl
    obtain ⟨row,hro,rfl⟩ := mem_map.mp hl
    obtain ⟨rs,hc,hr,hs⟩ := hk (ne_nil_of_mem hro)
    have hle := ht.2 rs hr row (hs.subset hro)
    exact ⟨hle,hfl.precedes_truncate (hle.trans_lt ht.1) (ho.after rs hc hr row (hs.subset hro))⟩
  · intro lsn hl
    obtain ⟨row,hro,rfl⟩ := mem_map.mp hl
    obtain ⟨rs,hc,hr,hs⟩ := hk (ne_nil_of_mem hro)
    exact ho.whole rs f hc hr (ne_nil_of_mem (hs.subset hro)) hf
  · intro he
    by_cases hn : kept = []
    · rw [hn]
      exact List.Pairwise.nil
    · obtain ⟨rs,hc,hr,hs⟩ := hk hn
      exact (ho.sorted rs f hc hr hf he).sublist (hs.map _)

/-- Truncates that come alone are returned after what was returned. -/
theorem Flow.pass_alone (hf : Flow T origin h returned delivered buffered) (hpl : Placed origin h)
    (hb : h.windowBuffer = []) (hbo : h.lsnEnd < lsnBound) (hm : ℕ)
    (hi : inc = h.lsnEnd+1)
    (hst : h'.lsnStart = (nextWindow h.lsnStart h.lsnEnd inc hm).1)
    (hc : h'.cursor = none) (hb' : h'.windowBuffer = []) {lsns : List ℕ}
    (he : List.Forall₂ (fun lsn e => (Item.truncate lsn).Of origin.txIdFromSeqval e) lsns events)
    (hl : ∀ lsn ∈ lsns, lsn ≤ h.lsnEnd ∧ ∀ b ∈ delivered, b.Precedes (.truncate lsn))
    (hs : lsns.Pairwise (· ≤ ·)) :
    Flow T origin h' (returned++events) (delivered++lsns.map .truncate) [] := by
  have hp : ∀ item ∈ delivered++lsns.map .truncate, Passed h' item := by
    intro item hit
    refine hpl.passed_advance hi hst hc ?_
    rcases mem_append.mp hit with hol | hn
    · exact Or.inl (hf.settled hb item hol)
    · obtain ⟨lsn,hls,rfl⟩ := mem_map.mp hn
      have hle := (hl lsn hls).1
      by_cases ho : h.lsnStart ≤ h.lsnEnd
      · exact Or.inr ⟨ho,hle⟩
      · exact Or.inl (show lsn < h.lsnStart by omega)
  refine ⟨rel_append hf.delivered_of ?_,by rw [hb']; exact List.Forall₂.nil,?_,?_,
    fun item hit => Or.inl (hp item (by simpa using hit)),fun _ => hp⟩
  · rw [forall₂_map_left_iff]
    exact he
  · rw [append_nil,pairwise_append,pairwise_map]
    refine ⟨(pairwise_append.mp hf.ordered).1,hs.imp Item.truncate_precedes,?_⟩
    intro b hbe item hit
    obtain ⟨lsn,hls,rfl⟩ := mem_map.mp hit
    exact (hl lsn hls).2 b hbe
  · intro item hit
    rw [append_nil] at hit
    rcases mem_append.mp hit with hol | hn
    · exact hf.known item (mem_append_left _ hol)
    · obtain ⟨lsn,hls,rfl⟩ := mem_map.mp hn
      exact Item.known_truncate ((hl lsn hls).1.trans_lt hbo)

lemma passed_events (events : List Event) (expired : Bool) : ((if !events.isEmpty then some (Except.ok events)
      else if expired then some (.ok []) else none : Option (Except Error (List Event))).map
        eventsOf).getD [] = events := by
  cases events with
  | nil => cases expired <;> rfl
  | cons => rfl

lemma Flow.pass (hte : T.TenBytes) (hr : Rests origin s.handle)
    (hfl : Flow T origin s.handle returned delivered buffered) (hb : s.handle.windowBuffer = [])
    (han : AnswersPass T s answer) (ht : AnswersTruncates s answer)
    (ho : PassOrdered returned s answer) :
    ∃ delivered' buffered', Flow T origin (readPass s answer).1.handle
      (returned++((readPass s answer).2.map eventsOf).getD []) delivered' buffered' := by
  have hp := hr.toPlaced
  have hsa : ∃ delivered' buffered', Flow T origin s.handle (returned++[]) delivered' buffered' :=
    ⟨delivered,buffered,by simpa using hfl⟩
  have hou := han.outcome hb
  generalize readPass s answer = out at hou ⊢
  cases hou with
  | fetchFailed | truncatesFailed => exact hsa
  | advanceFailed f m events e hf hem hre hadv =>
    obtain ⟨n,hok⟩ := ho.advances
    cases hadv.symm.trans hok
  | passed f m events inc har hf hem hre hadv =>
    have hi := han.incremented hadv
    obtain ⟨lsns,he,hl,_,hso⟩ := hfl.truncates ht ho hre hf
    refine ⟨delivered++lsns.map .truncate,[],?_⟩
    rw [passed_events,hadv]
    simp only [advanceWindow]
    refine hfl.pass_alone hp hb ht.1 har hi ?_ ?_ ?_ he hl (hso hem)
    · rfl
    · rfl
    · exact hb
  | fillFailed f bs ch m e hf hfo ha =>
    rw [hp.txId] at ha
    have hpa : ∀ c ∈ f.page.filter (isAnnounced s.handle.tableIsAllowed), _ := fun c hc =>
      hfl.page hp hb hte (fetchAll_sound han hf) hc
    obtain ⟨hof,hit⟩ := changes_items ha ((page_sorted f).filter _)
    refine ⟨delivered,(f.page.filter (isAnnounced s.handle.tableIsAllowed)).map .change,?_⟩
    simp only [Option.map_some,Option.getD_some,eventsOf,append_nil]
    refine hfl.fill hb rfl rfl hof hit fun x hite => ?_
    obtain ⟨c,hc,rfl⟩ := mem_map.mp hite
    obtain ⟨hbo,hw,-,hpr⟩ := hpa c hc
    refine ⟨hbo,hpr,hw,fun cut hcu => ?_⟩
    cases (hr.settled hb).symm.trans hcu
  | filled f bs ch m events h hf hfo ha hre hh =>
    rw [hp.txId] at ha
    have hpa : ∀ c ∈ f.page.filter (isAnnounced s.handle.tableIsAllowed), _ := fun c hc =>
      hfl.page hp hb hte (fetchAll_sound han hf) hc
    obtain ⟨lsns,he,hl,hw,_⟩ := hfl.truncates ht ho hre hf
    obtain ⟨items,hof,hit,hm⟩ := mergeTruncates_items ha ((page_sorted f).filter _)
      (fun c hc => (hpa c hc).1.1) he fun lsn hls => (hl lsn hls).1.trans_lt ht.1
    obtain ⟨hfi,hwi,hans⟩ := hp.filled han hf hfo hh
    have hfl' : Flow T origin h returned delivered items := by
      have hbu : List.Forall₂ (Item.Of origin.txIdFromSeqval) items h.windowBuffer := by
        rw [hh]
        exact hof
      refine hfl.fill hb (by rw [hh]) (by rw [hh]) hbu hit fun x hite => ?_
      rw [hh]
      rcases mem_append.mp (hm x hite) with hch | htr
      · obtain ⟨c,hc,rfl⟩ := mem_map.mp hch
        obtain ⟨hbo,hwi,hcut,hpr⟩ := hpa c hc
        exact ⟨hbo,hpr,hwi,fun cut hcu => ⟨c,rfl,hcut cut hcu⟩⟩
      · -- truncates only come with a page that was not cut
        obtain ⟨lsn,hls,rfl⟩ := mem_map.mp htr
        refine ⟨Item.known_truncate ((hl lsn hls).1.trans_lt ht.1),(hl lsn hls).2,(hl lsn hls).1,fun cut hcu => ?_⟩
        cases (hw lsn hls).symm.trans hcu
    exact hfl'.drain hfi hwi hans ho.advances

structure CallOrdered (t : StreamTrace) (answer : CallAnswer) : Prop where
  settles : ∃ next, answer.settle = .ok next
  truncates : t.session.handle.windowBuffer = [] → LoopMeets readPass AnswersTruncates t.session answer.passes
  passes : t.session.handle.windowBuffer = [] → LoopMeets readPass (PassOrdered t.returned) t.session answer.passes

structure InOrder (T : ChangeTables) (origin h : SqlServerStreamHandle)
    (returned : List Event) : Prop where
  rests : Rests origin h
  flow : ∃ delivered buffered, Flow T origin h returned delivered buffered

lemma InOrder.poll {t : StreamTrace} {answer : CallAnswer} (hte : T.TenBytes)
    (hd : (origin.metas.map (·.captureInstance)).Nodup)
    (hi : InOrder T origin t.session.handle t.returned) (ha : AnswersCall T t.session answer)
    (ho : CallOrdered t answer) :
    InOrder T origin (t.poll answer).session.handle (t.poll answer).returned := by
  obtain ⟨hr,delivered,buffered,hf⟩ := hi
  rw [StreamTrace.poll]
  have hou := nextEvents_outcome hr.requeued ha.refresh
  cases hca : nextEvents t.session answer with
  | none => exact ⟨hr,delivered,buffered,hf⟩
  | some r =>
    obtain ⟨s',r⟩ := r
    rw [hca] at hou
    generalize hout : some (s',r) = out at hou
    cases hou with
    | refreshFailed =>
      cases hout
      exact ⟨hr,delivered,buffered,by simpa [eventsOf] using hf⟩
    | schema rf events hre hc =>
      exact absurd (schemaEvents_same _ (hr.metas ▸ hd)) hc
    | drained rf hre hb =>
      cases hout
      have hw := hr.window hb
      exact ⟨drainPage_rests answer.settle hr.toPlaced hw,hf.drain hr.toPlaced hw ha.settle ho.settles⟩
    | read rf hre hb =>
      rw [← hout]
      refine loop_keeps (P := fun s returned => InOrder T origin s.handle returned) ?_ ⟨hr,delivered,buffered,hf⟩ hb
        (loopMeets_and (ha.passes hb) (loopMeets_and (ho.truncates hb) (ho.passes hb))) hout.symm
      rintro s pass ⟨hs,delivered,buffered,hf⟩ hb ⟨hpa,ht,hp⟩
      obtain ⟨hr',hse⟩ := readPass_rests hs hb hpa
      exact ⟨⟨hr',hf.pass hte hs hb hpa ht hp⟩,hse⟩
end
lemma start_rests {cf : StreamConfig} {as : StreamAnswers} {rf : Option Offset}
    {h : SqlServerStreamHandle} (hs : startSqlserverStream cf as rf = .ok h) :
    Rests h h :=
  (start_readsOn (T := ⟨fun _ => [],fun _ => List.Pairwise.nil,by simp⟩) hs).rests

/-- In a run whose windows can be moved on and whose truncates are not below what was returned, come
with pages that were not cut, and are sorted if they come alone, the events are returned in the order of
their LSNs, and changes in the order of their tables. -/
theorem delivery_in_order (T : ChangeTables) (hten : T.TenBytes) {config : StreamConfig}
    {answers : StreamAnswers} {resumeFrom : Option Offset} {h : SqlServerStreamHandle}
    (hstart : startSqlserverStream config answers resumeFrom = .ok h)
    (hdistinct : (h.metas.map (·.captureInstance)).Nodup) {calls : List CallAnswer}
    (hcalls : Meets StreamTrace.poll
      (fun t answer => AnswersCall T t.session answer ∧ CallOrdered t answer) (.start h) calls) :
    ∃ items, List.Forall₂ (Item.Of h.txIdFromSeqval) items (run StreamTrace.poll (.start h) calls).returned ∧
      (∀ item ∈ items, item.Known T h.metas) ∧ items.Pairwise Item.Precedes := by
  have hf : InOrder T h (StreamTrace.start h).session.handle (StreamTrace.start h).returned := by
    have hb : h.windowBuffer = [] := (startSqlserverStream_ok hstart).buffer
    refine ⟨start_rests hstart,[],[],List.Forall₂.nil,?_,List.Pairwise.nil,by simp,by simp,by simp⟩
    show List.Forall₂ (Item.Of h.txIdFromSeqval) [] h.windowBuffer
    rw [hb]
    exact List.Forall₂.nil
  obtain ⟨_,delivered,buffered,hfl⟩ := run_invariant_of_meets _
    (P := fun t : StreamTrace => InOrder T h t.session.handle t.returned)
    (fun t answer hi hc => hi.poll hten hdistinct hc.1 hc.2) hf hcalls
  exact ⟨delivered,hfl.delivered_of,fun item hi => hfl.known item (mem_append_left _ hi),
    (List.pairwise_append.mp hfl.ordered).1⟩

lemma twoOrders_tenBytes : twoOrders.TenBytes := by
  have ha : ∀ c ∈ [insertAt 5,insertAt 6], c.startLsn < lsnBound ∧ c.seqval < lsnBound := by decide
  exact fun _ => ha
def truncatedAt (lsn : ℕ) : TruncateEventRow := ⟨1,"dbo","orders",some lsn,0⟩

lemma ordersCall_ordered {t : StreamTrace} {lsnEnd : ℕ} (hen : t.session.handle.lsnEnd = lsnEnd)
    (hbo : lsnEnd < lsnBound) {rs : List SqlServerRawChange} {truncates : List TruncateEventRow}
    (hl : ∀ row ∈ truncates, row.maxLsn = some lsnEnd)
    (haf : truncates ≠ [] → ∀ e ∈ t.returned, e.source.offset ≤ lsnBytesToHex lsnEnd)
    (hw : truncates ≠ [] → t.session.handle.windowBuffer = [] →
      t.session.handle.fetchAll (ordersPass lsnEnd rs (.ok truncates)).fetch 0
        t.session.handle.metas ⟨none,[]⟩ = .ok ⟨none,[]⟩) :
    CallOrdered t (ordersCall lsnEnd rs (.ok truncates)) := by
  have hro : ∀ row ∈ truncates, t.session.handle.truncateLsn row = lsnEnd := fun row hro => by
    rw [truncateLsn,hl row hro]
    rfl
  refine ⟨⟨_,rfl⟩,fun _ => loopMeets_cons ⟨hen ▸ hbo,?_⟩ fun _ => trivial,fun hbu =>
    loopMeets_cons ⟨⟨_,rfl⟩,?_,?_,?_⟩ fun _ => trivial⟩
  · intro r hr row hm
    cases hr
    rw [hro row hm,hen]
  · intro r _ hr row hm e he
    cases hr
    rw [hro row hm]
    exact haf (ne_nil_of_mem hm) e he
  · intro r f _ hr hn hf
    cases hr
    rw [← Except.ok.inj ((hw hn hbu).symm.trans hf)]
  · intro r f _ hr _ _
    cases hr
    rw [pairwise_map]
    exact pairwise_of_forall_mem_list fun a ha b hb => by rw [hro a ha,hro b hb]

/-- Two inserts, and a truncate behind them. -/
def truncatedOrders : List CallAnswer := [ordersCall 6 [insertAt 5] (.ok []),ordersCall 6 [insertAt 6] (.ok []),
    ordersCall 6 [] (.ok [truncatedAt 6])]

theorem delivery_in_order_sample : ∃ items, List.Forall₂ (Item.Of (ordersStream 6).txIdFromSeqval) items
        (run StreamTrace.poll (.start (ordersStream 6)) truncatedOrders).returned ∧
      (∀ item ∈ items, item.Known twoOrders (ordersStream 6).metas) ∧ items.Pairwise Item.Precedes := by
  have hc : Meets StreamTrace.poll (fun t answer => AnswersCall twoOrders t.session answer ∧ CallOrdered t answer)
      (.start (ordersStream 6)) truncatedOrders := by
    refine ⟨⟨ordersCall_answers rfl rfl fun _ => by decide +kernel,?_⟩,
      ⟨ordersCall_answers rfl rfl fun _ => by decide +kernel,?_⟩,
      ⟨ordersCall_answers rfl rfl fun _ => by decide +kernel,?_⟩,trivial⟩
    · exact ordersCall_ordered rfl (by decide) (by simp) (fun hn => absurd rfl hn) fun hn => absurd rfl hn
    · exact ordersCall_ordered rfl (by decide) (by simp) (fun hn => absurd rfl hn) fun hn => absurd rfl hn
    · exact ordersCall_ordered rfl (by decide) (by decide) (fun _ => by decide +kernel) fun _ _ => rfl
  exact delivery_in_order twoOrders twoOrders_tenBytes ordersStream_started (by decide) hc

/-- A truncate behind both inserts, read with the page of the first. -/
def earlyTruncate : List CallAnswer :=
  [ordersCall 7 [insertAt 5] (.ok [truncatedAt 7]),ordersCall 7 [] (.ok []),ordersCall 7 [insertAt 6] (.ok [])]

/-- The truncate is returned before the insert that was cut off, whose LSN is smaller. -/
theorem truncate_before_change : startSqlserverStream ordersConfig (ordersAnswers 7) none = .ok (ordersStream 7) ∧
      Meets StreamTrace.poll (fun t answer => AnswersCall twoOrders t.session answer)
        (.start (ordersStream 7)) earlyTruncate ∧
      (run StreamTrace.poll (.start (ordersStream 7)) earlyTruncate).returned.map (fun e => (e.op,e.source.offset)) =
        [(.insert,lsnBytesToHex 5),(.truncate,lsnBytesToHex 7),(.insert,lsnBytesToHex 6)] := by
  refine ⟨rfl,⟨?_,?_,?_,trivial⟩,by decide +kernel⟩
  · exact ordersCall_answers rfl rfl fun _ => by decide +kernel
  · exact ordersCall_answers rfl rfl fun hb => absurd hb (by decide +kernel)
  · exact ordersCall_answers rfl rfl fun _ => by decide +kernel
end Rustcdc.Sqlserver
