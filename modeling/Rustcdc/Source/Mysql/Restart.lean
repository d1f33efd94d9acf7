import Rustcdc.Runtime.Resume
import Rustcdc.Source.Mysql.Stream

/-! The MySQL stream as a connector: every event of a transaction carries the position the
transaction ends at, and resumes there. -/
namespace Rustcdc.Mysql
open List MysqlStreamHandle
section
-- the server's order of its binlog files
variable (fileIndex : String → ℕ)

/-- A binlog position as a point of the whole log. -/
def coordinate (binlogFile : String) (binlogPos : UInt32) : ℕ := fileIndex binlogFile*2^32+binlogPos.toNat

def endOf (e : Event) : ℕ :=
  match parseMysqlStreamOffset e.source.offset with
  | .ok (binlogFile,binlogPos,_) => coordinate fileIndex binlogFile binlogPos
  | .error _ => 0

def rank : Offset → ℕ
  | .mysql _ _ binlogFile binlogPos _ _ => coordinate fileIndex binlogFile binlogPos
  | _ => 0

/-- A change whose transaction ends at the position. -/
structure EndsAt (binlogFile : String) (binlogPos : UInt32) (e : Event) : Prop where
  change : e.snapshot = none
  stamp : ∃ gtid, e.source.offset = formatMysqlSourceOffset binlogFile binlogPos gtid

/-- A file name the textual position can carry. -/
def Nameable (binlogFile : String) : Prop := ':' ∉ binlogFile.toList
  deriving Decidable

def Carried (e : Event) : Prop := ∃ binlogFile binlogPos, Nameable binlogFile ∧ EndsAt binlogFile binlogPos e

structure Good (h : MysqlStreamHandle) : Prop where
  requeued : h.requeuedEvents = []
  held : ∀ e ∈ h.partialTxEvents, e.snapshot = none

def closes : MysqlBinlogMessage → Option (String × UInt32)
  | .xid _ _ binlogFile binlogPos _ => some (binlogFile,binlogPos)
  | .ddl _ _ binlogFile binlogPos => some (binlogFile,binlogPos)
  | .truncate _ _ _ binlogFile binlogPos => some (binlogFile,binlogPos)
  | _ => none

/-- The server's side of a provider poll: positions come in log order. -/
def InLogOrder : ℕ → List MysqlBinlogMessage → Prop
  | _, [] => True
  | last, message::messages =>
    match closes message with
    | none => InLogOrder last messages
    | some (binlogFile,binlogPos) => Nameable binlogFile ∧ last ≤ coordinate fileIndex binlogFile binlogPos ∧
        InLogOrder (coordinate fileIndex binlogFile binlogPos) messages

def Sent (polls : List (Except Error (List MysqlBinlogMessage))) : Prop :=
  ∀ poll ∈ polls, ∀ messages ∈ poll.toOption, InLogOrder fileIndex 0 messages

instance inLogOrderDecidable (fileIndex : String → ℕ) : (last : ℕ) →
    (messages : List MysqlBinlogMessage) → Decidable (InLogOrder fileIndex last messages)
  | _, [] => .isTrue trivial
  | last, message::messages => by
    have := fun last => inLogOrderDecidable fileIndex last messages
    unfold InLogOrder
    split <;> infer_instance

instance (polls : List (Except Error (List MysqlBinlogMessage))) : Decidable (Sent fileIndex polls) := by
  unfold Sent
  infer_instance

variable {fileIndex} {binlogFile : String} {binlogPos : UInt32}

lemma EndsAt.endOf_eq {e : Event} (h : EndsAt binlogFile binlogPos e) (hn : Nameable binlogFile) :
    endOf fileIndex e = coordinate fileIndex binlogFile binlogPos := by
  obtain ⟨g,ho⟩ := h.stamp
  rw [endOf,ho,parseMysqlStreamOffset_format hn]
section
variable {h : MysqlStreamHandle} (hg : Good h) (ts : UInt64) (bf : String) (bp : UInt32)
include hg

lemma commitCurrentTransaction_endsAt (g : Option String) : Good (h.commitCurrentTransaction ts bf bp g).1 ∧
      ∀ e ∈ (h.commitCurrentTransaction ts bf bp g).2, EndsAt bf bp e := by
  refine ⟨⟨hg.requeued,by simp [commitCurrentTransaction]⟩,fun e he => ?_⟩
  obtain ⟨i,hi,rfl⟩ := mem_mapIdx.mp he
  have hc : h.partialTxEvents[i].snapshot = none := hg.held _ (getElem_mem hi)
  exact ⟨hc,_,rfl⟩

lemma implicitCommit_endsAt : Good (h.implicitCommit ts bf bp).1 ∧
      ∀ e ∈ (h.implicitCommit ts bf bp).2, EndsAt bf bp e := by
  unfold implicitCommit
  split
  · exact ⟨hg,by simp⟩
  · split
    · exact commitCurrentTransaction_endsAt hg ts bf bp none
    · exact ⟨⟨hg.requeued,by simp⟩,by simp⟩
end
variable {h : MysqlStreamHandle}

lemma pushRow_good (hgood : Good h) (op : Operation) (c : MysqlRowChange) : Good (h.pushRow op c) := by
  unfold pushRow
  split
  · refine ⟨hgood.requeued,fun e he => ?_⟩
    rcases mem_append.mp he with he | he
    · exact hgood.held e he
    · obtain rfl := mem_singleton.mp he
      rfl
  · exact hgood

/-- A statement outside transactions ends where the transaction it closes does. -/
theorem statement_endsAt {ended : List Event} (hen : ∀ e ∈ ended, EndsAt binlogFile binlogPos e)
    {st : Event} (hs : EndsAt binlogFile binlogPos st) (allowed : Bool) :
    ∀ e ∈ ended++(if allowed then [st] else []), EndsAt binlogFile binlogPos e := by
  intro e he
  rcases mem_append.mp he with he | he
  · exact hen e he
  · cases allowed with
    | false => simp at he
    | true =>
      obtain rfl := mem_singleton.mp he
      exact hs

/-- A message releases events only where it ends a transaction, and they end there. -/
theorem processMessage_endsAt (hgood : Good h) (m : MysqlBinlogMessage) :
    Good (h.processMessage m).1 ∧ ∀ e ∈ (h.processMessage m).2, ∃ binlogFile binlogPos,
        closes m = some (binlogFile,binlogPos) ∧ EndsAt binlogFile binlogPos e := by
  cases m with
  | begin => exact ⟨⟨hgood.requeued,by simp [processMessage]⟩,
      by simp [processMessage]⟩
  | writeRows | updateRows | deleteRows => exact ⟨pushRow_good hgood _ _,by simp [processMessage]⟩
  | xid txId timestampMs binlogFile binlogPos gtid =>
    obtain ⟨hen,hev⟩ := commitCurrentTransaction_endsAt hgood timestampMs binlogFile binlogPos gtid
    exact ⟨hen,fun e he => ⟨_,_,rfl,hev e he⟩⟩
  | rotate => exact ⟨⟨hgood.requeued,hgood.held⟩,
      by simp [processMessage]⟩
  | gtid =>
    simp only [processMessage]
    exact ⟨⟨hgood.requeued,hgood.held⟩,by simp⟩
  | ddl c timestampMs binlogFile binlogPos | truncate sc t timestampMs binlogFile binlogPos =>
    obtain ⟨hen,hev⟩ := implicitCommit_endsAt hgood timestampMs binlogFile binlogPos
    refine ⟨⟨hen.requeued,hen.held⟩,fun e he => ⟨_,_,rfl,?_⟩⟩
    simp only [processMessage] at he
    refine statement_endsAt hev ?_ _ e he
    exact ⟨rfl,_,rfl⟩
  | heartbeat => exact ⟨hgood,by simp [processMessage]⟩

lemma processMessages_ordered (hgood : Good h) {ms : List MysqlBinlogMessage} {l : ℕ}
    (hs : InLogOrder fileIndex l ms) :
    Good (h.processMessages ms).1 ∧ (∀ e ∈ (h.processMessages ms).2, Carried e ∧ l ≤ endOf fileIndex e) ∧
      (h.processMessages ms).2.Pairwise (fun a b => endOf fileIndex a ≤ endOf fileIndex b) := by
  induction ms generalizing h l with
  | nil => exact ⟨hgood,by simp [processMessages],.nil⟩
  | cons m ms ih =>
    obtain ⟨hon,hr⟩ := processMessage_endsAt hgood m
    rw [processMessages]
    dsimp only
    unfold InLogOrder at hs
    split at hs
    · rename_i hop
      -- nothing is released before the transaction ends
      have hni : (h.processMessage m).2 = [] := by
        refine eq_nil_iff_forall_not_mem.mpr fun e he => ?_
        obtain ⟨_,_,hc,_⟩ := hr e he
        cases hop.symm.trans hc
      rw [hni,nil_append]
      exact ih hon hs
    · rename_i binlogFile binlogPos hc
      obtain ⟨hn,hla,hre⟩ := hs
      obtain ⟨hgood',hl,ho⟩ := ih hon hre
      have hen : ∀ e ∈ (h.processMessage m).2, Carried e ∧
          endOf fileIndex e = coordinate fileIndex binlogFile binlogPos := by
        intro e he
        obtain ⟨file,pos,hc',hen⟩ := hr e he
        obtain ⟨rfl,rfl⟩ := Prod.mk.inj (Option.some.inj (hc.symm.trans hc'))
        exact ⟨⟨_,_,hn,hen⟩,hen.endOf_eq hn⟩
      refine ⟨hgood',fun e he => ?_,pairwise_append.mpr ⟨?_,ho,fun a ha b hb => ?_⟩⟩
      · rcases mem_append.mp he with he | he
        · exact ⟨(hen e he).1,by rw [(hen e he).2]; exact hla⟩
        · exact ⟨(hl e he).1,hla.trans (hl e he).2⟩
      · refine pairwise_iff_forall_sublist.mpr fun {a b} hsu => ?_
        rw [(hen a (hsu.subset (by simp))).2,(hen b (hsu.subset (by simp))).2]
      · rw [(hen a ha).2]
        exact (hl b hb).2

lemma passes_ordered (hgood : Good h) {polls : List (Except Error (List MysqlBinlogMessage))}
    (hs : Sent fileIndex polls) :
    Good (h.passes polls).1 ∧ ∀ es, (h.passes polls).2 = .ok es → (∀ e ∈ es, Carried e) ∧
        es.Pairwise (fun a b => endOf fileIndex a ≤ endOf fileIndex b) := by
  induction polls generalizing h with
  | nil =>
    refine ⟨hgood,fun es heq => ?_⟩
    cases heq
    simp
  | cons poll polls ih =>
    have hr : Sent fileIndex polls := fun p hp => hs p (mem_cons_of_mem _ hp)
    cases poll with
    | error => exact ⟨hgood,fun es heq => absurd heq (by simp [passes])⟩
    | ok ms =>
      have hor := hs (.ok ms) mem_cons_self ms rfl
      obtain ⟨hon,hc,ho⟩ := processMessages_ordered hgood hor
      rw [passes]
      generalize h.processMessages ms = processed at hon hc ho ⊢
      obtain ⟨h₁,released⟩ := processed
      cases released with
      | nil => exact ih hon hr
      | cons e =>
        refine ⟨hon,fun es heq => ?_⟩
        cases heq
        exact ⟨fun e he => (hc e he).1,ho⟩

/-- The stream as the durable position sees it, for a server with its files in this order. -/
def connector (fileIndex : String → ℕ) : Connector MysqlStreamHandle where
  Accepts source := source = .mysql ∨ source = .mariadb
  Good := Good
  Sent _ := Sent fileIndex
  Carried := Carried
  endOf := endOf fileIndex
  rank := rank fileIndex
  confirm_good _ _ _ hgood := hgood
  next_good h polls hgood hsent := by
    show Good (h.nextEvents polls).1
    unfold MysqlStreamHandle.nextEvents
    split
    · exact hgood
    · rw [hgood.requeued]
      exact (passes_ordered hgood hsent).1
  next_carried h polls events hgood hsent heq := by
    change (h.nextEvents polls).2 = .ok events at heq
    unfold MysqlStreamHandle.nextEvents at heq
    split at heq
    · exact absurd heq (by simp)
    · rw [hgood.requeued] at heq
      exact (passes_ordered hgood hsent).2 events heq
  carried_change e := fun ⟨_,_,_,hends⟩ => hends.change
  recorded rt e offset haccepts hgood hcarried hbuild := by
    obtain ⟨binlogFile,binlogPos,hname,hends⟩ := hcarried
    obtain ⟨gtid,hoffset⟩ := hends.stamp
    have hresume : rt.resumeOffsetFor e = e.source.offset := by
      cases hstream : rt.stream with
      | none => simp [CdcRuntime.resumeOffsetFor,hstream]
      | some h =>
        rw [CdcRuntime.resumeOffsetFor,hstream]
        rfl
    rw [hends.endOf_eq hname]
    rcases haccepts with hsource | hsource
    all_goals
      simp only [CdcRuntime.buildCheckpointOffset,hsource,hresume,hoffset,
        parseMysqlStreamOffset_format hname] at hbuild
      obtain rfl := Except.ok.inj hbuild
      exact le_rfl

instance (fileIndex : String → ℕ) (h : MysqlStreamHandle) (polls : List (Except Error (List MysqlBinlogMessage))) :
    Decidable ((connector fileIndex).Sent h polls) :=
  inferInstanceAs (Decidable (Sent fileIndex polls))
end
end Rustcdc.Mysql
