import Rustcdc.Lib.Run
import Rustcdc.Source.Mysql.GtidSet
import Rustcdc.Source.Mysql.Provider

/-! The GTID set the MySQL stream reports, against the transactions it has released.  The decoder puts
the GTID of a transaction on the message that ends it, and the stream takes it for the whole set. -/
namespace Rustcdc.Mysql
open List Machine MysqlStreamHandle

def gtidsOf (sets : List String) : Set (List Char × ℕ) := {g | ∃ set ∈ sets, g ∈ gtids set}
@[simp] lemma gtidsOf_nil : gtidsOf [] = ∅ := by
  ext g
  simp [gtidsOf]
@[simp] lemma gtidsOf_append (xs ys : List String) : gtidsOf (xs++ys) = gtidsOf xs ∪ gtidsOf ys := by
  ext g
  simp [gtidsOf,or_and_right,exists_or]
@[simp] lemma gtidsOf_singleton (set : String) : gtidsOf [set] = gtids set := by
  ext g
  simp [gtidsOf]

/-- The stream with the GTIDs of the transactions it has got through, the one it is in, and every
event released with the transactions that were complete by then. -/
structure GtidTrace where
  handle : MysqlStreamHandle
  opened : Option String
  done : List String
  released : List (Event × List String)

/-- A message that ends a transaction; a further GTID says that the last one had nothing to send. -/
def endsTransaction : MysqlBinlogMessage → Bool
  | .xid _ _ _ _ _ => true
  | .ddl _ _ _ _ => true
  | .truncate _ _ _ _ _ => true
  | .gtid _ => true
  | _ => false

namespace GtidTrace
def start (handle : MysqlStreamHandle) : GtidTrace := ⟨handle,none,[],[]⟩

variable (s : GtidTrace)

def done' (message : MysqlBinlogMessage) : List String :=
  if endsTransaction message then s.done++s.opened.toList else s.done
def opened' : MysqlBinlogMessage → Option String
  | .gtid gtid => some gtid
  | message => if endsTransaction message then none else s.opened

def note (message : MysqlBinlogMessage) : GtidTrace where
  handle := (s.handle.processMessage message).1
  opened := s.opened' message
  done := s.done' message
  released := s.released++(s.handle.processMessage message).2.map (·,s.done' message)

/-- The provider polls of a call, until one brings events. -/
def passes (s : GtidTrace) : List (Except Error (List MysqlBinlogMessage)) → GtidTrace
  | [] => s
  | .error _::_ => s
  | .ok messages::polls =>
    if (s.handle.processMessages messages).2.isEmpty then
      (run note s messages).passes polls
    else run note s messages

/-- A call. -/
def step (polls : List (Except Error (List MysqlBinlogMessage))) : GtidTrace :=
  if !s.handle.streaming then s
  else if !s.handle.requeuedEvents.isEmpty then
    {s with handle := {s.handle with requeuedEvents := []}}
  else s.passes polls

lemma run_note (ms : List MysqlBinlogMessage) : (run note s ms).handle = (s.handle.processMessages ms).1 ∧
      (run note s ms).released.map (·.1) = s.released.map (·.1)++(s.handle.processMessages ms).2 := by
  induction ms generalizing s with
  | nil => simp [processMessages]
  | cons m ms ih =>
    obtain ⟨hh,hr⟩ := ih (s.note m)
    rw [run_cons,processMessages]
    refine ⟨hh,hr.trans ?_⟩
    simp [note,Function.comp_def]

lemma step_handle (polls : List (Except Error (List MysqlBinlogMessage))) :
    (s.step polls).handle = (s.handle.nextEvents polls).1 := by
  have hp : ∀ s : GtidTrace, (s.passes polls).handle = (s.handle.passes polls).1 := by
    induction polls with
    | nil => exact fun s => rfl
    | cons poll polls ih =>
      intro s
      cases poll with
      | error => rfl
      | ok ms =>
        rw [passes,MysqlStreamHandle.passes]
        obtain ⟨hh,_⟩ := run_note s ms
        generalize s.handle.processMessages ms = processed at hh
        obtain ⟨hd,_ | ⟨e,es⟩⟩ := processed
        · rw [isEmpty_nil,if_pos rfl,ih,hh]
        · exact hh
  unfold step MysqlStreamHandle.nextEvents
  split
  · rfl
  · split
    · rfl
    · exact hp s

/-- The set, together with the transaction under way, and every stamp so far. -/
structure Tracks (start : Set (List Char × ℕ)) (s : GtidTrace) : Prop where
  set : gtids s.handle.gtid = start ∪ gtidsOf (s.done++s.opened.toList)
  stamps : ∀ released ∈ s.released, ∃ binlogFile binlogPos set,
    released.1.source.offset = formatMysqlSourceOffset binlogFile binlogPos set ∧
      gtids set = start ∪ gtidsOf released.2

/-- The end of a transaction brings no set along. -/
def Unmarked : MysqlBinlogMessage → Prop
  | .xid _ _ _ _ gtid => gtid = none
  | _ => True

variable (h : MysqlStreamHandle)
section
variable (ts : UInt64) (bf : String) (bp : UInt32)

lemma commitCurrentTransaction_stamps (g : Option String) :
    (h.commitCurrentTransaction ts bf bp g).1.gtid = g.getD h.gtid ∧ ∀ e ∈ (h.commitCurrentTransaction ts bf bp g).2,
        e.source.offset = formatMysqlSourceOffset bf bp (g.getD h.gtid) := by
  refine ⟨rfl,fun e he => ?_⟩
  obtain ⟨i,hi,rfl⟩ := mem_mapIdx.mp he
  rfl

lemma implicitCommit_stamps : (h.implicitCommit ts bf bp).1.gtid = h.gtid ∧ ∀ e ∈ (h.implicitCommit ts bf bp).2,
        e.source.offset = formatMysqlSourceOffset bf bp h.gtid := by
  unfold implicitCommit
  split
  · exact ⟨rfl,by simp⟩
  · split
    · exact commitCurrentTransaction_stamps h ts bf bp none
    · exact ⟨rfl,by simp⟩
end
lemma statement_stamps {h : MysqlStreamHandle} {t : UInt64} {bf : String} {bp : UInt32} {allowed : Bool} {ev : Event}
    (hev : ev.source.offset = formatMysqlSourceOffset bf bp (h.implicitCommit t bf bp).1.gtid) :
    ∀ e ∈ (h.implicitCommit t bf bp).2++ (if allowed = true then [ev] else []),
      e.source.offset = formatMysqlSourceOffset bf bp h.gtid := by
  obtain ⟨hg,hs⟩ := implicitCommit_stamps h t bf bp
  rw [hg] at hev
  intro e he
  rcases mem_append.mp he with he | he
  · exact hs e he
  · split at he
    · rw [mem_singleton.mp he]
      exact hev
    · cases he

/-- What one message does to the set: a GTID is merged in, the end of a transaction may bring one
of its own, nothing else changes it. -/
theorem processMessage_gtid (m : MysqlBinlogMessage) : (h.processMessage m).1.gtid =
      match m with
      | .gtid gtid => mergeGtidIntoSet h.gtid gtid
      | .xid _ _ _ _ gtid => gtid.getD h.gtid
      | _ => h.gtid := by
  have hp : ∀ op c, (h.pushRow op c).gtid = h.gtid := by
    intro op c
    unfold pushRow
    split <;> rfl
  cases m with
  | writeRows | updateRows | deleteRows => exact hp _ _
  | ddl => exact (implicitCommit_stamps h _ _ _).1
  | truncate =>
    exact (implicitCommit_stamps h _ _ _).1
  | begin _ _ | xid _ _ _ _ _ | rotate _ _ | gtid _ | heartbeat => rfl

/-- Every event a message releases ends a transaction, and is stamped with the set the stream has
afterwards. -/
theorem processMessage_stamps (m : MysqlBinlogMessage) : ∀ e ∈ (h.processMessage m).2,
      (endsTransaction m = true ∧ ∀ gtid, m ≠ .gtid gtid) ∧
      ∃ bf bp, e.source.offset = formatMysqlSourceOffset bf bp (h.processMessage m).1.gtid := by
  intro e he
  rw [processMessage_gtid]
  cases m with
  | xid _ timestampMs bf bp gtid =>
    refine ⟨⟨rfl,by simp⟩,bf,bp,?_⟩
    exact (commitCurrentTransaction_stamps h timestampMs bf bp gtid).2 e he
  | ddl c timestampMs bf bp | truncate sc t timestampMs bf bp =>
    exact ⟨⟨rfl,by simp⟩,bf,bp,statement_stamps rfl e he⟩
  | begin _ _ | writeRows _ | updateRows _ | deleteRows _ | rotate _ _ | gtid _ | heartbeat =>
    cases he

variable {s : GtidTrace}

lemma Tracks.note {st : Set (List Char × ℕ)} (h : Tracks st s) {m : MysqlBinlogMessage} (hk : Unmarked m) :
    Tracks st (s.note m) := by
  have hs : gtids (s.note m).handle.gtid = st ∪ gtidsOf ((s.note m).done++(s.note m).opened.toList) := by
    change gtids (s.handle.processMessage m).1.gtid = st ∪ gtidsOf (s.done' m++(s.opened' m).toList)
    rw [processMessage_gtid]
    cases m with
    | gtid =>
      dsimp only
      rw [gtids_mergeGtidIntoSet,h.set]
      simp [done',opened',endsTransaction,Set.union_assoc]
    | xid _ _ _ _ gtid =>
      obtain rfl : gtid = none := hk
      change gtids s.handle.gtid = _
      rw [h.set]
      simp [done',opened',endsTransaction]
    | ddl _ _ _ _ | truncate _ _ _ _ _ =>
      dsimp only
      rw [h.set]
      simp [done',opened',endsTransaction]
    | begin _ _ | writeRows _ | updateRows _ | deleteRows _ | rotate _ _ | heartbeat => exact h.set
  refine ⟨hs,fun released hr => ?_⟩
  rcases mem_append.mp hr with hr | hr
  · exact h.stamps released hr
  · obtain ⟨e,he,rfl⟩ := mem_map.mp hr
    obtain ⟨⟨hen,hg⟩,bf,bp,ho⟩ := processMessage_stamps s.handle m e he
    refine ⟨bf,bp,_,ho,?_⟩
    have hop : (s.note m).opened = none := by
      change s.opened' m = none
      unfold opened'
      split
      · exact absurd rfl (hg _)
      · rw [if_pos hen]
    rw [hop,Option.toList_none,append_nil] at hs
    exact hs

/-- What the stream reports is what was there at the start and the transactions released since, and
so is each stamp for the transactions released up to it. -/
def Exact (start : Set (List Char × ℕ)) (s : GtidTrace) : Prop := (∀ name flavor binlogFile binlogPos set state,
    s.handle.positionOffset = some (.mysql name flavor binlogFile binlogPos set state) →
      gtids set = start ∪ gtidsOf s.done) ∧
    ∀ released ∈ s.released, ∃ binlogFile binlogPos set,
      released.1.source.offset = formatMysqlSourceOffset binlogFile binlogPos set ∧
        gtids set = start ∪ gtidsOf released.2

variable {polls : List (Except Error (List MysqlBinlogMessage))}
variable {st : Set (List Char × ℕ)}

lemma Tracks.run (h : Tracks st s) {ms : List MysqlBinlogMessage} (hk : ∀ m ∈ ms, Unmarked m) :
    Tracks st (run GtidTrace.note s ms) := by
  exact run_invariant_of_meets GtidTrace.note (fun s m h hk => h.note hk) h (meets_of_forall GtidTrace.note hk s)

lemma Tracks.passes (h : Tracks st s) (hk : ∀ ms, .ok ms ∈ polls → ∀ m ∈ ms, Unmarked m) :
    Tracks st (s.passes polls) := by
  induction polls generalizing s with
  | nil => exact h
  | cons poll polls ih =>
    cases poll with
    | error => exact h
    | ok ms =>
      have hr := h.run (hk ms mem_cons_self)
      rw [GtidTrace.passes]
      split
      · exact ih hr fun ms hm => hk ms (mem_cons_of_mem _ hm)
      · exact hr

lemma Tracks.step (h : Tracks st s) (hk : ∀ ms, .ok ms ∈ polls → ∀ m ∈ ms, Unmarked m) :
    Tracks st (s.step polls) := by
  unfold GtidTrace.step
  split
  · exact h
  · split
    · exact ⟨h.set,h.stamps⟩
    · exact h.passes hk

lemma Tracks.exact {start : Set (List Char × ℕ)} (h : Tracks start s) (hop : s.opened = none) : s.Exact start := by
  refine ⟨fun n flavor bf bp set sta ho => ?_,h.stamps⟩
  have hs : set = s.handle.gtid := by
    injection ho with ho
    injection ho with _ _ _ _ hs _
    exact hs.symm
  have ht := h.set
  rw [hop,Option.toList_none,append_nil] at ht
  rw [hs,ht]

end GtidTrace
section
open LiveMysqlBinlogProvider GtidTrace
variable (columns : Ddl.ColumnParser) (n : ℕ)

/-- A binlog event at which the decoder commits a transaction finds no GTID noted. -/
def Anonymous (p : LiveMysqlBinlogProvider) (e : BinlogEvent) : Prop :=
  match e.data with
  | .xid _ => p.activeGtid = none
  | .query _ _ => p.activeTxId = none ∨ p.activeGtid = none
  | _ => True

instance (p : LiveMysqlBinlogProvider) (e : BinlogEvent) : Decidable (Anonymous p e) := by
  unfold Anonymous
  split <;> infer_instance

/-- The rest of the binlog, as the decoder goes through it. -/
def AnonymousLog : LiveMysqlBinlogProvider → List BinlogEvent → Prop
  | _, [] => True
  | p, e::stream => Anonymous p e ∧ AnonymousLog ({p with stream := stream}.decodeEvent columns e).1 stream

instance anonymousLogDecidable : (p : LiveMysqlBinlogProvider) → (stream : List BinlogEvent) →
    Decidable (AnonymousLog columns p stream)
  | _, [] => inferInstanceAs (Decidable True)
  | _, _::stream => @instDecidableAnd _ _ _ (anonymousLogDecidable _ stream)

variable {columns n} {p : LiveMysqlBinlogProvider} {e : BinlogEvent}

lemma decodeEvent_stream : (p.decodeEvent columns e).1.stream = p.stream := by
  unfold decodeEvent decodeEventData
  cases e.data with
  | query =>
    dsimp only [decodeQuery,ensureActiveTx]
    repeat' split
    all_goals rfl
  | rows =>
    dsimp only [ensureActiveTx]
    split <;> rfl
  | xid | rotate =>
    dsimp only
    repeat' split
    all_goals rfl
  | mariadb =>
    dsimp only [decodeMariadbEvent]
    repeat' split
    all_goals rfl
  | gtid | heartbeat | other => rfl

lemma decodeQuery_unmarked {statement : String} {ts : UInt64} (h : p.activeTxId = none ∨ p.activeGtid = none) :
    ∀ m ∈ (p.decodeQuery columns statement ts).2, Unmarked m := by
  unfold decodeQuery
  split
  · simp [Unmarked]
  · split
    · simp [Unmarked]
    · split
      · simp
      · dsimp only
        split
        · simp [Unmarked]
        · have hg := h.resolve_left (by simp [*])
          simp [Unmarked,xidMessage,hg]

/-- Such an event is decoded to messages without a set. -/
lemma Anonymous.unmarked (h : Anonymous p e) {ms : List MysqlBinlogMessage}
    (hd : (p.decodeEvent columns e).2 = .ok ms) : ∀ m ∈ ms, Unmarked m := by
  unfold Anonymous at h
  unfold decodeEvent decodeEventData at hd
  cases hdata : e.data with
  | query _ statement =>
    rw [hdata] at h hd
    obtain rfl := Except.ok.inj hd
    exact decodeQuery_unmarked h
  | rows kind decoded =>
    rw [hdata] at hd
    cases decoded with
    | error => cases hd
    | ok changes =>
      obtain rfl := Except.ok.inj hd
      intro m hm
      rcases mem_append.mp hm with hm | hm
      · split at hm
        · rw [mem_singleton.mp hm]
          trivial
        · cases hm
      · obtain ⟨change,_,rfl⟩ := mem_map.mp hm
        cases kind <;> trivial
  | xid =>
    rw [hdata] at h hd
    obtain rfl := Except.ok.inj hd
    intro m hm
    rw [mem_singleton.mp hm]
    dsimp only
    repeat' split
    all_goals exact h
  | rotate =>
    rw [hdata] at hd
    dsimp only at hd
    repeat' split at hd
    · cases hd
    · obtain rfl := Except.ok.inj hd
      simp [Unmarked]
    · cases hd
  | mariadb =>
    rw [hdata] at hd
    dsimp only [decodeMariadbEvent] at hd
    repeat' split at hd
    · cases hd
    · obtain rfl := Except.ok.inj hd
      simp [Unmarked]
    · cases hd
    · obtain rfl := Except.ok.inj hd
      simp
  | gtid | heartbeat | other =>
    rw [hdata] at hd
    obtain rfl := Except.ok.inj hd
    simp [Unmarked]

/-- What a poll leaves and gives. -/
lemma AnonymousLog.pollLoop {reads : ℕ} {failure : Option Error} {out : List MysqlBinlogMessage}
    (h : AnonymousLog columns p p.stream) (ho : ∀ m ∈ out, Unmarked m) :
    AnonymousLog columns (LiveMysqlBinlogProvider.pollLoop columns n failure reads p out).1
        (LiveMysqlBinlogProvider.pollLoop columns n failure reads p out).1.stream ∧
      ∀ ms, (LiveMysqlBinlogProvider.pollLoop columns n failure reads p out).2 = .ok ms → ∀ m ∈ ms, Unmarked m := by
  induction reads generalizing p out with
  | zero =>
    cases failure with
    | some => exact ⟨h,fun _ hm => by cases hm⟩
    | none => exact ⟨h,fun ms hm => Except.ok.inj hm ▸ ho⟩
  | succ reads ih =>
    rw [LiveMysqlBinlogProvider.pollLoop]
    split
    · split
      · exact ih h ho
      · rename_i e stream hs
        rw [hs] at h
        obtain ⟨ha,hr⟩ := h
        have hst : ({p with stream := stream}.decodeEvent columns e).1.stream = stream := decodeEvent_stream
        have hu : ∀ ms, ({p with stream := stream}.decodeEvent columns e).2 = .ok ms → ∀ m ∈ ms, Unmarked m :=
          fun ms hm => Anonymous.unmarked (p := {p with stream := stream}) ha hm
        generalize {p with stream := stream}.decodeEvent columns e = decoded at hr hst hu
        obtain ⟨p',_ | ms⟩ := decoded
        · exact ⟨hst ▸ hr,by simp⟩
        · refine ih (hst ▸ hr) fun m hm => ?_
          exact (mem_append.mp hm).elim (ho m) (hu ms rfl m)
    · exact ⟨h,fun ms hm => Except.ok.inj hm ▸ ho⟩

lemma AnonymousLog.pollEvents (h : AnonymousLog columns p p.stream) (a : PollAnswer) :
    AnonymousLog columns (p.pollEvents columns n a).1
        (p.pollEvents columns n a).1.stream ∧
      ∀ ms, (p.pollEvents columns n a).2 = .ok ms → ∀ m ∈ ms, Unmarked m := by
  unfold LiveMysqlBinlogProvider.pollEvents
  split
  · refine ⟨h,fun ms hm => ?_⟩
    cases hm
    simp
  · exact h.pollLoop (by simp)

lemma AnonymousLog.polls (h : AnonymousLog columns p p.stream) {as : List PollAnswer} {ms : List MysqlBinlogMessage}
    (hm : .ok ms ∈ LiveStream.polls columns n p as) : ∀ m ∈ ms, Unmarked m := by
  induction as generalizing p with
  | nil => cases hm
  | cons a as ih =>
    obtain ⟨hl,hu⟩ := h.pollEvents (n := n) a
    rcases mem_cons.mp hm with hm | hm
    · exact hu ms hm.symm
    · exact ih hl hm

section
variable {s : LiveStream} (h : AnonymousLog columns s.provider s.provider.stream) (as : List PollAnswer)
include h

lemma AnonymousLog.passes : AnonymousLog columns (s.passes columns n as).1.provider
      (s.passes columns n as).1.provider.stream := by
  induction as generalizing s with
  | nil => exact h
  | cons a as ih =>
    obtain ⟨hl,_⟩ := h.pollEvents (n := n) a
    rw [LiveStream.passes]
    generalize s.provider.pollEvents columns n a = polled at hl
    obtain ⟨p,_ | ms⟩ := polled
    · exact hl
    · dsimp only
      generalize s.handle.processMessages ms = processed
      obtain ⟨hd,_ | ⟨e,es⟩⟩ := processed
      · exact ih (s := ⟨p,hd⟩) hl
      · exact hl

lemma AnonymousLog.nextEvents : AnonymousLog columns (s.nextEvents columns n as).1.provider
      (s.nextEvents columns n as).1.provider.stream := by
  unfold LiveStream.nextEvents
  split
  · exact h
  · split
    · exact h
    · exact h.passes as
end
variable (columns n)

/-- A call on the stream with its provider. -/
def liveStep (s : LiveMysqlBinlogProvider × GtidTrace) (answers : List PollAnswer) :
    LiveMysqlBinlogProvider × GtidTrace :=
  ((LiveStream.nextEvents columns n ⟨s.1,s.2.handle⟩ answers).1.provider,
    s.2.step (LiveStream.polls columns n s.1 answers))

lemma liveStep_stream (s : LiveMysqlBinlogProvider × GtidTrace) (as : List PollAnswer) :
    (⟨(liveStep columns n s as).1,(liveStep columns n s as).2.handle⟩ : LiveStream) =
      (LiveStream.nextEvents columns n ⟨s.1,s.2.handle⟩ as).1 := by
  have h := congrArg Prod.fst (LiveStream.nextEvents_handle columns n ⟨s.1,s.2.handle⟩ as)
  rw [liveStep,step_handle,← h]

lemma run_liveStep (s : LiveMysqlBinlogProvider × GtidTrace) (calls : List (List PollAnswer)) :
    (⟨(run (liveStep columns n) s calls).1,(run (liveStep columns n) s calls).2.handle⟩ : LiveStream) =
      run (fun s answers => (LiveStream.nextEvents columns n s answers).1) ⟨s.1,s.2.handle⟩ calls := by
  induction calls generalizing s with
  | nil => rfl
  | cons as calls ih => rw [run_cons,run_cons,ih,liveStep_stream]

/-- The call does not end inside a transaction. -/
def EndsBetween (s : LiveMysqlBinlogProvider × GtidTrace) (answers : List PollAnswer) : Prop :=
  (liveStep columns n s answers).2.opened = none

/-- The stream over its binlog: the GTID set it reports, and stamps on what it releases, is the set it
started with and the transactions released, in every state of every run of calls that do not end inside a
transaction, if no transaction that has a GTID is ended by a commit. -/
theorem gtid_position_exact (sourceName binlogFile : String) (binlogPos : UInt32) (gtid : String)
    (tableIsAllowed : Option String → String → Bool) (binlog : List BinlogEvent) (calls : List (List PollAnswer))
    (hanonymous : AnonymousLog columns (.new binlog binlogFile binlogPos) binlog)
    (hends : Meets (liveStep columns n) (EndsBetween columns n)
      (.new binlog binlogFile binlogPos,start (.new sourceName binlogFile binlogPos gtid tableIsAllowed)) calls) :
    let s := run (liveStep columns n)
      (.new binlog binlogFile binlogPos,start (.new sourceName binlogFile binlogPos gtid tableIsAllowed)) calls
    ⟨s.1,s.2.handle⟩ = run (fun s answers => (LiveStream.nextEvents columns n s answers).1)
        ⟨.new binlog binlogFile binlogPos,.new sourceName binlogFile binlogPos gtid tableIsAllowed⟩ calls ∧
      s.2.Exact (gtids gtid) := by
  intro s
  have hs : Tracks (gtids gtid) (start (.new sourceName binlogFile binlogPos gtid tableIsAllowed)) :=
    ⟨by simp [start,MysqlStreamHandle.new],by simp [start]⟩
  have hr := run_invariant_of_meets (liveStep columns n)
    (P := fun s => Tracks (gtids gtid) s.2 ∧ s.2.opened = none ∧ AnonymousLog columns s.1 s.1.stream)
    (fun s as h hc => ⟨h.1.step fun ms hm => h.2.2.polls hm,hc,
      AnonymousLog.nextEvents (s := ⟨s.1,s.2.handle⟩) h.2.2 as⟩) ⟨hs,rfl,hanonymous⟩ hends
  refine ⟨?_,hr.1.exact hr.2.1⟩
  exact run_liveStep columns n _ calls
end
namespace GtidTrace
def executed : String := "3e11fa47-71ca-11e1-9e33-c80aa9429562:1-500"
def next : String := "3e11fa47-71ca-11e1-9e33-c80aa9429562:501"

/-- A stream that has executed five hundred transactions. -/
def resumed (binlog : List BinlogEvent) : LiveMysqlBinlogProvider × GtidTrace :=
  (.new binlog "binlog.000007" 1540,start (.new "inventory" "binlog.000007" 1540 executed fun _ _ => true))

def logged (logPos : UInt32) (data : EventData) : BinlogEvent := ⟨logPos,1700000000,data⟩

/-- A table is truncated, which has a GTID and no commit. -/
def truncated : List BinlogEvent := [logged 1600 (.gtid next),logged 1700 (.query "shop" "TRUNCATE TABLE orders")]

/-- A transaction with a row. -/
def inserted : List BinlogEvent :=
  [logged 1600 (.gtid next),logged 1650 (.query "shop" "BEGIN"),
    logged 1700 (.rows .write (.ok [⟨some "shop","orders",some ["id"],none,none⟩])),logged 1790 (.xid 77)]

theorem gtid_position_exact_sample :
    (run (liveStep Ddl.noColumns 100) (resumed truncated) [[⟨2,none⟩]]).2.done = [next] ∧
      (run (liveStep Ddl.noColumns 100) (resumed truncated) [[⟨2,none⟩]]).2.Exact (gtids executed) :=
  ⟨by decide +kernel,(gtid_position_exact Ddl.noColumns 100 "inventory" "binlog.000007" 1540 executed (fun _ _ => true)
    truncated [[⟨2,none⟩]] (by decide +kernel) ⟨by unfold EndsBetween; decide +kernel,trivial⟩).2⟩

/-- The commit of a transaction replaces the set by the transaction's own GTID, and before it the
transaction being received is reported already. -/
theorem gtid_position_inexact :
    ¬ (run (liveStep Ddl.noColumns 100) (resumed inserted) [[⟨4,none⟩]]).2.Exact (gtids executed) ∧
      ¬ (run (liveStep Ddl.noColumns 100) (resumed inserted) [[⟨3,none⟩]]).2.Exact (gtids executed) := by
  constructor
  · intro h
    have hs : gtids next = gtids executed ∪ gtidsOf _ := h.1 _ _ _ _ _ _ rfl
    have hf : ("3e11fa47-71ca-11e1-9e33-c80aa9429562".toList,1) ∈ gtids executed := by decide
    have hl : ("3e11fa47-71ca-11e1-9e33-c80aa9429562".toList,1) ∈ gtids next := by
      rw [hs]
      exact Or.inl hf
    revert hl
    decide
  · intro h
    have hs : gtids (mergeGtidIntoSet executed next) = gtids executed ∪ gtidsOf [] := h.1 _ _ _ _ _ _ rfl
    rw [gtids_mergeGtidIntoSet,gtidsOf_nil,Set.union_empty] at hs
    have hn : ("3e11fa47-71ca-11e1-9e33-c80aa9429562".toList,501) ∈ gtids next := by decide
    have he : ("3e11fa47-71ca-11e1-9e33-c80aa9429562".toList,501) ∈ gtids executed := by
      rw [← hs]
      exact Or.inr hn
    revert he
    decide
end GtidTrace
end Rustcdc.Mysql
