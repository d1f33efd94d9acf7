import Rustcdc.Source.Mysql.Provider
import Rustcdc.Source.Transactions

/-! Which row changes of a binlog are committed, and when the stream releases them.  A group that a
`COMMIT` statement ends stays open in the decoder and is cleared by the next group. -/
namespace Rustcdc.Mysql
open List Machine LiveMysqlBinlogProvider MysqlStreamHandle
open Ddl (ColumnParser extractCapturedDdl)
open LiveMysqlBinlogProvider (PollAnswer isBegin rowsMessage)
section
abbrev RowChange := Operation × MysqlRowChange

def rowChange (e : Event) : Option RowChange :=
  match e.op with
  | .insert | .update | .delete => some (e.op,⟨e.schema,e.table,e.primaryKey,e.before,e.after⟩)
  | _ => none

def RowsKind.operation : RowsKind → Operation
  | .write => .insert
  | .update => .update
  | .delete => .delete

def isCommit (statement : String) : Bool := toAsciiLowercase (trim statement.toList) = "commit".toList

/-- What an event means for the groups of the log. -/
inductive LogMark
  | opens
  | rows (changes : List RowChange)
  | ends
  | apart
  | neutral
  | unreadable

/-- `BEGIN` opens a group; an `Xid` event or a `COMMIT` statement ends it; DDL and `TRUNCATE` statements
and rotations stand between groups. -/
def mark (columns : ColumnParser) : EventData → LogMark
  | .query _ statement =>
    if isBegin statement then .opens
    else if (extractCapturedDdl columns .mysql statement).isSome ∨ (parseTruncateTarget statement).isSome then .apart
    else if isCommit statement then .ends
    else .neutral
  | .rows kind (.ok changes) => .rows (changes.map fun change => (kind.operation,change))
  | .rows _ (.error _) => .unreadable
  | .xid _ => .ends
  | .rotate name position =>
    if (sanitizeBinlogFileName name).isOk ∧ position.toNat < 2^32 then .apart else .unreadable
  | .mariadb eventType serverId data =>
    if eventType = 164 ∨ (eventType = 162 ∧ parseMariadbGtidEvent serverId data = none) then
      .unreadable
    else .neutral
  | .gtid _ | .heartbeat | .other => .neutral

/-- The groups of a log as far as it is read: whether one is open, and the captured row changes of the
open one and of those that were ended. -/
structure Groups where
  inGroup : Bool
  pending : List RowChange
  committed : List RowChange

variable (columns : ColumnParser) (allowed : Option String → String → Bool)
variable (g : Groups)

def Groups.hold (changes : List RowChange) : Groups :=
  {g with pending := g.pending++changes.filter fun change => allowed change.2.schema change.2.table}

def Groups.read (e : BinlogEvent) : Groups :=
  match mark columns e.data with
  | .opens => {g with inGroup := true, pending := []}
  | .rows changes => g.hold allowed changes
  | .ends => ⟨false,[],g.committed++g.pending⟩
  | .apart | .neutral | .unreadable => g

/-- The event may come next in a well-formed log. -/
def Groups.Accepts (e : BinlogEvent) : Prop :=
  match mark columns e.data with
  | .opens | .apart => g.inGroup = false
  | .rows _ | .ends => g.inGroup = true
  | .neutral => True
  | .unreadable => False

variable (log : List BinlogEvent)

def groups : Groups := run (Groups.read columns allowed) ⟨false,[],[]⟩ log

/-- Groups one after another, each ended before the next begins, and everything readable. -/
def WellFormed : Prop := Meets (Groups.read columns allowed) (Groups.Accepts columns) ⟨false,[],[]⟩ log

/-- The event is a `COMMIT` statement. -/
def EventData.isCommit : EventData → Bool
  | .query _ statement => Mysql.isCommit statement
  | _ => false
end
def rowChanges (events : List Event) : List RowChange := events.filterMap rowChange
@[simp] lemma rowChanges_nil : rowChanges [] = [] := rfl
@[simp] lemma rowChanges_append (es fs : List Event) :
    rowChanges (es++fs) = rowChanges es++rowChanges fs := filterMap_append

namespace MysqlStreamHandle
variable (h : MysqlStreamHandle)

lemma processMessages_append (ms ns : List MysqlBinlogMessage) : h.processMessages (ms++ns) =
      (((h.processMessages ms).1.processMessages ns).1,
        (h.processMessages ms).2++((h.processMessages ms).1.processMessages ns).2) := by
  simp only [processMessages_eq_feed,Transactions.feed_append]

/-- Messages touch neither what was put back nor whether the stream runs. -/
theorem processMessages_frame (ms : List MysqlBinlogMessage) : (h.processMessages ms).1.streaming = h.streaming ∧
      (h.processMessages ms).1.requeuedEvents = h.requeuedEvents := by
  have hp : ∀ (h : MysqlStreamHandle) (op : Operation) (c : MysqlRowChange),
      (h.pushRow op c).streaming = h.streaming ∧ (h.pushRow op c).requeuedEvents = h.requeuedEvents := by
    intro h op c
    rw [pushRow]
    split <;> exact ⟨rfl,rfl⟩
  have hc : ∀ (h : MysqlStreamHandle) (ts : UInt64) (file : String) (pos : UInt32),
      (h.implicitCommit ts file pos).1.streaming = h.streaming ∧
        (h.implicitCommit ts file pos).1.requeuedEvents = h.requeuedEvents := by
    intro h ts file pos
    rw [implicitCommit]
    split
    · exact ⟨rfl,rfl⟩
    · split <;> exact ⟨rfl,rfl⟩
  induction ms generalizing h with
  | nil => exact ⟨rfl,rfl⟩
  | cons m ms ih =>
    have ho : (h.processMessage m).1.streaming = h.streaming ∧
        (h.processMessage m).1.requeuedEvents = h.requeuedEvents := by
      cases m with
      | writeRows c => exact hp h .insert c
      | updateRows c => exact hp h .update c
      | deleteRows c => exact hp h .delete c
      | ddl ca ts file pos | truncate sc t ts file pos => exact hc h ts file pos
      | _ => exact ⟨rfl,rfl⟩
    rw [processMessages]
    exact ⟨(ih _).1.trans ho.1,(ih _).2.trans ho.2⟩

lemma rowChanges_commit (t : UInt64) (bf : String) (bp : UInt32) (gt : Option String) :
    rowChanges (h.commitCurrentTransaction t bf bp gt).2 = rowChanges h.partialTxEvents := by
  rw [commitCurrentTransaction]
  dsimp only
  generalize UInt32.ofNat h.partialTxEvents.length = total
  induction h.partialTxEvents using List.reverseRecOn with
  | nil => rfl
  | append_singleton es e ih =>
    rw [mapIdx_concat,rowChanges_append,rowChanges_append,ih]
    rfl

lemma rowChanges_pushRow (kind : RowsKind) (c : MysqlRowChange) :
    rowChanges (h.pushRow kind.operation c).partialTxEvents = rowChanges h.partialTxEvents++
        [(kind.operation,c)].filter fun c =>
          h.tableIsAllowed c.2.schema c.2.table := by
  rw [pushRow]
  by_cases ha : h.tableIsAllowed c.schema c.table = true
  · have hr : rowChange (h.buildEvent kind.operation c) = some (kind.operation,c) := by
      cases kind <;> rfl
    simp [ha,rowChanges,hr]
  · simp [ha]

lemma processMessages_rows (kind : RowsKind) (cs : List MysqlRowChange) :
    (h.processMessages (cs.map (rowsMessage kind))).2 = [] ∧
    (h.processMessages (cs.map (rowsMessage kind))).1.tableIsAllowed = h.tableIsAllowed ∧
    rowChanges (h.processMessages (cs.map (rowsMessage kind))).1.partialTxEvents =
      rowChanges h.partialTxEvents++ (cs.map fun c => (kind.operation,c)).filter fun c =>
          h.tableIsAllowed c.2.schema c.2.table := by
  induction cs generalizing h with
  | nil => exact ⟨rfl,rfl,by simp [processMessages]⟩
  | cons c cs ih =>
    have ho : h.processMessage (rowsMessage kind c) = (h.pushRow kind.operation c,[]) := by
      cases kind <;> rfl
    have ha : (h.pushRow kind.operation c).tableIsAllowed = h.tableIsAllowed := by
      rw [pushRow]
      split <;> rfl
    obtain ⟨hn,hs,hr⟩ := ih (h.pushRow kind.operation c)
    rw [map_cons,processMessages,ho]
    refine ⟨hn,hs.trans ha,hr.trans ?_⟩
    rw [rowChanges_pushRow,ha,append_assoc,map_cons,← filter_append]
    rfl
end MysqlStreamHandle
section
/-- The decoder and the handle stand where the log stands: a transaction is open in the decoder exactly
inside a group, and the handle holds the group's row changes. -/
structure Tracks (allowed : Option String → String → Bool) (g : Groups) (p : LiveMysqlBinlogProvider)
    (h : MysqlStreamHandle) : Prop where
  filter : h.tableIsAllowed = allowed
  active : p.activeTxId.isSome = g.inGroup
  held : rowChanges h.partialTxEvents = g.pending
  between : g.inGroup = false → h.partialTxEvents = []

variable {co : ColumnParser} {allowed : Option String → String → Bool} {g : Groups}
  {p : LiveMysqlBinlogProvider} {h : MysqlStreamHandle}

/-- What decoding one event and handling its messages has to come to. -/
structure Follows (allowed : Option String → String → Bool) (g g' : Groups)
    (p : LiveMysqlBinlogProvider) (h : MysqlStreamHandle)
    (result : LiveMysqlBinlogProvider × Except Error (List MysqlBinlogMessage))
    (messages : List MysqlBinlogMessage) : Prop where
  decoded : result.2 = .ok messages
  stream : result.1.stream = p.stream
  tracks : Tracks allowed g' result.1 (h.processMessages messages).1
  committed : g'.committed = g.committed++rowChanges (h.processMessages messages).2

lemma Tracks.closed (ht : Tracks allowed g p h) (hc : g.inGroup = false) : p.activeTxId = none := by
  rw [← Option.not_isSome_iff_eq_none,ht.active,hc]
  simp

variable {e : BinlogEvent} {p' : LiveMysqlBinlogProvider}
section
variable (ht : Tracks allowed g p h)
include ht

lemma Tracks.silent (ha : p'.activeTxId = p.activeTxId) (hs : p'.stream = p.stream) :
    Follows allowed g g p h (p',.ok []) [] :=
  ⟨rfl,hs,⟨ht.filter,ha ▸ ht.active,ht.held,ht.between⟩,by
    simp [processMessages]⟩

lemma Tracks.other {m : MysqlBinlogMessage} (ha : p'.activeTxId = p.activeTxId) (hs : p'.stream = p.stream)
    (hf : (h.processMessage m).1.tableIsAllowed = h.tableIsAllowed)
    (hh : (h.processMessage m).1.partialTxEvents = h.partialTxEvents)
    (hr : rowChanges (h.processMessage m).2 = []) :
    Follows allowed g g p h (p',.ok [m]) [m] where
  decoded := rfl
  stream := hs
  tracks := ⟨hf.trans ht.filter,ha ▸ ht.active,(congrArg rowChanges hh).trans ht.held,
    fun hc => hh.trans (ht.between hc)⟩
  committed := by simp [processMessages,hr]
section
variable (hc : g.inGroup = false)
include hc

lemma Tracks.begin (ts : UInt64) : Follows allowed g {g with inGroup := true, pending := []} p h
      (p.ensureActiveTx.1,.ok [.begin p.ensureActiveTx.2.1 ts]) [.begin p.ensureActiveTx.2.1 ts] := by
  rw [ensureActiveTx,ht.closed hc]
  exact ⟨rfl,rfl,⟨ht.filter,rfl,rfl,fun ho => (by cases ho)⟩,by
    simp [processMessages,processMessage]⟩

lemma Tracks.ddl (c : CapturedDdl) (ts : UInt64) (file : String) (pos : UInt32) :
    Follows allowed g g p h (p,.ok [.ddl c ts file pos]) [.ddl c ts file pos] := by
  have hn := implicitCommit_nil (ht.between hc) ts file pos
  refine ht.other rfl rfl ?_ ?_ ?_
  · rw [processMessage,hn]
  · rw [processMessage,hn]
  · rw [processMessage,hn]
    dsimp only
    split <;> rfl

lemma Tracks.truncate (sc : Option String) (t : String) (ts : UInt64) (file : String) (pos : UInt32) :
    Follows allowed g g p h (p,.ok [.truncate sc t ts file pos]) [.truncate sc t ts file pos] := by
  have hn := implicitCommit_nil (ht.between hc) ts file pos
  refine ht.other rfl rfl ?_ ?_ ?_
  · rw [processMessage,hn]
  · rw [processMessage,hn]
  · rw [processMessage,hn]
    dsimp only
    split <;> rfl
end
lemma Tracks.xid (txId ts : UInt64) (file : String) (pos : UInt32) (gt : Option String) :
    Follows allowed g ⟨false,[],g.committed++g.pending⟩ p h
      ({p with activeTxId := none, activeGtid := none},.ok [.xid txId ts file pos gt])
      [.xid txId ts file pos gt] where
  decoded := rfl
  stream := rfl
  tracks := ⟨ht.filter,rfl,rfl,fun _ => rfl⟩
  committed := by
    have hr := h.rowChanges_commit ts file pos gt
    simp only [processMessages,processMessage,append_nil]
    rw [hr,ht.held]

lemma Tracks.query {sc st : String} {ts : UInt64} (hd : e.data = .query sc st) (ha : g.Accepts co e)
    (hc : isCommit st = false) :
    ∃ messages, Follows allowed g (g.read co allowed e) p h (p.decodeEventData co (.query sc st) ts) messages := by
  rw [Groups.Accepts,hd,mark] at ha
  rw [Groups.read,hd,mark,decodeEventData,decodeQuery]
  by_cases hb : isBegin st = true
  · simp only [hb,if_true] at ha ⊢
    exact ⟨_,ht.begin ha ts⟩
  · simp only [hb,hc,if_false,Bool.false_eq_true] at ha ⊢
    cases hdd : extractCapturedDdl co .mysql st with
    | some =>
      simp only [hdd,Option.isSome_some,true_or,if_true] at ha ⊢
      exact ⟨_,ht.ddl ha _ ts _ _⟩
    | none =>
      cases htr : parseTruncateTarget st with
      | none =>
        simp only [Option.isSome_none,or_self,Bool.false_eq_true,if_false]
        exact ⟨[],ht.silent rfl rfl⟩
      | some target =>
        obtain ⟨sc,t⟩ := target
        simp only [hdd,htr,Option.isSome_some,or_true,if_true] at ha ⊢
        rw [ht.closed ha]
        exact ⟨_,ht.truncate ha sc t ts _ _⟩

lemma Tracks.rows {kind : RowsKind} {cs : List MysqlRowChange} {ts : UInt64} (ho : g.inGroup = true) :
    Follows allowed g (g.hold allowed (cs.map fun c => (kind.operation,c))) p h
      (p.decodeEventData co (.rows kind (.ok cs)) ts) (cs.map (rowsMessage kind)) := by
  obtain ⟨txId,ha⟩ := Option.isSome_iff_exists.mp (ht.active.trans ho)
  obtain ⟨hn,hs,hr⟩ := h.processMessages_rows kind cs
  rw [decodeEventData,ensureActiveTx,ha]
  refine ⟨rfl,rfl,⟨hs.trans ht.filter,ht.active,?_,fun hc => ?_⟩,by rw [hn]; simp [Groups.hold]⟩
  · rw [hr,ht.held,ht.filter]
    rfl
  · cases ho.symm.trans hc

/-- Every event of a well-formed log that is no `COMMIT` statement keeps decoder and handle in step with
the log, and releases the rows of the group it ends. -/
theorem Tracks.decodeEvent (ha : g.Accepts co e) (hco : e.data.isCommit = false) :
    ∃ messages, Follows allowed g (g.read co allowed e) p h (p.decodeEvent co e) messages := by
  obtain ⟨logPos,t,data⟩ := e
  rw [LiveMysqlBinlogProvider.decodeEvent]
  generalize hq : {p with nextPos := advanceBinlogPos p.nextPos logPos} = q
  have htq : Tracks allowed g q h := hq ▸ ⟨ht.filter,ht.active,ht.held,ht.between⟩
  have hs : q.stream = p.stream := hq ▸ rfl
  suffices hf : ∃ messages, Follows allowed g (g.read co allowed ⟨logPos,t,data⟩) q h
      (q.decodeEventData co data (t.toUInt64*1000)) messages by
    obtain ⟨messages,ho,hsa,htr,hc⟩ := hf
    exact ⟨messages,ho,hsa.trans hs,htr,hc⟩
  cases data with
  | query => exact htq.query rfl ha hco
  | rows kind decoded =>
    cases decoded with
    | error => exact ha.elim
    | ok => exact ⟨_,htq.rows ha⟩
  | xid =>
    obtain ⟨txId,hac⟩ := Option.isSome_iff_exists.mp (htq.active.trans ha)
    rw [decodeEventData,hac]
    exact ⟨_,htq.xid _ _ _ _ _⟩
  | rotate n po =>
    rw [Groups.Accepts,mark] at ha
    rw [Groups.read,mark,decodeEventData]
    by_cases hr : (sanitizeBinlogFileName n).isOk ∧ po.toNat < 2^32
    · rw [if_pos hr]
      obtain ⟨file,hfi⟩ := isOk_eq_true hr.1
      rw [hfi]
      dsimp only
      rw [if_pos hr.2]
      exact ⟨_,htq.other rfl rfl rfl rfl rfl⟩
    · rw [if_neg hr] at ha
      exact ha.elim
  | gtid | heartbeat => exact ⟨_,htq.other rfl rfl rfl rfl rfl⟩
  | mariadb eventType serverId data =>
    rw [Groups.Accepts,mark] at ha
    rw [Groups.read,mark,decodeEventData,decodeMariadbEvent]
    by_cases hb : eventType = 164 ∨ (eventType = 162 ∧ parseMariadbGtidEvent serverId data = none)
    · rw [if_pos hb] at ha
      exact ha.elim
    · rw [if_neg hb]
      rw [not_or,not_and] at hb
      by_cases hg : eventType = 162
      · rw [if_pos hg]
        cases hp : parseMariadbGtidEvent serverId data with
        | none => exact absurd hp (hb.2 hg)
        | some => exact ⟨_,htq.other rfl rfl rfl rfl rfl⟩
      · rw [if_neg hg,if_neg hb.1]
        exact ⟨[],htq.silent rfl rfl⟩
  | other => exact ⟨[],htq.silent rfl rfl⟩
end
end
section
/-- The stream has read part of the log and released the row changes of the groups that part ends. -/
structure InStep (columns : ColumnParser) (allowed : Option String → String → Bool)
    (log read : List BinlogEvent) (p : LiveMysqlBinlogProvider) (h : MysqlStreamHandle)
    (released : List RowChange) : Prop where
  split : log = read++p.stream
  tracks : Tracks allowed (groups columns allowed read) p h
  committed : (groups columns allowed read).committed = released

variable {columns : ColumnParser} {allowed : Option String → String → Bool}
  {log read : List BinlogEvent} {p : LiveMysqlBinlogProvider} {h : MysqlStreamHandle}
  {released : List RowChange}
  {out : List MysqlBinlogMessage} {as : List PollAnswer} {s : LiveStream}
section
variable (hf : WellFormed columns allowed log) (hx : ∀ e ∈ log, e.data.isCommit = false)
include hf hx

/-- One more event is read.  `out` are the messages the handle has yet to be given. -/
theorem InStep.event {e : BinlogEvent} {stream : List BinlogEvent}
    (hp : p.stream = e::stream) (hi : InStep columns allowed log read p (h.processMessages out).1
      (released++rowChanges (h.processMessages out).2)) :
    ∃ ms, ({p with stream := stream}.decodeEvent columns e).2 = .ok ms ∧
      InStep columns allowed log (read++[e]) ({p with stream := stream}.decodeEvent columns e).1
        (h.processMessages (out++ms)).1
        (released++rowChanges (h.processMessages (out++ms)).2) := by
  have hs : log = read++e::stream := hp ▸ hi.split
  have ha : (groups columns allowed read).Accepts columns e := by
    rw [hs] at hf
    exact ((meets_append _ _ _ read (e::stream)).mp hf).2.1
  have ht : Tracks allowed (groups columns allowed read) {p with stream := stream}
      (h.processMessages out).1 :=
    ⟨hi.tracks.filter,hi.tracks.active,hi.tracks.held,hi.tracks.between⟩
  obtain ⟨ms,ho,hst,hn,hc⟩ := ht.decodeEvent ha (hx e (by rw [hs]; simp))
  have hg : groups columns allowed (read++[e]) = (groups columns allowed read).read columns allowed e := by
    rw [groups,run_append]
    rfl
  refine ⟨ms,ho,?_,?_,?_⟩
  · rw [hst,hs]
    simp
  · rw [hg,h.processMessages_append]
    exact hn
  · rw [hg,hc,hi.committed,h.processMessages_append,rowChanges_append]
    simp

lemma InStep.pollLoop (k reads : ℕ) (hi : InStep columns allowed log read p (h.processMessages out).1
      (released++rowChanges (h.processMessages out).2)) :
    ∃ ms read', (pollLoop columns k none reads p out).2 = .ok ms ∧
      InStep columns allowed log read' (pollLoop columns k none reads p out).1
        (h.processMessages ms).1 (released++rowChanges (h.processMessages ms).2) := by
  induction reads generalizing p out read with
  | zero => exact ⟨out,read,rfl,hi⟩
  | succ reads ih =>
    rw [pollLoop]
    split
    · cases hp : p.stream with
      | nil => exact ih hi
      | cons e stream =>
        obtain ⟨ms,ho,hn⟩ := hi.event hf hx hp
        dsimp only
        generalize {p with stream := stream}.decodeEvent columns e = r at ho hn
        obtain ⟨p',decoded⟩ := r
        subst ho
        exact ih hn
    · exact ⟨out,read,rfl,hi⟩
end
lemma InStep.pollEvents (hi : InStep columns allowed log read p h released)
    (hf : WellFormed columns allowed log) (hx : ∀ e ∈ log, e.data.isCommit = false)
    (k : ℕ) {a : PollAnswer} (hc : a.failure = none) :
    ∃ ms read', (p.pollEvents columns k a).2 = .ok ms ∧ InStep columns allowed log read' (p.pollEvents columns k a).1
        (h.processMessages ms).1 (released++rowChanges (h.processMessages ms).2) := by
  have hs : InStep columns allowed log read p (h.processMessages []).1
      (released++rowChanges (h.processMessages []).2) := by
    simpa [processMessages] using hi
  rw [LiveMysqlBinlogProvider.pollEvents,hc]
  split
  · exact ⟨[],read,rfl,hs⟩
  · exact hs.pollLoop hf hx k a.reads

/-- The stream runs, nothing was put back, and it is in step with the log. -/
structure Live (columns : ColumnParser) (allowed : Option String → String → Bool)
    (log read : List BinlogEvent) (s : LiveStream) (released : List RowChange) : Prop where
  streaming : s.handle.streaming = true
  requeued : s.handle.requeuedEvents = []
  inStep : InStep columns allowed log read s.provider s.handle released

lemma Live.passes (hl : Live columns allowed log read s released)
    (hfo : WellFormed columns allowed log) (hx : ∀ e ∈ log, e.data.isCommit = false)
    (k : ℕ) (hc : ∀ a ∈ as, a.failure = none) :
    ∃ es read', (s.passes columns k as).2 = .ok es ∧
      Live columns allowed log read' (s.passes columns k as).1 (released++rowChanges es) := by
  induction as generalizing s read with
  | nil => exact ⟨[],read,rfl,by rw [rowChanges_nil,append_nil]; exact hl⟩
  | cons a as ih =>
    obtain ⟨ms,read',ho,hn⟩ := hl.inStep.pollEvents hfo hx k (hc a mem_cons_self)
    have hf := s.handle.processMessages_frame ms
    rw [LiveStream.passes]
    generalize s.provider.pollEvents columns k a = polled at ho hn
    obtain ⟨p,r⟩ := polled
    subst ho
    dsimp only
    generalize s.handle.processMessages ms = processed at hn hf
    obtain ⟨h,es⟩ := processed
    have haf : Live columns allowed log read' ⟨p,h⟩ (released++rowChanges es) :=
      ⟨hf.1.trans hl.streaming,hf.2.trans hl.requeued,hn⟩
    cases es with
    | nil =>
      rw [rowChanges_nil,append_nil] at haf
      exact ih haf fun a ha => hc a (mem_cons_of_mem _ ha)
    | cons ev es => exact ⟨ev::es,read',rfl,haf⟩

lemma Live.nextEvents (hl : Live columns allowed log read s released)
    (hf : WellFormed columns allowed log) (hx : ∀ e ∈ log, e.data.isCommit = false)
    (k : ℕ) (hc : ∀ a ∈ as, a.failure = none) :
    ∃ es read', (s.nextEvents columns k as).2 = .ok es ∧
      Live columns allowed log read' (s.nextEvents columns k as).1 (released++rowChanges es) := by
  rw [LiveStream.nextEvents,hl.streaming,hl.requeued]
  exact hl.passes hf hx k hc
end
/-- The stream with all it has released. -/
structure LiveTrace where
  stream : LiveStream
  released : List Event

def LiveTrace.step (columns : ColumnParser) (maxEventsPerPoll : ℕ) (t : LiveTrace)
    (answers : List PollAnswer) : LiveTrace :=
  match t.stream.nextEvents columns maxEventsPerPoll answers with
  | (stream,.ok events) => ⟨stream,t.released++events⟩
  | (stream,.error _) => {t with stream := stream}

def LiveTrace.start (log : List BinlogEvent) (sourceName binlogFile : String) (binlogPos : UInt32)
    (gtid : String) (allowed : Option String → String → Bool) : LiveTrace :=
  ⟨⟨.new log binlogFile binlogPos,.new sourceName binlogFile binlogPos gtid allowed⟩,[]⟩

section
instance (columns : ColumnParser) (g : Groups) (e : BinlogEvent) : Decidable (g.Accepts columns e) := by
  unfold Groups.Accepts
  split <;> infer_instance

instance (columns : ColumnParser) (allowed : Option String → String → Bool) (log : List BinlogEvent) :
    Decidable (WellFormed columns allowed log) :=
  meetsDecidable _ _ _ _

def orderRow (id : String) : MysqlRowChange := ⟨some "shop","orders",none,none,some (.obj [("id",.str id)])⟩

variable (pos : UInt32)

def logged (data : EventData) : BinlogEvent := ⟨pos,1700000000,data⟩
def insertOrder (id : String) : BinlogEvent := logged pos (.rows .write (.ok [orderRow id]))
def statementEvent (statement : String) : BinlogEvent := logged pos (.query "shop" statement)

/-- A group ended by an `Xid` event, a truncated table, and another such group. -/
def sampleLog : List BinlogEvent :=
  [statementEvent 100 "BEGIN",insertOrder 200 "1",insertOrder 300 "2",logged 400 (.xid 7),
    statementEvent 500 "TRUNCATE TABLE shop.items",statementEvent 600 "BEGIN",insertOrder 700 "3",
    logged 800 (.xid 8)]

/-- The group of a table that is not transactional, ended by a `COMMIT` statement, and another. -/
def commitLog : List BinlogEvent := [statementEvent 100 "BEGIN",insertOrder 200 "1",statementEvent 300 "COMMIT",
    statementEvent 400 "BEGIN",insertOrder 500 "2",logged 600 (.xid 7)]

def sampleTrace (log : List BinlogEvent) (calls : List (List PollAnswer)) : LiveTrace :=
  run (LiveTrace.step Ddl.noColumns 512) (.start log "mysql" "mysql-bin.000001" 4 "" fun _ _ => true) calls

end
end Rustcdc.Mysql
