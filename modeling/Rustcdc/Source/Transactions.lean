import Rustcdc.Lib.Transactions
import Rustcdc.Source.Mysql.Stream
import Rustcdc.Source.Postgres.Stream

/-! Transactions as the decoders release them: whole, in commit order, each event numbered within
its transaction and carrying the transaction's size. -/
namespace Rustcdc
open List Transactions

/-- The change an event reports, without what the end of its transaction decides. -/
def Event.content (e : Event) : Event :=
  {e with transaction := none, ts := 0, source := {e.source with offset := "", timestamp := 0}}

/-- The events of one transaction: every entry once and in order, numbered from zero, each with the
number of them all. -/
structure WholeTransaction (txId : UInt64) (entries events : List Event) : Prop where
  content : events.map Event.content = entries.map Event.content
  numbered : ∀ (i : ℕ) (e : Event), events[i]? = some e → ∃ tx, e.transaction = some tx ∧ tx.txId = txId ∧
    tx.eventIndex.toNat = i ∧ tx.totalEvents.map UInt32.toNat = some events.length

def ReleasedAs : Frame UInt64 Event → List Event → Prop
  | .transaction txId entries, events => WholeTransaction txId entries events
  | .alone entries, events =>
    events.map Event.content = entries.map Event.content ∧ ∀ e ∈ events, e.transaction = none

/-- The frame is small enough to be counted in the width the events have for it. -/
def Countable (frame : Frame UInt64 Event) : Prop := frame.entries.length < 2^32
  deriving Decidable

namespace Mysql.MysqlStreamHandle
section
variable (h : MysqlStreamHandle)

/-- The entry of a row message. -/
def captured (op : Operation) (change : MysqlRowChange) : List Event :=
  if h.tableIsAllowed change.schema change.table then [h.buildEvent op change] else []

/-- What a message means for the transaction it arrives in. -/
def mark : MysqlBinlogMessage → Mark UInt64 Event
  | .begin txId _ => .opens txId
  | .writeRows change => .adds (h.captured .insert change)
  | .updateRows change => .adds (h.captured .update change)
  | .deleteRows change => .adds (h.captured .delete change)
  | .xid _ _ _ _ _ => .closes
  | .ddl ddl timestampMs _ _ =>
    .alone (if h.tableIsAllowed (some ddl.schema) ddl.table then
      [ddl.toEvent h.sourceName "" timestampMs] else [])
  | .truncate schema table timestampMs binlogFile binlogPos =>
    .alone (if h.tableIsAllowed schema table then
      [h.truncateEvent schema table timestampMs binlogFile binlogPos] else [])
  | .rotate _ _ | .gtid _ | .heartbeat => .adds []

def marked (messages : List MysqlBinlogMessage) : List (Mark UInt64 Event) := marks processMessage mark h messages
end
/-- The handle holds the events of the open transaction. -/
def Buffers : Option (UInt64 × List Event) → MysqlStreamHandle → Prop
  | none, h => h.partialTxEvents = []
  | some (txId,entries), h => h.partialTxEvents = entries ∧ h.currentTxId = some txId ∧
      ∀ e ∈ entries, e.transaction.map (·.txId) = some txId

variable {h : MysqlStreamHandle} {o : Option (UInt64 × List Event)}

lemma Buffers.of_same {h' : MysqlStreamHandle} (hh : h'.partialTxEvents = h.partialTxEvents)
    (ht : h'.currentTxId = h.currentTxId) (hR : Buffers o h) : Buffers o h' := by
  cases o with
  | none => exact hh.trans hR
  | some => exact ⟨hh.trans hR.1,ht.trans hR.2.1,hR.2.2⟩

lemma processMessages_eq_feed (h : MysqlStreamHandle) (messages : List MysqlBinlogMessage) :
    h.processMessages messages = feed processMessage h messages := by
  induction messages generalizing h with
  | nil => rfl
  | cons m messages ih => rw [processMessages,feed,ih]

lemma pushRow_eq (h : MysqlStreamHandle) (op : Operation) (change : MysqlRowChange) :
    h.pushRow op change = {h with partialTxEvents := h.partialTxEvents++h.captured op change} := by
  rw [pushRow,captured]
  split <;> simp

lemma pushRow_buffers (hR : Buffers o h) {op : Operation} {c : MysqlRowChange}
    (hf : Fits o (Mark.adds (h.captured op c) : Mark UInt64 Event)) :
    Buffers (next o (.adds (h.captured op c))) (h.pushRow op c) := by
  rw [pushRow_eq]
  cases o with
  | none =>
    rcases hf with hn | hem
    · exact absurd rfl hn
    · rw [hem]
      simpa [Buffers,Transactions.next] using hR
  | some tx =>
    obtain ⟨txId,es⟩ := tx
    obtain ⟨hh,ht,hen⟩ := hR
    refine ⟨by rw [hh],ht,fun e he => ?_⟩
    rcases mem_append.mp he with he | he
    · exact hen e he
    · rw [captured] at he
      split at he
      · rw [mem_singleton.mp he]
        simp [buildEvent,txMeta,ht]
      · cases he

/-- The end of a transaction numbers its events and gives each the number of them all. -/
theorem commit_whole {txId : UInt64} (hen : ∀ e ∈ h.partialTxEvents, e.transaction.map (·.txId) = some txId)
    (hc : h.partialTxEvents.length < 2^32) (t : UInt64) (bf : String)
    (bp : UInt32) (g : Option String) :
    WholeTransaction txId h.partialTxEvents (h.commitCurrentTransaction t bf bp g).2 := by
  constructor
  · rw [commitCurrentTransaction]
    refine ext_getElem? fun i => ?_
    rw [List.getElem?_map,List.getElem?_mapIdx,List.getElem?_map]
    cases h.partialTxEvents[i]? <;> rfl
  · intro i e he
    rw [commitCurrentTransaction] at he ⊢
    rw [List.getElem?_mapIdx,Option.map_eq_some_iff] at he
    obtain ⟨en,hent,rfl⟩ := he
    obtain ⟨tx,ht,rfl⟩ := Option.map_eq_some_iff.mp (hen en (mem_of_getElem? hent))
    have hl : i < h.partialTxEvents.length := (List.getElem?_eq_some_iff.mp hent).1
    refine ⟨{tx with
        totalEvents := some (UInt32.ofNat h.partialTxEvents.length)
        eventIndex := UInt32.ofNat i},by rw [stamped,ht]; rfl,rfl,?_,?_⟩
    · exact UInt32.toNat_ofNat_of_lt' (hl.trans hc)
    · simpa using Nat.mod_eq_of_lt hc

lemma implicitCommit_nil (hh : h.partialTxEvents = []) (t : UInt64) (bf : String) (bp : UInt32) :
    h.implicitCommit t bf bp = (h,[]) := by
  simp [implicitCommit,hh]

/-- Every message keeps the open transaction in the handle and releases the frame it completes. -/
theorem processMessage_framed (o : Option (UInt64 × List Event)) (h : MysqlStreamHandle)
    (m : MysqlBinlogMessage) (hR : Buffers o h) (hf : Fits o (h.mark m)) :
    Buffers (next o (h.mark m)) (h.processMessage m).1 ∧ Releases (fun f es => Countable f → ReleasedAs f es)
        (completed o (h.mark m)) (h.processMessage m).2 := by
  cases m with
  | begin =>
    have hc : o = none := hf
    subst hc
    exact ⟨⟨rfl,rfl,by simp⟩,rfl⟩
  | writeRows | updateRows | deleteRows =>
    rw [mark,completed_adds]
    exact ⟨pushRow_buffers hR hf,rfl⟩
  | xid txId timestampMs bf bp gtid =>
    cases o with
    | none => exact absurd rfl hf
    | some tx =>
      obtain ⟨openId,en⟩ := tx
      obtain ⟨hh,_,he⟩ := hR
      subst hh
      exact ⟨rfl,fun hco => commit_whole he hco timestampMs bf bp gtid⟩
  | rotate | gtid =>
    rw [mark,next_adds_nil,completed_adds]
    exact ⟨Buffers.of_same (h := h) rfl rfl hR,rfl⟩
  | heartbeat =>
    rw [mark,next_adds_nil,completed_adds]
    exact ⟨hR,rfl⟩
  | ddl =>
    have hc : o = none := hf
    subst hc
    rw [processMessage,implicitCommit_nil hR]
    refine ⟨hR,fun _ => ?_⟩
    dsimp only
    split
    · exact ⟨rfl,by simp [CapturedDdl.toEvent]⟩
    · exact ⟨rfl,by simp⟩
  | truncate =>
    have hc : o = none := hf
    subst hc
    rw [processMessage,implicitCommit_nil hR]
    refine ⟨hR,fun _ => ?_⟩
    dsimp only
    split
    · exact ⟨rfl,by simp [truncateEvent]⟩
    · exact ⟨rfl,by simp⟩
end Mysql.MysqlStreamHandle
namespace Postgres
namespace Decoder
/-- The tuple's table is known and has a column for every value. -/
def knows (d : Decoder) (oid : UInt32) (tuple : List PgValue) : Bool :=
  match d.relation oid with
  | none => false
  | some r => tuple.length ≤ r.columns.length

lemma tupleFields_isSome {cs : List PgColumn} {vs : List PgValue}
    (h : vs.length ≤ cs.length) : ∃ fields, tupleFields cs vs = some fields := by
  induction cs generalizing vs with
  | nil =>
    rw [length_eq_zero_iff.mp (Nat.le_zero.mp h)]
    exact ⟨_,rfl⟩
  | cons c cs ih =>
    cases vs with
    | nil => exact ⟨_,rfl⟩
    | cons =>
      obtain ⟨fields,hf⟩ := ih (Nat.le_of_succ_le_succ h)
      exact ⟨_,by rw [tupleFields,hf]; rfl⟩

variable {d : Decoder} {oid : UInt32}

lemma tupleToJson_ok {tuple : List PgValue} (h : d.knows oid tuple = true) :
    ∃ row, d.tupleToJson oid tuple = .ok row := by
  rw [knows] at h
  rw [tupleToJson]
  cases hr : d.relation oid with
  | none => simp [hr] at h
  | some =>
    rw [hr] at h
    obtain ⟨fs,hf⟩ := tupleFields_isSome (of_decide_eq_true h)
    exact ⟨_,by simp only [hf]; rfl⟩

lemma beforeImage_ok {old k : Option (List PgValue)} (ho : ∀ tuple ∈ old, d.knows oid tuple = true)
    (hk : ∀ tuple ∈ k, d.knows oid tuple = true) :
    ∃ image, d.beforeImage oid old k = .ok image := by
  cases old with
  | some tuple =>
    obtain ⟨row,hr⟩ := tupleToJson_ok (ho tuple rfl)
    exact ⟨_,by simp only [beforeImage,hr]; rfl⟩
  | none =>
    cases k with
    | some tuple =>
      obtain ⟨row,hr⟩ := tupleToJson_ok (hk tuple rfl)
      exact ⟨_,by simp only [beforeImage,hr]; rfl⟩
    | none => exact ⟨_,rfl⟩

lemma buildInsertEvent_ok {newTuple : List PgValue} (h : d.knows oid newTuple = true) (lsn : UInt64) :
    ∃ e, d.buildInsertEvent oid newTuple lsn = .ok e := by
  obtain ⟨row,hr⟩ := tupleToJson_ok h
  exact ⟨_,by rw [buildInsertEvent,hr]; rfl⟩

lemma buildUpdateEvent_ok {u : PgUpdate} (hn : d.knows u.relationOid u.newTuple = true)
    (ho : ∀ tuple ∈ u.oldTuple, d.knows u.relationOid tuple = true)
    (hk : ∀ tuple ∈ u.keyTuple, d.knows u.relationOid tuple = true) (lsn : UInt64) :
    ∃ e, d.buildUpdateEvent u lsn = .ok e := by
  obtain ⟨a,ha⟩ := tupleToJson_ok hn
  obtain ⟨im,hi⟩ := beforeImage_ok ho hk
  exact ⟨_,by rw [buildUpdateEvent,ha,hi]; rfl⟩

lemma buildDeleteEvent_ok {x : PgDelete} (ho : ∀ tuple ∈ x.oldTuple, d.knows x.relationOid tuple = true)
    (hk : ∀ tuple ∈ x.keyTuple, d.knows x.relationOid tuple = true) (lsn : UInt64) :
    ∃ e, d.buildDeleteEvent x lsn = .ok e := by
  obtain ⟨im,hi⟩ := beforeImage_ok ho hk
  exact ⟨_,by rw [buildDeleteEvent,hi]; rfl⟩
end Decoder
namespace PostgresStreamHandle
variable (h : PostgresStreamHandle) (item : PgOutputXLogData)

/-- The record is a message of the negotiated protocol, and its tuples fit the tables they name. -/
def Readable : Prop :=
  match item.data with
  | .error _ => False
  | .ok (.insert oid newTuple) => h.decoder.knows oid newTuple = true
  | .ok (.update u) => h.decoder.knows u.relationOid u.newTuple = true ∧
      (∀ tuple ∈ u.oldTuple, h.decoder.knows u.relationOid tuple = true) ∧
      ∀ tuple ∈ u.keyTuple, h.decoder.knows u.relationOid tuple = true
  | .ok (.delete d) => (∀ tuple ∈ d.oldTuple, h.decoder.knows d.relationOid tuple = true) ∧
      ∀ tuple ∈ d.keyTuple, h.decoder.knows d.relationOid tuple = true
  | .ok (.unknown tag) => protocolTags.contains tag = false
  | .ok _ => True

/-- The entry of a row message. -/
def captured (oid : UInt32) (event : Except Error Event) : List Event :=
  if h.tableIsAllowed (h.decoder.relationSchema oid) (h.decoder.relationTableName oid) then
    event.toOption.toList
  else []

/-- The entries of a truncation, one for each captured table it names. -/
def truncated (oids : List UInt32) (lsn : UInt64) : List Event :=
  (h.decoder.buildTruncateEvents oids lsn).filter fun e => h.tableIsAllowed e.schema e.table
section
variable (r : PgRelation)

/-- The relation message changes a known captured table. -/
def announces : Bool := (match h.decoder.relation r.oid with
    | some existing => existing ≠ r
    | none => false) && h.tableIsAllowed (some r.namespace) r.name

def learning : Decoder := {h.decoder with relationMap := (r.oid,r)::h.decoder.relationMap}

/-- The schema change a relation message announces. -/
def relationMark (lsn now : UInt64) : Mark UInt64 Event :=
  let event := (h.learning r).buildRelationSchemaChangeEvent r lsn now
  if h.announces r then
    if h.decoder.currentXid.isSome then .adds [{event with transaction := h.decoder.txMeta}]
    else .alone [event]
  else .adds []

lemma processRelation_eq (lsn now : UInt64) : h.processRelation r lsn now =
      let event := (h.learning r).buildRelationSchemaChangeEvent r lsn now
      if h.announces r then
        if h.decoder.currentXid.isSome then
          ({h with decoder := {h.learning r with
            partialTxEvents := h.decoder.partialTxEvents++ [{event with transaction := h.decoder.txMeta}]}},.ok [])
        else ({h with decoder := h.learning r},.ok [event])
      else ({h with decoder := h.learning r},.ok []) := rfl
end
/-- What a record means for the transaction it arrives in. -/
def mark : Mark UInt64 Event :=
  match item.data with
  | .error _ => .adds []
  | .ok (.begin b) => .opens b.xid.toUInt64
  | .ok (.commit _) => .closes
  | .ok (.relation r) => h.relationMark r item.lsn item.now
  | .ok (.insert oid newTuple) =>
    .adds (h.captured oid (h.decoder.buildInsertEvent oid newTuple item.lsn))
  | .ok (.update u) => .adds (h.captured u.relationOid (h.decoder.buildUpdateEvent u item.lsn))
  | .ok (.delete d) => .adds (h.captured d.relationOid (h.decoder.buildDeleteEvent d item.lsn))
  | .ok (.truncate oids) => .adds (h.truncated oids item.lsn)
  | .ok (.unknown _) => .adds []

/-- A truncation concerns at most one captured table. -/
def TruncatesOne : Prop :=
  match item.data with
  | .ok (.truncate oids) => (h.truncated oids item.lsn).length ≤ 1
  | _ => True

instance (h : PostgresStreamHandle) (item : PgOutputXLogData) : Decidable (h.TruncatesOne item) :=
  decidable_of_iff ((match item.data with
    | .ok (.truncate oids) => decide ((h.truncated oids item.lsn).length ≤ 1)
    | _ => true) = true) (by unfold TruncatesOne; split <;> simp)

/-- A call and the events the caller gets from it; a failing call gives none. -/
def released (r : PostgresStreamHandle × Except Error (List Event)) :
    PostgresStreamHandle × List Event := (r.1,r.2.toOption.getD [])

/-- One record, with what the caller gets from it. -/
def take : PostgresStreamHandle × List Event := released (h.processMessage item)

/-- The entries carry the transaction's id and their place in it. -/
def Placed (xid : UInt32) (entries : List Event) : Prop := ∀ (i : ℕ) (e : Event), entries[i]? = some e →
    e.transaction = some ⟨xid.toUInt64,none,UInt32.ofNat i⟩

/-- The handle holds the events of the open transaction. -/
def Buffers : Option (UInt64 × List Event) → PostgresStreamHandle → Prop
  | none, h => h.decoder.partialTxEvents = [] ∧ h.decoder.currentXid = none
  | some (txId,entries), h => h.decoder.partialTxEvents = entries ∧
      ∃ xid, h.decoder.currentXid = some xid ∧ txId = xid.toUInt64 ∧ Placed xid entries

/-- The handle with more events in the open transaction. -/
def adding (entries : List Event) : PostgresStreamHandle :=
  {h with decoder := {h.decoder with partialTxEvents := h.decoder.partialTxEvents++entries}}
@[simp] lemma adding_nil : h.adding [] = h := by
  simp [adding]

lemma pushRow_ok (oid : UInt32) (e : Event) : h.pushRow oid (.ok e) = (h.adding (h.captured oid (.ok e)),.ok []) := by
  rw [pushRow,captured]
  split
  · rfl
  · rw [adding_nil]

variable {o : Option (UInt64 × List Event)} {h : PostgresStreamHandle}

lemma Buffers.add (hR : Buffers o h) {es : List Event}
    (hf : Fits o (Mark.adds es : Mark UInt64 Event)) (ho : es.length ≤ 1)
    (hm : ∀ e ∈ es, e.transaction = h.decoder.txMeta) :
    Buffers (next o (.adds es)) (h.adding es) := by
  cases o with
  | none =>
    rcases hf with hn | hem
    · exact absurd rfl hn
    · rw [hem,next_adds_nil,adding_nil]
      exact hR
  | some tx =>
    obtain ⟨txId,held⟩ := tx
    obtain ⟨hh,xid,hx,ht,hp⟩ := hR
    refine ⟨by rw [← hh]; rfl,xid,hx,ht,fun i e he => ?_⟩
    rcases Nat.lt_or_ge i held.length with hl | hg
    · rw [List.getElem?_append_left hl] at he
      exact hp i e he
    · rw [List.getElem?_append_right hg] at he
      have hi : i = held.length := by
        have := (List.getElem?_eq_some_iff.mp he).1
        omega
      rw [hm e (mem_of_getElem? he),Decoder.txMeta,hx,hh,hi]
      rfl

lemma captured_meta {oid : UInt32} {e : Event} (he : h.decoder.OfRelation oid e) :
    ∀ e' ∈ h.captured oid (.ok e), e'.transaction = h.decoder.txMeta := by
  intro e' he'
  rw [captured] at he'
  split at he'
  · rw [mem_singleton.mp he']
    exact he.transaction
  · cases he'

lemma captured_length (h : PostgresStreamHandle) (oid : UInt32) (e : Event) :
    (h.captured oid (.ok e)).length ≤ 1 := by
  rw [captured]
  split <;> simp [Except.toOption]

/-- The end of a transaction gives each event the number of them all. -/
theorem commit_whole {xid : UInt32} (hp : Placed xid h.decoder.partialTxEvents)
    (hc : h.decoder.partialTxEvents.length < 2^32) :
    WholeTransaction xid.toUInt64 h.decoder.partialTxEvents (h.decoder.partialTxEvents.map
      (withTotal (UInt32.ofNat h.decoder.partialTxEvents.length))) := by
  constructor
  · rw [map_map]
    rfl
  · intro i e he
    rw [List.getElem?_map,Option.map_eq_some_iff] at he
    obtain ⟨en,hen,rfl⟩ := he
    have hl : i < h.decoder.partialTxEvents.length := (List.getElem?_eq_some_iff.mp hen).1
    refine ⟨⟨xid.toUInt64,some (UInt32.ofNat h.decoder.partialTxEvents.length),UInt32.ofNat i⟩,
      by rw [withTotal,hp i en hen]; rfl,rfl,?_,?_⟩
    · exact UInt32.toNat_ofNat_of_lt' (hl.trans hc)
    · simpa using Nat.mod_eq_of_lt hc

lemma relation_framed (hR : Buffers o h) {r : PgRelation} {lsn now : UInt64}
    (hf : Fits o (h.relationMark r lsn now)) :
    Buffers (next o (h.relationMark r lsn now)) (h.processRelation r lsn now).1 ∧
      Releases (fun f es => Countable f → ReleasedAs f es) (completed o (h.relationMark r lsn now))
        (released (h.processRelation r lsn now)).2 := by
  -- the decoder's tables play no part in what it holds of the transaction
  have hk : Buffers o {h with decoder := h.learning r} := by
    cases o <;> exact hR
  rw [relationMark] at hf ⊢
  rw [processRelation_eq]
  dsimp only at hf ⊢
  by_cases ha : h.announces r = true
  · by_cases hx : h.decoder.currentXid.isSome = true
    · simp only [ha,hx,if_true] at hf ⊢
      rw [completed_adds]
      refine ⟨?_,rfl⟩
      exact hk.add hf (by simp) (by simp [Decoder.txMeta,learning])
    · simp only [ha,hx,if_true,if_false,Bool.false_eq_true] at hf ⊢
      have hc : o = none := hf
      subst hc
      exact ⟨hk,fun _ => ⟨rfl,by simp [released,Except.toOption,
        Decoder.buildRelationSchemaChangeEvent,CapturedDdl.toEvent]⟩⟩
  · simp only [ha,if_false,Bool.false_eq_true] at hf ⊢
    rw [next_adds_nil,completed_adds]
    exact ⟨hk,rfl⟩

lemma pushRow_framed (hR : Buffers o h) {oid : UInt32} {built : Except Error Event}
    {e : Event} (hb : built = .ok e) (he : h.decoder.OfRelation oid e)
    (hf : Fits o (Mark.adds (h.captured oid built) : Mark UInt64 Event)) :
    Buffers (next o (.adds (h.captured oid built))) (h.pushRow oid built).1 ∧
      (released (h.pushRow oid built)).2 = [] := by
  subst hb
  rw [pushRow_ok]
  exact ⟨hR.add hf (captured_length h oid e) (captured_meta he),rfl⟩

/-- Every record keeps the open transaction in the handle and releases the frame it completes. -/
theorem processMessage_framed (o : Option (UInt64 × List Event)) (h : PostgresStreamHandle)
    (item : PgOutputXLogData) (hR : Buffers o h)
    (hi : h.Readable item ∧ h.TruncatesOne item) (hf : Fits o (h.mark item)) :
    Buffers (next o (h.mark item)) (h.take item).1 ∧ Releases (fun f es => Countable f → ReleasedAs f es)
        (completed o (h.mark item)) (h.take item).2 := by
  obtain ⟨hr,ht⟩ := hi
  rw [Readable] at hr
  rw [TruncatesOne] at ht
  rw [mark] at hf ⊢
  rw [take,processMessage]
  generalize item.data = data at *
  match data with
  | .error _ => exact hr.elim
  | .ok (.begin b) =>
    have hc : o = none := hf
    subst hc
    exact ⟨⟨rfl,b.xid,rfl,rfl,by simp [Placed]⟩,rfl⟩
  | .ok (.commit c) =>
    cases o with
    | none => exact absurd rfl hf
    | some tx =>
      obtain ⟨txId,en⟩ := tx
      obtain ⟨hh,xid,hx,htx,hp⟩ := hR
      subst hh htx
      exact ⟨⟨rfl,rfl⟩,fun hco => commit_whole hp hco⟩
  | .ok (.relation r) => exact relation_framed hR hf
  | .ok (.insert oid newTuple) =>
    obtain ⟨e,he⟩ := Decoder.buildInsertEvent_ok hr item.lsn
    rw [completed_adds]
    exact pushRow_framed hR he (Decoder.buildInsertEvent_ofRelation he) hf
  | .ok (.update u) =>
    obtain ⟨e,he⟩ := Decoder.buildUpdateEvent_ok hr.1 hr.2.1 hr.2.2 item.lsn
    rw [completed_adds]
    exact pushRow_framed hR he (Decoder.buildUpdateEvent_ofRelation he) hf
  | .ok (.delete d) =>
    obtain ⟨e,he⟩ := Decoder.buildDeleteEvent_ok hr.1 hr.2 item.lsn
    rw [completed_adds]
    exact pushRow_framed hR he (Decoder.buildDeleteEvent_ofRelation he) hf
  | .ok (.truncate oids) =>
    rw [completed_adds]
    refine ⟨hR.add hf ht fun e he => ?_,rfl⟩
    obtain ⟨hb,_⟩ := mem_filter.mp he
    obtain ⟨oid,_,rfl⟩ := mem_map.mp hb
    rfl
  | .ok (.unknown tag) =>
    have hta : protocolTags.contains tag = false := hr
    rw [next_adds_nil,completed_adds]
    simp only [hta]
    exact ⟨hR,rfl⟩

lemma processMessage_ok {item : PgOutputXLogData} (hr : h.Readable item) :
    ∃ events, (h.processMessage item).2 = .ok events := by
  rw [Readable] at hr
  rw [processMessage]
  generalize item.data = data at *
  match data with
  | .error _ => exact hr.elim
  | .ok (.begin b) => exact ⟨_,rfl⟩
  | .ok (.commit c) => exact ⟨_,rfl⟩
  | .ok (.relation r) =>
    dsimp only
    rw [processRelation_eq]
    dsimp only
    split
    · split <;> exact ⟨_,rfl⟩
    · exact ⟨_,rfl⟩
  | .ok (.insert oid newTuple) =>
    obtain ⟨e,he⟩ := Decoder.buildInsertEvent_ok hr item.lsn
    exact ⟨[],by simp only [he,pushRow_ok]⟩
  | .ok (.update u) =>
    obtain ⟨e,he⟩ := Decoder.buildUpdateEvent_ok hr.1 hr.2.1 hr.2.2 item.lsn
    exact ⟨[],by simp only [he,pushRow_ok]⟩
  | .ok (.delete d) =>
    obtain ⟨e,he⟩ := Decoder.buildDeleteEvent_ok hr.1 hr.2 item.lsn
    exact ⟨[],by simp only [he,pushRow_ok]⟩
  | .ok (.truncate oids) => exact ⟨_,rfl⟩
  | .ok (.unknown tag) =>
    have ht : protocolTags.contains tag = false := hr
    exact ⟨[],by simp only [ht]; rfl⟩

/-- One call, with what the caller gets from it. -/
def call (h : PostgresStreamHandle) (items : List PgOutputXLogData) :
    PostgresStreamHandle × List Event := released (h.processMessages items)

/-- What the condition asks of every record of a stream. -/
def Throughout (C : PostgresStreamHandle → PgOutputXLogData → Prop) (h : PostgresStreamHandle)
    (items : List PgOutputXLogData) : Prop := Machine.Meets (fun h item => (h.take item).1) C h items

def marked (h : PostgresStreamHandle) (items : List PgOutputXLogData) : List (Mark UInt64 Event) :=
  marks take mark h items

/-- A call over readable records gives everything they release. -/
theorem call_eq_feed {xs : List PgOutputXLogData} (hr : Throughout Readable h xs) :
    h.call xs = feed take h xs ∧ ∃ events, (h.processMessages xs).2 = .ok events := by
  induction xs generalizing h with
  | nil => exact ⟨rfl,[],rfl⟩
  | cons item xs ih =>
    obtain ⟨events,he⟩ := processMessage_ok hr.1
    obtain ⟨hre,m,hm⟩ := ih hr.2
    have ho : h.processMessage item = ((h.take item).1,.ok events) := Prod.ext rfl he
    have ha : (h.take item).1.processMessages xs = (((h.take item).1.processMessages xs).1,.ok m) := Prod.ext rfl hm
    have hb : h.processMessages (item::xs) = (((h.take item).1.processMessages xs).1,.ok (events++m)) := by
      rw [processMessages,ho]
      dsimp only
      rw [ha]
    refine ⟨?_,_,by rw [hb]⟩
    rw [call,hb,feed,← hre,call,ha,take,ho]
    rfl

lemma calls_eq_feed {bs : List (List PgOutputXLogData)} (hr : Throughout Readable h bs.flatten) :
    feed call h bs = feed take h bs.flatten := by
  induction bs generalizing h with
  | nil => rfl
  | cons b bs ih =>
    rw [flatten_cons,Throughout,Machine.meets_append] at hr
    rw [flatten_cons,feed_append,feed,(call_eq_feed hr.1).1]
    rw [← feed_state] at hr
    rw [ih hr.2]
end PostgresStreamHandle
end Postgres
lemma forall₂_countable {fs : List (Frame UInt64 Event)} {groups : List (List Event)}
    (h : List.Forall₂ (fun f es => Countable f → ReleasedAs f es) fs groups)
    (hc : ∀ f ∈ fs, Countable f) : List.Forall₂ ReleasedAs fs groups := by
  induction h with
  | nil => exact .nil
  | cons hf _ ih =>
    obtain ⟨hfi,hr⟩ := forall_mem_cons.mp hc
    exact .cons (hf hfi) (ih hr)

open Mysql Postgres in
/-- However the messages are split into calls, what the decoders have released is the transactions
committed so far, whole and in commit order, each event numbered within its transaction, as long as none
has more events than its counters can tell and, for PostgreSQL, no TRUNCATE concerns more than one
captured table. -/
theorem transactions_framed (sourceName : String) (tableIsAllowed : Option String → String → Bool) :
    (∀ (binlogFile : String) (binlogPos : UInt32) (gtid : String)
        (batches : List (List MysqlBinlogMessage)) (h : MysqlStreamHandle),
      h = .new sourceName binlogFile binlogPos gtid tableIsAllowed →
      WellFormed none (h.marked batches.flatten) →
      (∀ frame ∈ frames none (h.marked batches.flatten), Countable frame) →
      ∃ groups, List.Forall₂ ReleasedAs (frames none (h.marked batches.flatten)) groups ∧
        (feed MysqlStreamHandle.processMessages h batches).2 = groups.flatten) ∧
    (∀ (slotName : String) (lsnPosition : UInt64) (provider : Provider) (slotIdleAdvanceIntervalMs : UInt64)
        (catalogPrimaryKeys : List ((String × String) × List String))
        (batches : List (List PgOutputXLogData)) (h : PostgresStreamHandle),
      h = .new sourceName slotName lsnPosition provider slotIdleAdvanceIntervalMs tableIsAllowed catalogPrimaryKeys →
      WellFormed none (h.marked batches.flatten) →
      PostgresStreamHandle.Throughout PostgresStreamHandle.Readable h batches.flatten →
      (∀ frame ∈ frames none (h.marked batches.flatten), Countable frame) →
      PostgresStreamHandle.Throughout PostgresStreamHandle.TruncatesOne h batches.flatten →
      ∃ groups, List.Forall₂ ReleasedAs (frames none (h.marked batches.flatten)) groups ∧
        (feed PostgresStreamHandle.call h batches).2 = groups.flatten) := by
  constructor
  · intro binlogFile binlogPos gtid batches h hn hw hc
    have hs : MysqlStreamHandle.Buffers none h := by rw [hn]; rfl
    obtain ⟨groups,hg,hf⟩ := feed_framed (C := fun _ _ => True) (fun opened h message hR _ hfi =>
        MysqlStreamHandle.processMessage_framed opened h message hR hfi)
      hs (Machine.meets_true _ h batches.flatten) hw
    refine ⟨groups,forall₂_countable hg hc,?_⟩
    rw [← hf,← feed_batches,show MysqlStreamHandle.processMessages = feed MysqlStreamHandle.processMessage from
        funext fun h => funext (MysqlStreamHandle.processMessages_eq_feed h)]
  · intro slotName lsnPosition provider slotIdleAdvanceIntervalMs catalogPrimaryKeys batches h hn hw hr hc ho
    have hs : PostgresStreamHandle.Buffers none h := by rw [hn]; exact ⟨rfl,rfl⟩
    obtain ⟨groups,hg,hf⟩ := feed_framed PostgresStreamHandle.processMessage_framed hs (Machine.meets_and _ hr ho) hw
    refine ⟨groups,forall₂_countable hg hc,?_⟩
    rw [← hf,PostgresStreamHandle.calls_eq_feed hr]
section
open Mysql Postgres

def shopBinlog : MysqlStreamHandle := .new "shop" "binlog.000001" 4 "" fun _ table => table ≠ "audit"
def rowOf (table : String) : MysqlRowChange := ⟨some "shop",table,some ["id"],none,some (.obj [])⟩

/-- Two transactions over three calls, a row of a table that is not captured, and a truncation. -/
def shopCalls : List (List MysqlBinlogMessage) := [[.begin 7 1000,.writeRows (rowOf "orders")],
    [.writeRows (rowOf "audit"),.heartbeat,.deleteRows (rowOf "items"),
      .xid 7 1000 "binlog.000001" 400 none,.truncate (some "shop") "items" 1001 "binlog.000001" 500],
    [.begin 8 1002,.updateRows (rowOf "orders"),.xid 8 1002 "binlog.000001" 700 none]]

def shopSlot : PostgresStreamHandle := .new "shop" "slot" 0 (.streaming 0 0) 0 (fun _ table => table ≠ "audit") []
def relationOf (oid : UInt32) (table : String) : PgRelation := ⟨oid,"shop",table,100,[⟨"id",1,23,-1⟩]⟩
def record (lsn : UInt64) (message : PgOutputMessage) : PgOutputXLogData := ⟨lsn,.ok message,1000⟩

/-- A transaction over two calls: its tables, a row, and a truncation of the given tables. -/
def truncation (oids : List UInt32) : List (List PgOutputXLogData) :=
  [[record 10 (.begin ⟨90,0,7⟩),record 11 (.relation (relationOf 1 "orders")),
      record 12 (.relation (relationOf 2 "items")),record 13 (.insert 1 [.text "41"])],
    [record 14 (.truncate oids),record 20 (.commit ⟨80,90⟩)]]

theorem transactions_framed_sample :
    (∃ groups, List.Forall₂ ReleasedAs (frames none (shopBinlog.marked shopCalls.flatten)) groups ∧
        (feed MysqlStreamHandle.processMessages shopBinlog shopCalls).2 = groups.flatten) ∧
      ∃ groups, List.Forall₂ ReleasedAs (frames none (shopSlot.marked (truncation [2]).flatten)) groups ∧
        (feed PostgresStreamHandle.call shopSlot (truncation [2])).2 = groups.flatten := by
  obtain ⟨hm,hp⟩ := transactions_framed "shop" fun _ table => table ≠ "audit"
  constructor
  · exact hm "binlog.000001" 4 "" shopCalls shopBinlog rfl (by decide) (by decide)
  · exact hp "slot" 0 (.streaming 0 0) 0 [] (truncation [2]) shopSlot rfl (by decide)
      ⟨trivial,trivial,trivial,rfl,trivial,trivial,trivial⟩ (by decide)
      ⟨trivial,trivial,trivial,trivial,by decide,trivial,trivial⟩

/-- Two tables truncated by one statement get the same place in the transaction. -/
theorem truncate_numbered_twice : WellFormed none (shopSlot.marked (truncation [1,2]).flatten) ∧
      PostgresStreamHandle.Throughout PostgresStreamHandle.Readable shopSlot (truncation [1,2]).flatten ∧
      ¬∃ groups, List.Forall₂ ReleasedAs (frames none (shopSlot.marked (truncation [1,2]).flatten)) groups ∧
        (feed PostgresStreamHandle.call shopSlot (truncation [1,2])).2 = groups.flatten := by
  refine ⟨by decide,⟨trivial,trivial,trivial,rfl,trivial,trivial,trivial⟩,?_⟩
  rintro ⟨groups,hg,hfl⟩
  have hp : (feed PostgresStreamHandle.call shopSlot (truncation [1,2])).2.map
      (fun e => e.transaction.map (·.eventIndex)) = [some 0,some 1,some 1] := by decide
  obtain ⟨entries,hf⟩ : ∃ entries,
    frames none (shopSlot.marked (truncation [1,2]).flatten) = [.transaction 7 entries] := ⟨_,rfl⟩
  rw [hf] at hg
  cases hg with
  | cons hw hn =>
    cases hn
    rw [hfl,List.flatten_singleton] at hp
    obtain ⟨e₀,e₁,e₂,rfl⟩ : ∃ e₀ e₁ e₂, _ = [e₀,e₁,e₂] :=
      List.length_eq_three.mp (by simpa using congrArg List.length hp)
    obtain ⟨tx,ht,_,hi,_⟩ := hw.numbered 2 e₂ rfl
    have hl : e₂.transaction.map (·.eventIndex) = some 1 := (List.cons.inj (List.cons.inj (List.cons.inj hp).2).2).1
    rw [ht] at hl
    rw [show tx.eventIndex = 1 from Option.some.inj hl] at hi
    cases hi
end
end Rustcdc
