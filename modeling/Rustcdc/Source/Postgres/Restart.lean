import Rustcdc.Runtime.Resume
import Rustcdc.Source.Postgres.Slot

/-! The PostgreSQL stream as a connector: a transaction's events all resume at its end. -/
namespace Rustcdc.Postgres
open List PostgresStreamHandle
section
-- where the server ends each transaction
variable (txEnd : UInt64 → ℕ)

def endOf (e : Event) : ℕ := (e.transaction.map (txEnd ·.txId)).getD 0
def rank : Offset → ℕ
  | .postgres lsn _ _ => lsn.toNat
  | _ => 0

/-- A change of the transaction, at a position inside it. -/
structure Belongs (txId : UInt64) (e : Event) : Prop where
  change : e.snapshot = none
  member : e.transaction.map (·.txId) = some txId
  inside : ∃ lsn, e.source.offset = formatPgLsn lsn ∧ lsn.toNat ≤ txEnd txId

variable {e : Event} {items : List PgOutputXLogData} {answer : PassAnswer} {txId : UInt64}
variable {txEnd} in
lemma Belongs.endOf_eq (h : Belongs txEnd txId e) : endOf txEnd e = txEnd txId := by
  have hm := h.member
  cases ht : e.transaction with
  | none => simp [ht] at hm
  | some =>
    rw [ht,Option.map_some] at hm
    simp [endOf,ht,Option.some.inj hm]

def Carried (e : Event) : Prop := ∃ txId, Belongs txEnd txId e

/-- What the handle has open is of one transaction, and the ends it tracks are right. -/
structure Good (h : PostgresStreamHandle) : Prop where
  ends : ∀ p ∈ h.committedTxEnds, p.2.toNat = txEnd p.1
  held : ∀ e ∈ h.decoder.partialTxEvents, ∃ xid, h.decoder.currentXid = some xid ∧ Belongs txEnd xid.toUInt64 e

/-- The server's side of a pass: changes come inside the transaction they belong to, and
transactions in the order they end. -/
def Bracketed : ℕ → Option UInt32 → List PgOutputXLogData → Prop
  | _, _, [] => True
  | last, tx, item::items =>
    match item.data with
    | .ok (.begin b) => Bracketed last (some b.xid) items
    | .ok (.commit c) => last ≤ c.endLsn.toNat ∧
        (∃ xid ∈ tx, c.endLsn.toNat = txEnd xid.toUInt64) ∧ Bracketed c.endLsn.toNat none items
    | .ok (.unknown _) | .error _ => Bracketed last tx items
    | _ => (∃ xid ∈ tx, item.lsn.toNat ≤ txEnd xid.toUInt64) ∧ Bracketed last tx items

def Sent : PostgresStreamHandle → List PassAnswer → Prop
  | _, [] => True
  | h, answer::answers =>
    Bracketed txEnd 0 h.decoder.currentXid (h.passRows answer) ∧ Sent (h.pass answer).1 answers

instance bracketedDecidable (txEnd : UInt64 → ℕ) : (last : ℕ) → (tx : Option UInt32) →
    (items : List PgOutputXLogData) → Decidable (Bracketed txEnd last tx items)
  | _, _, [] => .isTrue trivial
  | last, tx, item::items => by
    have := fun last tx => bracketedDecidable txEnd last tx items
    unfold Bracketed
    split <;> infer_instance

instance sentDecidable (txEnd : UInt64 → ℕ) : (h : PostgresStreamHandle) →
    (answers : List PassAnswer) → Decidable (Sent txEnd h answers)
  | _, [] => .isTrue trivial
  | h, answer::answers => by
    have := sentDecidable txEnd (h.pass answer).1 answers
    unfold Sent
    infer_instance

variable {txEnd}

lemma Belongs.of_header {e' : Event} (h : Belongs txEnd txId e) (hso : e'.source = e.source)
    (hs : e'.snapshot = e.snapshot)
    (ht : e'.transaction.map (·.txId) = e.transaction.map (·.txId)) :
    Belongs txEnd txId e' :=
  ⟨hs.trans h.change,ht.trans h.member,by rw [hso]; exact h.inside⟩
section
variable {d : Decoder} {xid : UInt32} (hx : d.currentXid = some xid) {lsn : UInt64}
  (hl : lsn.toNat ≤ txEnd xid.toUInt64)
include hx hl

lemma rowEvent_belongs (oid : UInt32) (op : Operation) : Belongs txEnd xid.toUInt64 (d.rowEvent oid lsn op) :=
  ⟨rfl,by simp [Decoder.rowEvent,Decoder.txMeta,hx],lsn,rfl,hl⟩

variable {e : Event}

lemma buildInsertEvent_belongs {oid : UInt32} {tuple : List PgValue}
    (h : d.buildInsertEvent oid tuple lsn = .ok e) : Belongs txEnd xid.toUInt64 e := by
  unfold Decoder.buildInsertEvent at h
  obtain ⟨_,_,rfl⟩ := except_map_ok h
  exact (rowEvent_belongs hx hl oid .insert).of_header rfl rfl rfl

lemma buildUpdateEvent_belongs {u : PgUpdate} (h : d.buildUpdateEvent u lsn = .ok e) :
    Belongs txEnd xid.toUInt64 e := by
  unfold Decoder.buildUpdateEvent at h
  split at h
  · cases h
  · obtain ⟨_,_,rfl⟩ := except_map_ok h
    exact (rowEvent_belongs hx hl u.relationOid .update).of_header rfl rfl rfl

lemma buildDeleteEvent_belongs {delete : PgDelete} (h : d.buildDeleteEvent delete lsn = .ok e) :
    Belongs txEnd xid.toUInt64 e := by
  unfold Decoder.buildDeleteEvent at h
  obtain ⟨_,_,rfl⟩ := except_map_ok h
  exact (rowEvent_belongs hx hl delete.relationOid .delete).of_header rfl rfl rfl

lemma buildTruncateEvents_belongs {oids : List UInt32} :
    ∀ e ∈ d.buildTruncateEvents oids lsn, Belongs txEnd xid.toUInt64 e := by
  intro e he
  obtain ⟨oid,_,rfl⟩ := mem_map.mp he
  exact (rowEvent_belongs hx hl oid .truncate).of_header rfl rfl rfl

lemma schemaChange_belongs (r : PgRelation) (now : UInt64) : Belongs txEnd xid.toUInt64
      {d.buildRelationSchemaChangeEvent r lsn now with transaction := d.txMeta} :=
  ⟨rfl,by simp [Decoder.txMeta,hx],lsn,rfl,hl⟩
end
/-- A step of the decoder: the handle stays good, and what it releases is in commit order and
ends within bounds. -/
structure Stepped (txEnd : UInt64 → ℕ) (low high : ℕ)
    (result : PostgresStreamHandle × Except Error (List Event)) : Prop where
  good : Good txEnd result.1
  carried : ∀ events, result.2 = .ok events →
    ∀ e ∈ events, Carried txEnd e ∧ low ≤ endOf txEnd e ∧ endOf txEnd e ≤ high
  ordered : ∀ events, result.2 = .ok events → events.Pairwise (fun a b => endOf txEnd a ≤ endOf txEnd b)

variable {h : PostgresStreamHandle} {low : ℕ}

lemma Stepped.silent (hg : Good txEnd h) {high : ℕ} : Stepped txEnd low high (h,.ok []) := by
  refine ⟨hg,fun es he => ?_,fun es he => ?_⟩ <;> cases he
  · simp
  · exact .nil

lemma Stepped.failed (hg : Good txEnd h) {high : ℕ} (e : Error) : Stepped txEnd low high (h,.error e) :=
  ⟨hg,by simp,by simp⟩

namespace Good
variable {h : PostgresStreamHandle} {xid : UInt32} {low high : ℕ}

lemma push (hg : Good txEnd h) (hxid : h.decoder.currentXid = some xid) (d : Decoder)
    (es : List Event) (hd : d.currentXid = h.decoder.currentXid)
    (hr : d.partialTxEvents = h.decoder.partialTxEvents++es)
    (hev : ∀ e ∈ es, Belongs txEnd xid.toUInt64 e) : Good txEnd {h with decoder := d} := by
  refine ⟨hg.ends,fun e he => ?_⟩
  simp only [hr,mem_append] at he
  simp only [hd]
  rcases he with he | he
  · exact hg.held e he
  · exact ⟨xid,hxid,hev e he⟩

lemma pushRow (hg : Good txEnd h) (hxid : h.decoder.currentXid = some xid) (oid : UInt32)
    {ev : Except Error Event} (he : ∀ e, ev = .ok e → Belongs txEnd xid.toUInt64 e) :
    Stepped txEnd low high (h.pushRow oid ev) := by
  unfold PostgresStreamHandle.pushRow
  split
  · cases ev with
    | error error => exact .failed hg error
    | ok e =>
      refine .silent ?_
      refine hg.push hxid _ [e] rfl rfl fun e' he' => ?_
      obtain rfl := mem_singleton.mp he'
      exact he _ rfl
  · exact .silent hg

lemma processRelation (hg : Good txEnd h) (hxid : h.decoder.currentXid = some xid)
    {lsn : UInt64} (hlsn : lsn.toNat ≤ txEnd xid.toUInt64) (r : PgRelation) (now : UInt64) :
    Stepped txEnd low high (h.processRelation r lsn now) := by
  unfold PostgresStreamHandle.processRelation
  dsimp only
  split_ifs with _ ho
  · refine .silent ?_
    refine hg.push hxid _ [_] rfl rfl fun e he => ?_
    obtain rfl := mem_singleton.mp he
    exact schemaChange_belongs hxid hlsn r now
  · exact absurd ho (by simp [hxid])
  · refine .silent ?_
    exact hg.push hxid _ [] rfl (by simp) (by simp)

lemma processCommit (hg : Good txEnd h) (hxid : h.decoder.currentXid = some xid) {c : PgCommit}
    (hend : c.endLsn.toNat = txEnd xid.toUInt64) (hl : low ≤ c.endLsn.toNat) :
    Stepped txEnd low c.endLsn.toNat (h.processCommit c) := by
  have hb : ∀ e ∈ h.decoder.partialTxEvents.map (withTotal
      (UInt32.ofNat h.decoder.partialTxEvents.length)), Belongs txEnd xid.toUInt64 e := by
    intro e he
    obtain ⟨row,hr,rfl⟩ := mem_map.mp he
    obtain ⟨xid',hxid',hb⟩ := hg.held row hr
    obtain rfl := Option.some.inj (hxid.symm.trans hxid')
    refine hb.of_header rfl rfl ?_
    simp [withTotal,Function.comp_def]
  have hen : ∀ e ∈ h.decoder.partialTxEvents.map (withTotal
      (UInt32.ofNat h.decoder.partialTxEvents.length)), endOf txEnd e = c.endLsn.toNat := by
    intro e he
    rw [(hb e he).endOf_eq,hend]
  refine ⟨⟨?_,by simp [PostgresStreamHandle.processCommit]⟩,?_,?_⟩
  · intro p hp
    simp only [PostgresStreamHandle.processCommit,hxid,trackTxEnd] at hp
    rcases mem_append.mp (mem_of_mem_drop hp) with hp | hp
    · exact hg.ends p hp
    · obtain rfl := mem_singleton.mp hp
      exact hend
  · intro es heq e he
    cases heq
    rw [hen e he]
    exact ⟨⟨_,hb e he⟩,hl,le_rfl⟩
  · intro es heq
    cases heq
    refine pairwise_iff_forall_sublist.mpr fun {a b} hs => ?_
    rw [hen a (hs.subset (by simp)),hen b (hs.subset (by simp))]

variable {x : PgOutputXLogData}

lemma inside (hg : Good txEnd h) (hxid : h.decoder.currentXid = some xid)
    (hlsn : x.lsn.toNat ≤ txEnd xid.toUInt64) (hb : ∀ b, x.data ≠ .ok (.begin b))
    (hc : ∀ c, x.data ≠ .ok (.commit c)) :
    Stepped txEnd low high (h.processMessage x) := by
  unfold processMessage
  split
  · exact .failed hg _
  · rename_i b hd
    exact absurd hd (hb b)
  · rename_i c hd
    exact absurd hd (hc c)
  · exact hg.processRelation hxid hlsn _ _
  · exact hg.pushRow hxid _ (fun e he => buildInsertEvent_belongs hxid hlsn he)
  · exact hg.pushRow hxid _ (fun e he => buildUpdateEvent_belongs hxid hlsn he)
  · exact hg.pushRow hxid _ (fun e he => buildDeleteEvent_belongs hxid hlsn he)
  · refine .silent ?_
    refine hg.push hxid _ _ rfl rfl fun e he => ?_
    exact buildTruncateEvents_belongs hxid hlsn e (mem_of_mem_filter he)
  · split_ifs
    · exact .failed hg _
    · exact .silent hg

/-- A message the server does not have to place releases nothing and changes nothing. -/
theorem outside (hg : Good txEnd h) (hd : (∃ tag, x.data = .ok (.unknown tag)) ∨ ∃ e, x.data = .error e) :
    Stepped txEnd low high (h.processMessage x) := by
  unfold processMessage
  rcases hd with ⟨tag,hd⟩ | ⟨e,hd⟩ <;> simp only [hd]
  · split_ifs
    · exact .failed hg _
    · exact .silent hg
  · exact .failed hg e
end Good
/-- One message, and what is left for the rest of the pass. -/
theorem processMessage_stepped (hg : Good txEnd h) {it : PgOutputXLogData}
    (hs : Bracketed txEnd low h.decoder.currentXid (it::items)) :
    ∃ high, low ≤ high ∧ Stepped txEnd low high (h.processMessage it) ∧
      Bracketed txEnd high (h.processMessage it).1.decoder.currentXid items := by
  have hi : (∀ b, it.data ≠ .ok (.begin b)) → (∀ c, it.data ≠ .ok (.commit c)) →
      (h.processMessage it).1.decoder.currentXid = h.decoder.currentXid :=
    fun hb hc => (h.processMessage_inside hb hc).2.1
  unfold Bracketed at hs
  split at hs
  · rename_i b hd
    refine ⟨low,le_rfl,?_,?_⟩ <;> simp only [processMessage,hd]
    · refine .silent ?_
      exact ⟨hg.ends,by simp⟩
    · exact hs
  · rename_i c hd
    obtain ⟨hl,⟨xid,hxid,he⟩,hr⟩ := hs
    refine ⟨c.endLsn.toNat,hl,?_,?_⟩ <;> simp only [processMessage,hd]
    · exact hg.processCommit hxid he hl
    · exact hr
  · rename_i tag hd
    rw [← hi (by simp [hd]) (by simp [hd])] at hs
    exact ⟨low,le_rfl,hg.outside (.inl ⟨tag,hd⟩),hs⟩
  · rename_i e hd
    rw [← hi (by simp [hd]) (by simp [hd])] at hs
    exact ⟨low,le_rfl,hg.outside (.inr ⟨e,hd⟩),hs⟩
  · rename_i hb hc _ _
    obtain ⟨⟨xid,hxid,hlsn⟩,hr⟩ := hs
    have hst : Stepped txEnd low low (h.processMessage it) := hg.inside hxid hlsn hb hc
    rw [← hi hb hc] at hr
    exact ⟨low,le_rfl,hst,hr⟩

lemma processMessages_stepped (hg : Good txEnd h) (hs : Bracketed txEnd low h.decoder.currentXid items) :
    ∃ high, low ≤ high ∧ Stepped txEnd low high (h.processMessages items) := by
  induction items generalizing h low with
  | nil => exact ⟨low,le_rfl,.silent hg⟩
  | cons it items ih =>
    obtain ⟨mid,hmi,ho,hre⟩ := processMessage_stepped hg hs
    obtain ⟨high,hh,hm⟩ := ih ho.good hre
    refine ⟨high,hmi.trans hh,?_⟩
    rw [processMessages]
    generalize h.processMessage it = one at ho hm ⊢
    obtain ⟨h₁,r⟩ := one
    cases r with
    | error e => exact .failed ho.good e
    | ok released =>
      dsimp only at hm ⊢
      generalize h₁.processMessages items = many at hm ⊢
      obtain ⟨h₂,r⟩ := many
      cases r with
      | error e => exact .failed hm.good e
      | ok re =>
        have hr := ho.carried released rfl
        have hl := hm.carried re rfl
        refine ⟨hm.good,fun es heq e he => ?_,fun es heq => ?_⟩ <;>
          cases heq
        · rcases mem_append.mp he with he | he
          · obtain ⟨hc,hle,hge⟩ := hr e he
            exact ⟨hc,hle,hge.trans hh⟩
          · obtain ⟨hc,hle,hge⟩ := hl e he
            exact ⟨hc,hmi.trans hle,hge⟩
        · refine pairwise_append.mpr ⟨ho.ordered released rfl,hm.ordered re rfl,?_⟩
          intro a ha b hb
          exact (hr a ha).2.2.trans (hl b hb).2.1

lemma Good.withProvider (hg : Good txEnd h) (provider : Provider) : Good txEnd {h with provider := provider} :=
  ⟨hg.ends,hg.held⟩

lemma lagOutcome_silent (answer : Option (Except Error Unit)) (es : List Event) :
    lagOutcome answer ≠ some (.ok es) := by
  unfold lagOutcome
  split <;> simp

lemma idlePass_silent (h : PostgresStreamHandle) (caughtUp : Bool) (answer : PassAnswer)
    (es : List Event) : (h.idlePass caughtUp answer).2 ≠ some (.ok es) := by
  rw [idlePass,sampleSlotLag_eq]
  have hl := lagOutcome_silent answer.slotLag es
  generalize lagOutcome answer.slotLag = lag at hl ⊢
  cases lag with
  | some => exact hl
  | none =>
    dsimp only
    split
    · exact h.withProvider_silent _ es
    · simp

lemma confirmFiltered_silent (h : PostgresStreamHandle) (lsnBefore : UInt64) (answer : PassAnswer) (es : List Event) :
    (h.confirmFiltered lsnBefore answer).2 ≠ some (.ok es) := by
  unfold confirmFiltered
  split
  · have hp := h.withProvider_silent (h.provider.confirmLsn h.lsnPosition answer.confirm)
    generalize h.withProvider (h.provider.confirmLsn h.lsnPosition answer.confirm) = confirmed at hp ⊢
    obtain ⟨h',r⟩ := confirmed
    cases r with
    | some => exact hp es
    | none =>
      dsimp only
      rw [sampleSlotLag_eq]
      exact lagOutcome_silent _ es
  · rw [sampleSlotLag_eq]
    exact lagOutcome_silent _ es

lemma pass_events {events : List Event} (hr : (h.pass answer).2 = some (.ok events)) :
    ((h.polled answer).processMessages (h.passRows answer)).2 = .ok events := by
  unfold PostgresStreamHandle.pass at hr
  cases hp : h.provider.pollXlogData answer.poll with
  | mk pr r =>
    rw [hp] at hr
    cases r with
    | error => simp at hr
    | ok oc =>
      simp only [polled,passRows,hp]
      dsimp only at hr
      split at hr
      · exact absurd hr (idlePass_silent _ _ answer events)
      · split at hr
        · simp at hr
        · exact absurd hr (confirmFiltered_silent _ _ answer events)
        · rename_i he
          rw [he]
          exact Option.some.inj hr

lemma pass_stepped (hg : Good txEnd h) (hse : Bracketed txEnd 0 h.decoder.currentXid (h.passRows answer)) :
    Good txEnd (h.pass answer).1 ∧ ∀ es, (h.pass answer).2 = some (.ok es) →
      (∀ e ∈ es, Carried txEnd e) ∧ es.Pairwise (fun a b => endOf txEnd a ≤ endOf txEnd b) := by
  have hp : Good txEnd (h.polled answer) := hg.withProvider _
  obtain ⟨high,_,hs⟩ := processMessages_stepped hp hse
  refine ⟨?_,fun es heq => ?_⟩
  · have hef := h.pass_effect answer
    generalize h.pass answer = passed at hef ⊢
    cases hef with
    | still pr | filtered pr | idle pr => exact hs.good.withProvider pr
  · have hev := pass_events heq
    exact ⟨fun e he => (hs.carried es hev e he).1,hs.ordered es hev⟩

lemma passes_stepped (hg : Good txEnd h) {as : List PassAnswer} (hs : Sent txEnd h as) :
    Good txEnd (h.passes as).1 ∧ ∀ es, (h.passes as).2 = .ok es →
      (∀ e ∈ es, Carried txEnd e) ∧ es.Pairwise (fun a b => endOf txEnd a ≤ endOf txEnd b) := by
  induction as generalizing h with
  | nil =>
    refine ⟨hg,fun es he => ?_⟩
    cases he
    simp
  | cons answer as ih =>
    obtain ⟨hp,hr⟩ := hs
    have ho := pass_stepped hg hp
    rw [passes]
    generalize h.pass answer = passed at ho hr ⊢
    obtain ⟨h₁,r⟩ := passed
    cases r with
    | none => exact ih ho.1 hr
    | some => exact ⟨ho.1,fun es he => ho.2 es (congrArg some he)⟩

/-- The position an event resumes at is inside its transaction or at its end. -/
theorem resumeOffsetFor_inside {S : Type} [SnapshotHandle S]
    {rt : CdcRuntime S PostgresStreamHandle} (hg : ∀ h, rt.stream = some h → Good txEnd h)
    (hb : Belongs txEnd txId e) :
    ∃ lsn, rt.resumeOffsetFor e = formatPgLsn lsn ∧ lsn.toNat ≤ txEnd txId := by
  obtain ⟨lsn,ho,hlsn⟩ := hb.inside
  cases hs : rt.stream with
  | none => exact ⟨lsn,by simp [CdcRuntime.resumeOffsetFor,hs,ho],hlsn⟩
  | some h =>
    obtain ⟨tx,ht,rfl⟩ := Option.map_eq_some_iff.mp hb.member
    have hr : rt.resumeOffsetFor e =
        ((h.committedTxEnds.reverse.lookup tx.txId).map formatPgLsn).getD e.source.offset := by
      rw [CdcRuntime.resumeOffsetFor,hs,Option.bind_some]
      show (h.resumeOffsetFor e).getD _ = _
      rw [resumeOffsetFor,ht,Option.bind_some]
    rw [hr]
    cases hl : h.committedTxEnds.reverse.lookup tx.txId with
    | none => exact ⟨lsn,ho,hlsn⟩
    | some endLsn =>
      have hm : (tx.txId,endLsn) ∈ h.committedTxEnds := by
        obtain ⟨_,_,hsp,_⟩ := lookup_eq_some_iff.mp hl
        rw [← mem_reverse,hsp]
        simp
      exact ⟨endLsn,rfl,((hg h hs).ends _ hm).le⟩

/-- The stream as the durable position sees it, for a server that ends transactions at `txEnd`. -/
def connector (txEnd : UInt64 → ℕ) : Connector PostgresStreamHandle where
  Accepts source := source.isPostgres = true
  Good := Good txEnd
  Sent := Sent txEnd
  Carried := Carried txEnd
  endOf := endOf txEnd
  rank := rank
  confirm_good h lsn answer hgood := by
    show Good txEnd (h.confirmLsn lsn answer).1
    unfold PostgresStreamHandle.confirmLsn
    split
    · exact hgood.withProvider _
    · exact ⟨fun p hp => hgood.ends p (List.mem_of_mem_filter hp),hgood.held⟩
  next_good h answer hgood hsent := by
    show Good txEnd (h.nextEvents answer).1
    unfold PostgresStreamHandle.nextEvents
    split
    · exact hgood
    · exact (passes_stepped hgood hsent).1
  next_carried h answer events hgood hsent heq := by
    change (h.nextEvents answer).2 = .ok events at heq
    unfold PostgresStreamHandle.nextEvents at heq
    split at heq
    · exact absurd heq (by simp)
    · exact (passes_stepped hgood hsent).2 events heq
  carried_change e := fun ⟨_,hbelongs⟩ => hbelongs.change
  recorded rt e offset haccepts hgood hcarried hbuild := by
    obtain ⟨txId,hbelongs⟩ := hcarried
    obtain ⟨lsn,hresume,hlsn⟩ := resumeOffsetFor_inside hgood hbelongs
    cases hsource : rt.config.source with
    | postgres slotName =>
      simp only [CdcRuntime.buildCheckpointOffset,hsource,hresume,parsePostgresLsn_format] at hbuild
      obtain rfl := Except.ok.inj hbuild
      rw [hbelongs.endOf_eq]
      exact hlsn
    | _ => simp [hsource,RuntimeSourceConfig.isPostgres] at haccepts

instance (txEnd : UInt64 → ℕ) (h : PostgresStreamHandle) (answers : List PassAnswer) :
    Decidable ((connector txEnd).Sent h answers) :=
  inferInstanceAs (Decidable (Sent txEnd h answers))
end
end Rustcdc.Postgres
