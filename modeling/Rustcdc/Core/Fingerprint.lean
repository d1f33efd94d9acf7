import Rustcdc.Core.Bytes
import Rustcdc.Core.Idempotency
import Rustcdc.Lib.Run

/-! An event's two fingerprints, and when they tell two events apart. -/
namespace Rustcdc
open Option List Framing

/-- What makes two events different ones. -/
structure EventIdentity where
  sourceName : String
  offset : String
  schema : Option String
  table : String
  op : Operation
  primaryKey : Option (List String)
  transaction : Option TransactionMetadata
  before : Option Json
  after : Option Json
  deriving DecidableEq

def Event.identity (e : Event) : EventIdentity :=
  ⟨e.source.sourceName,e.source.offset,e.schema,e.table,e.op,e.primaryKey,e.transaction,e.before,e.after⟩

/-- The declaration order of the operations, which is what their derived hash feeds. -/
def Operation.discriminant : Operation → ℕ
  | .insert => 0
  | .update => 1
  | .delete => 2
  | .read => 3
  | .schemaChange => 4
  | .truncate => 5

lemma Operation.discriminant_tellsApart (a b : Operation) : TellsApart (fun op => leBytes 8 op.discriminant) a b := by
  refine .of_length (by simp) fun h => ?_
  revert h
  cases a <;> cases b <;> decide

def Operation.toStr : Operation → String
  | .insert => "insert"
  | .update => "update"
  | .delete => "delete"
  | .read => "read"
  | .schemaChange => "schema_change"
  | .truncate => "truncate"

lemma Operation.toStr_tellsApart (a b : Operation) : TellsApart (fun op => sizedStr op.toStr) a b := by
  intro r s h
  have hs : ∀ op : Operation, (utf8 op.toStr.toList).length < 2^64 := by
    intro op
    cases op <;> decide
  obtain ⟨hst,hr⟩ := sizedStr_tellsApart (hs a) (hs b) r s h
  refine ⟨?_,hr⟩
  revert hst
  cases a <;> cases b <;> decide
section
variable (floatBits : List Char → UInt64)

/-- `Hash for Option<Vec<String>>`. -/
def hashKeys : Option (List String) → Bytes
  | none => leBytes 8 0
  | some keys => leBytes 8 1++(leBytes 8 keys.length++keys.flatMap hashStr)

/-- The transaction's words, with nothing to say that there are none. -/
def hashTransaction : Option (UInt64 × UInt32 × UInt32) → Bytes
  | none => []
  | some (txId,eventIndex,totalEvents) =>
    leBytes 8 txId.toNat++(leBytes 4 eventIndex.toNat++leBytes 4 totalEvents.toNat)

/-- A row image, with nothing to say that there is none. -/
def hashImage : Option Json → Bytes
  | none => []
  | some value => hashJsonValue floatBits value

/-- The bytes `fingerprint_event_transient` feeds its hasher. -/
def FingerprintImage.bytes (i : FingerprintImage) : Bytes :=
  hashStr i.sourceName++(hashStr i.offset++(hashStr i.table++(leBytes 8 i.op.discriminant++
    (hashKeys i.primaryKey++(hashTransaction i.transaction++
      (hashImage floatBits i.before++hashImage floatBits i.after))))))

lemma hashKeys_tellsApart {a b : Option (List String)} (ha : (a.getD []).length < 2^64)
    (hb : (b.getD []).length < 2^64) : TellsApart hashKeys a b := by
  intro r s h
  have ht : ∀ m n, m < 2^64 → n < 2^64 → TellsApart (leBytes 8) m n := fun m n hm hn => word_tellsApart hm hn
  cases a with
  | none =>
    cases b with
    | none => exact ⟨rfl,append_cancel_left h⟩
    | some =>
      exact absurd (ht 0 1 (by decide) (by decide) _ _ h).1 (by decide)
  | some keys =>
    cases b with
    | none =>
      exact absurd (ht 1 0 (by decide) (by decide) _ _ h).1 (by decide)
    | some keys' =>
      simp only [hashKeys,append_assoc,append_cancel_left_eq] at h
      have hc : TellsApart (fun keys : List String =>
          leBytes 8 keys.length++keys.flatMap hashStr) keys keys' :=
        .counted (word_tellsApart ha hb) fun x _ y _ => hashStr_tellsApart x y
      obtain ⟨hk,hr⟩ := hc r s (by simpa only [append_assoc] using h)
      exact ⟨by rw [hk],hr⟩

lemma uint32_tellsApart (a b : UInt32) : TellsApart (fun v : UInt32 => leBytes 4 v.toNat) a b := by
  intro r s h
  obtain ⟨hw,hr⟩ := leBytes_tellsApart 4 (by simpa using a.toNat_lt) (by simpa using b.toNat_lt) r s h
  exact ⟨UInt32.toNat_inj.mp hw,hr⟩

lemma uint64_tellsApart (a b : UInt64) : TellsApart (fun v : UInt64 => leBytes 8 v.toNat) a b := by
  intro r s h
  obtain ⟨hw,hr⟩ := word_tellsApart a.toNat_lt b.toNat_lt r s h
  exact ⟨UInt64.toNat_inj.mp hw,hr⟩

lemma hashTransaction_tellsApart {a b : Option (UInt64 × UInt32 × UInt32)}
    (hs : a.isSome = b.isSome) : TellsApart hashTransaction a b := by
  intro r s h
  cases a with
  | none =>
    cases b with
    | none => exact ⟨rfl,h⟩
    | some => cases hs
  | some =>
    cases b with
    | none => cases hs
    | some =>
      obtain ⟨hid,h⟩ := uint64_tellsApart _ _ _ _ h
      obtain ⟨hi,h⟩ := uint32_tellsApart _ _ _ _ h
      obtain ⟨ht,h⟩ := uint32_tellsApart _ _ _ _ h
      exact ⟨congrArg some (Prod.ext hid (Prod.ext hi ht)),h⟩

variable {floatBits}

lemma hashImage_tellsApart {a b : Option Json} (hs : a.isSome = b.isSome)
    (ha : ∀ v ∈ a, v.Sized) (hb : ∀ v ∈ b, v.Sized)
    (hn : ∀ v ∈ a, ∀ w ∈ b, NumbersApart floatBits v.numbers w.numbers) :
    TellsApart (hashImage floatBits) a b := by
  intro r s h
  cases a with
  | none =>
    cases b with
    | none => exact ⟨rfl,h⟩
    | some => cases hs
  | some v =>
    cases b with
    | none => cases hs
    | some w =>
      obtain ⟨hv,hr⟩ := hashJsonValue_tellsApart v w (ha v rfl) (hb w rfl) (hn v rfl w rfl) r s h
      exact ⟨by rw [hv],hr⟩

/-- The two events look alike enough for the transient form to tell what differs: the same
schema, the same parts present, no size beyond a machine word, and no two numbers or totals with
one word. -/
structure Framed (floatBits : List Char → UInt64) (a b : Event) : Prop where
  schema : a.schema = b.schema
  keys : (a.primaryKey.getD []).length < 2^64 ∧ (b.primaryKey.getD []).length < 2^64
  transaction : a.transaction.isSome = b.transaction.isSome
  totals : ∀ x ∈ a.transaction, ∀ y ∈ b.transaction,
    x.totalEvents.getD 0 = y.totalEvents.getD 0 → x.totalEvents = y.totalEvents
  before : a.before.isSome = b.before.isSome
  after : a.after.isSome = b.after.isSome
  sized : (∀ v ∈ a.before.toList++a.after.toList, v.Sized) ∧ ∀ v ∈ b.before.toList++b.after.toList, v.Sized
  numbers : ∀ v ∈ a.before.toList++a.after.toList, ∀ w ∈ b.before.toList++b.after.toList,
    NumbersApart floatBits v.numbers w.numbers

/-- What the transient form feeds without ambiguity. -/
def Event.transientHead (e : Event) : String × String × String × Operation × Option (List String) :=
  (e.source.sourceName,e.source.offset,e.table,e.op,e.primaryKey)

/-- The bytes of the parts that have no tag. -/
def Event.transientTail (floatBits : List Char → UInt64) (e : Event) : Bytes :=
  hashTransaction (fingerprintImage e).transaction++(hashImage floatBits e.before++hashImage floatBits e.after)

lemma transientBytes_eq_iff {a b : Event} (ha : (a.primaryKey.getD []).length < 2^64)
    (hb : (b.primaryKey.getD []).length < 2^64) :
    (fingerprintImage a).bytes floatBits = (fingerprintImage b).bytes floatBits ↔
      a.transientHead = b.transientHead ∧ a.transientTail floatBits = b.transientTail floatBits := by
  unfold FingerprintImage.bytes
  constructor
  · intro h
    obtain ⟨hn,h⟩ := hashStr_tellsApart _ _ _ _ h
    obtain ⟨ho,h⟩ := hashStr_tellsApart _ _ _ _ h
    obtain ⟨ht,h⟩ := hashStr_tellsApart _ _ _ _ h
    obtain ⟨hop,h⟩ := Operation.discriminant_tellsApart _ _ _ _ h
    obtain ⟨hk,h⟩ := hashKeys_tellsApart ha hb _ _ h
    simp only [fingerprintImage] at hn ho ht hop hk
    exact ⟨by rw [Event.transientHead,Event.transientHead,hn,ho,ht,hop,hk],h⟩
  · rintro ⟨hh,ht⟩
    simp only [Event.transientHead,Prod.mk.injEq] at hh
    obtain ⟨hn,ho,hta,hop,hk⟩ := hh
    have ht : hashTransaction (fingerprintImage a).transaction++
        (hashImage floatBits (fingerprintImage a).before++hashImage floatBits (fingerprintImage a).after) =
        hashTransaction (fingerprintImage b).transaction++
          (hashImage floatBits (fingerprintImage b).before++hashImage floatBits (fingerprintImage b).after) := ht
    rw [ht]
    simp only [fingerprintImage,hn,ho,hta,hop,hk]

lemma transaction_eq {a b : Option TransactionMetadata}
    (h : a.map (fun tx => (tx.txId,tx.eventIndex,tx.totalEvents.getD 0)) =
      b.map (fun tx => (tx.txId,tx.eventIndex,tx.totalEvents.getD 0)))
    (ht : ∀ x ∈ a, ∀ y ∈ b, x.totalEvents.getD 0 = y.totalEvents.getD 0 → x.totalEvents = y.totalEvents) : a = b := by
  cases a with
  | none => exact (map_eq_none_iff.mp h.symm).symm
  | some x =>
    cases b with
    | none => cases h
    | some y =>
      simp only [map_some,Option.some.injEq,Prod.mk.injEq] at h
      obtain ⟨hid,hi,hto⟩ := h
      cases x
      cases y
      simp_all

/-- Events the transient form hashes the same bytes for are the same event. -/
theorem Framed.identity_eq {a b : Event} (h : Framed floatBits a b)
    (hb : (fingerprintImage a).bytes floatBits = (fingerprintImage b).bytes floatBits) :
    a.identity = b.identity := by
  have hm : ∀ {e : Event}, (∀ v ∈ e.before, v ∈ e.before.toList++e.after.toList) ∧
      ∀ v ∈ e.after, v ∈ e.before.toList++e.after.toList := by
    intro e
    constructor <;> intro v hv <;> rw [mem_append,mem_toList,mem_toList]
    · exact .inl hv
    · exact .inr hv
  obtain ⟨hh,hb⟩ := (transientBytes_eq_iff h.keys.1 h.keys.2).mp hb
  simp only [Event.transientHead,Prod.mk.injEq] at hh
  obtain ⟨hn,ho,ht,hop,hk⟩ := hh
  unfold Event.transientTail at hb
  obtain ⟨htx,hb⟩ := hashTransaction_tellsApart (by simpa [fingerprintImage] using h.transaction) _ _ hb
  obtain ⟨hbe,hb⟩ := hashImage_tellsApart h.before
    (fun v hv => h.sized.1 v (hm.1 v hv)) (fun v hv => h.sized.2 v (hm.1 v hv))
    (fun v hv w hw => h.numbers v (hm.1 v hv) w (hm.1 w hw)) _ _ hb
  have ha := (hashImage_tellsApart h.after (fun v hv => h.sized.1 v (hm.2 v hv)) (fun v hv => h.sized.2 v (hm.2 v hv))
    (fun v hv w hw => h.numbers v (hm.2 v hv) w (hm.2 w hw))).eq hb
  have htx := transaction_eq htx h.totals
  have hs := h.schema
  simp only [Event.identity,hn,ho,hs,ht,hop,hk,htx,hbe,ha]
end
/-- The key columns behind their number, which is zero when there are none. -/
def stableKeys : Option (List String) → Bytes
  | none => leBytes 8 0
  | some keys => leBytes 8 keys.length++keys.flatMap sizedStr

def stableTransaction : Option TransactionMetadata → Bytes
  | none => [0]
  | some tx => 1::(leBytes 8 tx.txId.toNat++(leBytes 4 tx.eventIndex.toNat++ leBytes 4 (tx.totalEvents.getD 0).toNat))
def stableImage : Option Json → Bytes
  | none => [0]
  | some value => 1::(leBytes 8 (utf8 value.render).length++utf8 value.render)

/-- The bytes `fingerprint_event_stable` feeds its digest. -/
def Event.stableBytes (e : Event) : Bytes := utf8 "rustcdc/v1/fingerprint\x00".toList++(sizedStr e.source.sourceName++
    (sizedStr e.source.offset++(sizedStr e.table++(sizedStr e.op.toStr++(stableKeys e.primaryKey++
      (stableTransaction e.transaction++(stableImage e.before++stableImage e.after)))))))

/-- `fingerprint_event_stable` over an arbitrary digest. -/
def fingerprintEventStable (digest : Bytes → String) (e : Event) : Except Error String :=
  if blank e.source.sourceName then
    .error (.validationError ["cannot fingerprint event with empty source.source_name"])
  else if blank e.source.offset then
    .error (.validationError ["cannot fingerprint event with empty source.offset"])
  else .ok (digest e.stableBytes)

/-- No text is longer than a machine word can say. -/
structure Event.StableSized (e : Event) : Prop where
  name : (utf8 e.source.sourceName.toList).length < 2^64
  offset : (utf8 e.source.offset.toList).length < 2^64
  table : (utf8 e.table.toList).length < 2^64
  keyCount : (e.primaryKey.getD []).length < 2^64
  keys : ∀ key ∈ e.primaryKey.getD [], (utf8 key.toList).length < 2^64
  images : ∀ v ∈ e.before.toList++e.after.toList, (utf8 v.render).length < 2^64

/-- The two events look alike enough for the stable form to tell what differs. -/
structure StableFramed (a b : Event) : Prop where
  schema : a.schema = b.schema
  keys : a.primaryKey.getD [] = b.primaryKey.getD [] → a.primaryKey = b.primaryKey
  totals : ∀ x ∈ a.transaction, ∀ y ∈ b.transaction,
    x.totalEvents.getD 0 = y.totalEvents.getD 0 → x.totalEvents = y.totalEvents
  sized : a.StableSized ∧ b.StableSized

lemma stableKeys_tells {a b : Option (List String)} (ha : (a.getD []).length < 2^64)
    (hb : (b.getD []).length < 2^64) (hak : ∀ k ∈ a.getD [], (utf8 k.toList).length < 2^64)
    (hbk : ∀ k ∈ b.getD [], (utf8 k.toList).length < 2^64) {r s : Bytes}
    (h : stableKeys a++r = stableKeys b++s) : a.getD [] = b.getD [] ∧ r = s := by
  have hf : ∀ ks : Option (List String), stableKeys ks =
      leBytes 8 (ks.getD []).length++(ks.getD []).flatMap sizedStr := by
    intro ks
    cases ks with
    | none => simp [stableKeys]
    | some => rfl
  rw [hf,hf] at h
  have hc : TellsApart (fun ks : List String =>
      leBytes 8 ks.length++ks.flatMap sizedStr) (a.getD []) (b.getD []) :=
    .counted (word_tellsApart ha hb) fun x hx y hy => sizedStr_tellsApart (hak x hx) (hbk y hy)
  exact hc r s h

lemma stableTransaction_tells {a b : Option TransactionMetadata} {r s : Bytes}
    (h : stableTransaction a++r = stableTransaction b++s) :
    a.map (fun tx => (tx.txId,tx.eventIndex,tx.totalEvents.getD 0)) =
      b.map (fun tx => (tx.txId,tx.eventIndex,tx.totalEvents.getD 0)) ∧ r = s := by
  cases a with
  | none =>
    cases b with
    | none => exact ⟨rfl,(List.cons.inj h).2⟩
    | some => exact absurd (List.cons.inj h).1 (by decide)
  | some =>
    cases b with
    | none => exact absurd (List.cons.inj h).1 (by decide)
    | some =>
      exact @hashTransaction_tellsApart (some (_,_,_)) (some (_,_,_)) (Eq.refl true) _ _ (List.cons.inj h).2

lemma stableImage_tellsApart {a b : Option Json} (ha : ∀ v ∈ a, (utf8 v.render).length < 2^64)
    (hb : ∀ v ∈ b, (utf8 v.render).length < 2^64) : TellsApart stableImage a b := by
  intro r s h
  cases a with
  | none =>
    cases b with
    | none => exact ⟨rfl,(List.cons.inj h).2⟩
    | some => exact absurd (List.cons.inj h).1 (by decide)
  | some v =>
    cases b with
    | none => exact absurd (List.cons.inj h).1 (by decide)
    | some w =>
      have hs := TellsApart.sized (f := fun v : Json => utf8 v.render) (word_tellsApart (ha v rfl) (hb w rfl))
        fun h => Json.render_injective (utf8_injective h)
      obtain ⟨hv,hr⟩ := hs r s (List.cons.inj h).2
      exact ⟨by rw [hv],hr⟩

/-- What the stable form feeds of an event: not the schema, an empty key for none, and zero for no total. -/
def Event.stableView (e : Event) : EventIdentity := {e.identity with
    schema := none
    primaryKey := some (e.primaryKey.getD [])
    transaction := e.transaction.map fun tx => {tx with totalEvents := some (tx.totalEvents.getD 0)}}

lemma stableKeys_view (keys : Option (List String)) : stableKeys keys = stableKeys (some (keys.getD [])) := by
  cases keys with
  | none => simp [stableKeys]
  | some => rfl

lemma stableTransaction_view (tx : Option TransactionMetadata) : stableTransaction tx =
    stableTransaction (tx.map fun tx => {tx with totalEvents := some (tx.totalEvents.getD 0)}) := by
  cases tx <;> rfl

/-- The stable form digests the same bytes for two events if and only if it feeds the same of them. -/
theorem stableBytes_eq_iff {a b : Event} (ha : a.StableSized) (hb : b.StableSized) :
    a.stableBytes = b.stableBytes ↔ a.stableView = b.stableView := by
  constructor
  · intro hby
    unfold Event.stableBytes at hby
    have hby := append_cancel_left hby
    obtain ⟨hn,hby⟩ := sizedStr_tellsApart ha.name hb.name _ _ hby
    obtain ⟨ho,hby⟩ := sizedStr_tellsApart ha.offset hb.offset _ _ hby
    obtain ⟨ht,hby⟩ := sizedStr_tellsApart ha.table hb.table _ _ hby
    obtain ⟨hop,hby⟩ := Operation.toStr_tellsApart _ _ _ _ hby
    obtain ⟨hk,hby⟩ := stableKeys_tells ha.keyCount hb.keyCount ha.keys hb.keys hby
    obtain ⟨htx,hby⟩ := stableTransaction_tells hby
    obtain ⟨hbe,hby⟩ := stableImage_tellsApart (fun v hv => ha.images v (mem_append_left _ (mem_toList.mpr hv)))
      (fun v hv => hb.images v (mem_append_left _ (mem_toList.mpr hv))) _ _ hby
    have haf := (stableImage_tellsApart (fun v hv => ha.images v (mem_append_right _ (mem_toList.mpr hv)))
      (fun v hv => hb.images v (mem_append_right _ (mem_toList.mpr hv)))).eq hby
    have htx := congrArg (Option.map fun tx : UInt64 × UInt32 × UInt32 =>
      (⟨tx.1,some tx.2.2,tx.2.1⟩ : TransactionMetadata)) htx
    simp only [Option.map_map,Function.comp_def] at htx
    simp only [Event.stableView,Event.identity,hn,ho,ht,hop,hk,hbe,haf]
    rw [htx]
  · intro h
    simp only [Event.stableView,Event.identity,EventIdentity.mk.injEq] at h
    obtain ⟨hn,ho,_,ht,hop,hk,htx,hbe,haf⟩ := h
    unfold Event.stableBytes
    rw [hn,ho,ht,hop,hbe,haf,stableKeys_view a.primaryKey,hk,← stableKeys_view,
      stableTransaction_view a.transaction,htx,← stableTransaction_view]

/-- Events the stable form digests the same bytes for are the same event. -/
theorem StableFramed.identity_eq {a b : Event} (h : StableFramed a b)
    (hby : a.stableBytes = b.stableBytes) : a.identity = b.identity := by
  have hv := (stableBytes_eq_iff h.sized.1 h.sized.2).mp hby
  simp only [Event.stableView,Event.identity,EventIdentity.mk.injEq,Option.some.injEq] at hv
  obtain ⟨hn,ho,_,ht,hop,hk,htx,hbe,haf⟩ := hv
  have htx := congrArg (Option.map fun tx : TransactionMetadata => (tx.txId,tx.eventIndex,tx.totalEvents.getD 0)) htx
  simp only [Option.map_map,Function.comp_def,Option.getD_some] at htx
  have htx := transaction_eq htx h.totals
  have hk := h.keys hk
  have hs := h.schema
  simp only [Event.identity,hn,ho,hs,ht,hop,hk,htx,hbe,haf]

namespace EventIdempotencyGuard
variable (hash : FingerprintImage → UInt64)

lemma remove_subset (fp : UInt64) (seen : List (UInt64 × UInt64)) : remove fp seen ⊆ seen := filter_sublist.subset

lemma pruneFront_subset (ttl now : UInt64) (order seen : List (UInt64 × UInt64)) :
    (pruneFront ttl now order seen).2 ⊆ seen := by
  induction order generalizing seen with
  | nil => exact List.Subset.refl _
  | cons e order ih =>
    rw [pruneFront]
    split
    · exact List.Subset.refl _
    · exact List.Subset.trans (ih _) (remove_subset _ _)

lemma evict_subset (capacity : ℕ) (order seen : List (UInt64 × UInt64)) : (evict capacity order seen).2 ⊆ seen := by
  induction order generalizing seen with
  | nil => exact List.Subset.refl _
  | cons e order ih =>
    rw [evict]
    split
    · exact List.Subset.refl _
    · exact List.Subset.trans (ih _) (remove_subset _ _)

lemma pruneExpired_subset (g : EventIdempotencyGuard) (now : UInt64) : (g.pruneExpired now).seen ⊆ g.seen := by
  unfold pruneExpired
  split
  · exact List.Subset.refl _
  · exact pruneFront_subset _ _ _ _

variable {g : EventIdempotencyGuard}

lemma shouldProcess_seen {now : UInt64} {e : Event} {en : UInt64 × UInt64}
    (he : en ∈ (g.shouldProcess hash now e).1.seen) :
    en ∈ g.seen ∨ fingerprintEventTransient hash e = .ok en.1 := by
  have hp := g.pruneExpired_subset now
  simp only [shouldProcess] at he
  split at he
  · exact .inl (hp he)
  · split at he
    · exact .inl (hp he)
    · rename_i fingerprint hok
      split at he
      · exact .inl (hp he)
      · rcases mem_cons.mp (evict_subset _ _ _ he) with rfl | ho
        · exact .inr hok
        · exact .inl (hp (remove_subset _ _ ho))

lemma shouldProcess_suppressed {now : UInt64} {e : Event} (h : (g.shouldProcess hash now e).2 = .ok false) :
    ∃ en ∈ g.seen, fingerprintEventTransient hash e = .ok en.1 := by
  simp only [shouldProcess] at h
  split at h
  · cases h
  · split at h
    · cases h
    · rename_i fingerprint ho
      split_ifs at h with hc
      · obtain ⟨en,he,hs⟩ := any_eq_true.mp hc
        rw [decide_eq_true_eq] at hs
        exact ⟨en,g.pruneExpired_subset now he,hs ▸ ho⟩
      · cases h

/-- The guard after a run of events, each with the time it came at. -/
def after (g : EventIdempotencyGuard) (events : List (UInt64 × Event)) : EventIdempotencyGuard :=
  Machine.run (fun g x => (g.shouldProcess hash x.1 x.2).1) g events

lemma after_seen {known : List Event} (hk : ∀ en ∈ g.seen, ∃ e ∈ known, fingerprintEventTransient hash e = .ok en.1)
    (es : List (UInt64 × Event)) : ∀ en ∈ (g.after hash es).seen,
      ∃ e ∈ known++es.map (·.2), fingerprintEventTransient hash e = .ok en.1 := by
  induction es generalizing g known with
  | nil => simpa [after] using hk
  | cons x es ih =>
    have hs : ∀ en ∈ (g.shouldProcess hash x.1 x.2).1.seen,
        ∃ e ∈ known++[x.2], fingerprintEventTransient hash e = .ok en.1 := by
      intro en hen
      rcases shouldProcess_seen hash hen with ho | hn
      · obtain ⟨e,he,hok⟩ := hk en ho
        exact ⟨e,mem_append_left _ he,hok⟩
      · exact ⟨x.2,by simp,hn⟩
    have hr := ih hs
    simp only [append_assoc,singleton_append] at hr
    exact hr

/-- The bytes either form hashes tell two events apart if and only if they differ in what the form feeds
of them, as they do for events that differ and look alike enough for the framing.  With a hash that
does not collide on the bytes the guard suppresses only what has the bytes of an event it has seen. -/
theorem only_replays_suppressed (floatBits : List Char → UInt64) (digest : Bytes → UInt64) :
    (∀ a b : Event, (a.primaryKey.getD []).length < 2^64 → (b.primaryKey.getD []).length < 2^64 →
      ((fingerprintImage a).bytes floatBits ≠ (fingerprintImage b).bytes floatBits ↔
        a.transientHead ≠ b.transientHead ∨ a.transientTail floatBits ≠ b.transientTail floatBits)) ∧
    (∀ a b, Framed floatBits a b → a.identity ≠ b.identity →
      (fingerprintImage a).bytes floatBits ≠ (fingerprintImage b).bytes floatBits) ∧
    (∀ a b : Event, a.StableSized → b.StableSized →
      (a.stableBytes ≠ b.stableBytes ↔ a.stableView ≠ b.stableView)) ∧
    (∀ a b, StableFramed a b → a.identity ≠ b.identity → a.stableBytes ≠ b.stableBytes) ∧
    ∀ capacity ttlMs events now e, (∀ a ∈ events.map Prod.snd,
        (fingerprintImage a).bytes floatBits ≠ (fingerprintImage e).bytes floatBits ∧
        (digest ((fingerprintImage a).bytes floatBits) = digest ((fingerprintImage e).bytes floatBits) →
          (fingerprintImage a).bytes floatBits = (fingerprintImage e).bytes floatBits)) →
      (shouldProcess (fun i => digest (i.bytes floatBits)) now
        (after (fun i => digest (i.bytes floatBits)) ⟨capacity,ttlMs,[],[]⟩ events) e).2 ≠ .ok false := by
  refine ⟨fun a b ha hb => ?_,fun a b hf hne h => hne (hf.identity_eq h),
    fun a b ha hb => not_congr (stableBytes_eq_iff ha hb),
    fun a b hf hne h => hne (hf.identity_eq h),fun capacity ttlMs events now e hal h => ?_⟩
  · rw [ne_eq,transientBytes_eq_iff ha hb,not_and_or]
  obtain ⟨entry,he,ho⟩ := shouldProcess_suppressed _ h
  have hn : ∀ entry ∈ (⟨capacity,ttlMs,[],[]⟩ : EventIdempotencyGuard).seen, ∃ e ∈ ([] : List Event),
      fingerprintEventTransient (fun i => digest (i.bytes floatBits)) e = .ok entry.1 := by simp
  obtain ⟨a,ha,ho'⟩ := after_seen _ hn events entry he
  obtain ⟨hne,hfr⟩ := hal a ha
  refine hne (hfr ?_)
  have hfi : ∀ {x : Event} {f : UInt64}, fingerprintEventTransient (fun i => digest (i.bytes floatBits)) x = .ok f →
        digest ((fingerprintImage x).bytes floatBits) = f := by
    intro x f hx
    unfold fingerprintEventTransient at hx
    split at hx
    · cases hx
    · split at hx
      · cases hx
      · exact Except.ok.inj hx
  rw [hfi ho,hfi ho']

def rowRead (schema : String) (id : JsonNumber) : Event where
  before := none
  after := some (.obj [("id",.num id)])
  op := .read
  source := ⟨"inventory","0/16B3748",1⟩
  ts := 1
  schema := some schema
  table := "orders"
  primaryKey := some ["id"]
  snapshot := none
  transaction := none
  envelopeVersion := 1
  beforeIsKeyOnly := false
  unavailableColumns := []
  beforeUnavailableColumns := []

def number (text : String) (h : text.toList ≠ [] ∧ text.toList.all isNumberChar = true) : JsonNumber :=
  ⟨text.toList,h⟩
def first : Event := rowRead "sales" (number "1" (by decide))
def second : Event := rowRead "sales" (number "2" (by decide))

/-- A sum of bytes is enough of a hash for the two rows. -/
def byteSum (bytes : Bytes) : UInt64 := UInt64.ofNat (bytes.map UInt8.toNat).sum

theorem only_replays_suppressed_sample :
    (fingerprintImage first).bytes (fun _ => 0) ≠ (fingerprintImage second).bytes (fun _ => 0) ∧
      first.stableBytes ≠ second.stableBytes ∧
      (shouldProcess (fun i => byteSum (i.bytes fun _ => 0)) 2
        (after (fun i => byteSum (i.bytes fun _ => 0)) ⟨16,none,[],[]⟩ [(1,first)]) second).2 ≠ .ok false := by
  obtain ⟨_,ht,_,hst,hg⟩ := only_replays_suppressed (fun _ => 0) byteSum
  have hne : first.identity ≠ second.identity := by decide
  have hsi : ∀ id, ∀ v ∈ (rowRead "sales" id).before.toList++(rowRead "sales" id).after.toList,
      v.Sized := by simp [rowRead,Json.Sized,sizedFields]
  have hf : Framed (fun _ => 0) first second := by
    refine ⟨rfl,by decide,rfl,by decide,rfl,rfl,⟨hsi _,hsi _⟩,fun v hv w hw m hm n hn h => ?_⟩
    obtain rfl : v = .obj [("id",.num (number "1" (by decide)))] := by
      simpa [first,rowRead] using hv
    obtain rfl : w = .obj [("id",.num (number "2" (by decide)))] := by
      simpa [second,rowRead] using hw
    obtain rfl : m = number "1" (by decide) := by simpa [Json.numbers,numbersOfFields] using hm
    obtain rfl : n = number "2" (by decide) := by simpa [Json.numbers,numbersOfFields] using hn
    cases h
  have hs : StableFramed first second :=
    ⟨rfl,fun _ => rfl,by decide,⟨by decide,by decide,by decide,by decide,by decide,by decide⟩,
      ⟨by decide,by decide,by decide,by decide,by decide,by decide⟩⟩
  refine ⟨ht _ _ hf hne,hst _ _ hs hne,hg 16 none [(1,first)] 2 second ?_⟩
  intro a ha
  obtain rfl : a = first := by simpa using ha
  exact ⟨ht _ _ hf hne,fun h => absurd h (by decide)⟩

def archived : Event := rowRead "archive" (number "1" (by decide))

/-- The same word for two numbers. -/
def negative : Event := rowRead "sales" (number "-1" (by decide))
def largest : Event := rowRead "sales" (number "18446744073709551615" (by decide))

/-- No total, and a total of zero. -/
def untold : Event := {first with transaction := some ⟨7,none,0⟩}
def toldZero : Event := {first with transaction := some ⟨7,some 0,0⟩}

/-- Rows of two tables of one name in different schemas have one fingerprint in both forms, and the
second is suppressed whatever the hash; the transient form also takes two numbers with one word
for one, and both forms no total and a total of zero. -/
theorem different_event_suppressed :
    (first.identity ≠ archived.identity ∧ first.stableBytes = archived.stableBytes ∧ ∀ hash now,
        (shouldProcess hash now (shouldProcess hash now ⟨16,none,[],[]⟩ first).1 archived).2 = .ok false) ∧
    (negative.identity ≠ largest.identity ∧ ∀ floatBits,
      (fingerprintImage negative).bytes floatBits = (fingerprintImage largest).bytes floatBits) ∧
    untold.identity ≠ toldZero.identity ∧ untold.stableBytes = toldZero.stableBytes ∧
      fingerprintImage untold = fingerprintImage toldZero := by
  refine ⟨⟨by decide,rfl,fun hash now => ?_⟩,⟨by decide,fun floatBits => rfl⟩,by decide,rfl,rfl⟩
  have hf : shouldProcess hash now ⟨16,none,[],[]⟩ first =
      (⟨16,none,[(hash (fingerprintImage first),now)],[(hash (fingerprintImage first),now)]⟩,.ok true) := rfl
  have hn : fingerprintEventTransient hash archived = .ok (hash (fingerprintImage first)) := rfl
  have hi : eventIsIdentifiable archived = true := by decide
  rw [hf]
  simp [shouldProcess,pruneExpired,hi,hn,contains]
end EventIdempotencyGuard
end Rustcdc
