import Rustcdc.Source.Incremental.Driver
import Rustcdc.Source.Mysql.GtidSet

/-! The PostgreSQL bracket.  A watermark carries the snapshot of its moment with transaction ids cut to
the 32 bits that the log has of them. -/
namespace Rustcdc.Postgres
open Incremental (BracketPosition)
open Mysql (joinWith)

structure PgSnapshotFence where
  xmax : ℕ
  xip : List ℕ
  present : Bool

structure PgWatermark where
  lsn : UInt64
  snapshot : PgSnapshotFence

namespace PgSnapshotFence
def reduce (raw value : List Char) : Except Error ℕ :=
  match fromStrRadix 10 (2^64) (trim value) with
  | .error e => .error (.sourceError ("could not parse xid '"++String.ofList value++
      "' in pg_current_snapshot() '"++String.ofList raw++"': "++e))
  | .ok xid => .ok (xid%2^32)

def parse (raw : String) : Except Error PgSnapshotFence :=
  let raw := trim raw.toList
  match splitOn ':' raw with
  | _::xmax::lists => do
    let xmax ← reduce raw xmax
    let xip ← ((lists.flatMap (splitOn ',')).filter fun entry => !(trim entry).isEmpty).mapM (reduce raw)
    return ⟨xmax,xip,true⟩
  | _ => .error (.sourceError ("could not parse pg_current_snapshot() '"++String.ofList raw++
      "': expected xmin:xmax:xip"))

def wasInvisible (fence : PgSnapshotFence) (xid : UInt64) : Bool :=
  fence.present && (fence.xmax ≤ xid.toNat || fence.xip.contains xid.toNat)
end PgSnapshotFence
def eventInBracket (event : Event) (position low high : PgWatermark) : BracketPosition :=
  if high.lsn < position.lsn then .after
  else if low.lsn < position.lsn || event.transaction.any (low.snapshot.wasInvisible ·.txId) then .inside
  else .before

structure ServerSnapshot where
  xmin : UInt64
  xmax : UInt64
  xip : List UInt64

namespace ServerSnapshot
/-- PostgreSQL's rule. -/
def Invisible (s : ServerSnapshot) (xid : UInt64) : Prop := s.xmax ≤ xid ∨ xid ∈ s.xip
def idText (xid : UInt64) : List Char := formatNat 10 xid.toNat

/-- `pg_current_snapshot()::text`. -/
def text (s : ServerSnapshot) : String :=
  String.ofList (joinWith ':' [idText s.xmin,idText s.xmax,joinWith ',' (s.xip.map idText)])

lemma idText_plain (xid : UInt64) :
    ∀ c ∈ idText xid, c ≠ ',' ∧ c ≠ ':' ∧ c ≠ '-' ∧ isWhitespace c = false := Mysql.formatNat_plain
lemma trim_idText (xid : UInt64) : trim (idText xid) = idText xid :=
  (trimmed_of_forall fun c hc => (idText_plain xid c hc).2.2.2).trim

lemma reduce_idText (raw : List Char) (xid : UInt64) :
    PgSnapshotFence.reduce raw (idText xid) = .ok (xid.toNat%2^32) := by
  have hl := xid.toNat_lt
  rw [PgSnapshotFence.reduce,trim_idText,idText,fromStrRadix_format (by norm_num) (by omega) hl]

lemma mem_list {s : ServerSnapshot} {c : Char} (hc : c ∈ joinWith ',' (s.xip.map idText)) :
    c ≠ ':' ∧ isWhitespace c = false := by
  rcases Mysql.mem_joinWith hc with rfl | ⟨p,hp,hc⟩
  · decide
  · obtain ⟨xid,_,rfl⟩ := List.mem_map.mp hp
    exact ⟨(idText_plain xid c hc).2.1,(idText_plain xid c hc).2.2.2⟩

/-- The entries of the list, without the empty one of an empty list. -/
theorem entries (s : ServerSnapshot) :
    (splitOn ',' (joinWith ',' (s.xip.map idText))).filter (fun e => !(trim e).isEmpty) = s.xip.map idText := by
  by_cases hn : s.xip = []
  · rw [hn]
    rfl
  · rw [Mysql.splitOn_joinWith (by simpa using hn)]
    · rw [List.filter_eq_self]
      intro p hp
      obtain ⟨xid,_,rfl⟩ := List.mem_map.mp hp
      have hne := Mysql.formatNat_ne_nil xid.toNat
      rw [trim_idText]
      simpa [idText] using hne
    · intro p hp hc
      obtain ⟨xid,_,rfl⟩ := List.mem_map.mp hp
      exact (idText_plain xid _ hc).1 rfl

lemma reduce_all (raw : List Char) (xids : List UInt64) :
    (xids.map idText).mapM (PgSnapshotFence.reduce raw) = .ok (xids.map (·.toNat%2^32)) := by
  induction xids with
  | nil => rfl
  | cons xid xids ih =>
    rw [List.map_cons,List.mapM_cons,reduce_idText,ih]
    rfl

lemma parse_text (s : ServerSnapshot) : PgSnapshotFence.parse s.text =
    .ok ⟨s.xmax.toNat%2^32,s.xip.map (·.toNat%2^32),true⟩ := by
  have hp : ∀ p ∈ [idText s.xmin,idText s.xmax,joinWith ',' (s.xip.map idText)],
      ∀ c ∈ p, c ≠ ':' ∧ isWhitespace c = false := by
    intro p hpa c hc
    simp only [List.mem_cons,List.not_mem_nil,or_false] at hpa
    rcases hpa with rfl | rfl | rfl
    · exact ⟨(idText_plain _ c hc).2.1,(idText_plain _ c hc).2.2.2⟩
    · exact ⟨(idText_plain _ c hc).2.1,(idText_plain _ c hc).2.2.2⟩
    · exact mem_list hc
  have ht : trim s.text.toList = s.text.toList := by
    refine (trimmed_of_forall fun c hc => ?_).trim
    rw [text,String.toList_ofList] at hc
    rcases Mysql.mem_joinWith hc with rfl | ⟨p,hpa,hc⟩
    · decide
    · exact (hp p hpa c hc).2
  rw [PgSnapshotFence.parse,ht]
  rw [text,String.toList_ofList,Mysql.splitOn_joinWith (by simp) fun p hpa hco =>
    (hp p hpa _ hco).1 rfl]
  simp only [List.flatMap_singleton,entries,reduce_idText,reduce_all]
  rfl
end ServerSnapshot
/-- A transaction that the snapshot of the low watermark did not see, and whose position is not past the
high watermark, is inside the bracket if and only if its position is past the low watermark, no
multiple of 2^32 lies between `xmax` and its id, or one of the ids in progress has the same 32 bits. -/
theorem bracket_sound (s : ServerSnapshot) (xid : UInt64) (event : Event)
    (position low high : PgWatermark) (hlow : PgSnapshotFence.parse s.text = .ok low.snapshot)
    (hevent : event.transaction.map (·.txId.toNat) = some (xid.toNat%2^32))
    (hinvisible : s.Invisible xid) (hnear : xid.toNat < s.xmax.toNat+2^31) (hhigh : position.lsn ≤ high.lsn) :
    eventInBracket event position low high = .inside ↔ low.lsn < position.lsn ∨
      (s.xmax ≤ xid → xid.toNat/2^32 = s.xmax.toNat/2^32) ∨ xid.toNat%2^32 ∈ s.xip.map (·.toNat%2^32) := by
  obtain ⟨transaction,ht,hi⟩ := Option.map_eq_some_iff.mp hevent
  have hfe := Except.ok.inj (hlow.symm.trans s.parse_text)
  have hf : low.snapshot.wasInvisible transaction.txId = true ↔
      s.xmax.toNat%2^32 ≤ xid.toNat%2^32 ∨ xid.toNat%2^32 ∈ s.xip.map (·.toNat%2^32) := by
    rw [PgSnapshotFence.wasInvisible,hfe,hi]
    simp
  have hw : (s.xmax ≤ xid → xid.toNat/2^32 = s.xmax.toNat/2^32) ∨ xid.toNat%2^32 ∈ s.xip.map (·.toNat%2^32) ↔
      s.xmax.toNat%2^32 ≤ xid.toNat%2^32 ∨ xid.toNat%2^32 ∈ s.xip.map (·.toNat%2^32) := by
    rcases hinvisible with hl | hm
    · have hma := UInt64.le_iff_toNat_le.mp hl
      have hc : xid.toNat/2^32 = s.xmax.toNat/2^32 ↔ s.xmax.toNat%2^32 ≤ xid.toNat%2^32 := by omega
      rw [imp_iff_right hl,hc]
    · have hx : xid.toNat%2^32 ∈ s.xip.map (·.toNat%2^32) := List.mem_map_of_mem hm
      simp only [hx,or_true]
  have hc : (low.lsn < position.lsn || event.transaction.any (low.snapshot.wasInvisible ·.txId)) = true ↔
      low.lsn < position.lsn ∨ low.snapshot.wasInvisible transaction.txId = true := by
    simp [ht]
  rw [hw,← hf,← hc,eventInBracket,if_neg (UInt64.not_lt.mpr hhigh)]
  split_ifs with h
  · exact iff_of_true rfl h
  · exact iff_of_false (by simp) h

/-- An update by the transaction with the given 32 bits. -/
def bracketEvent (txId : UInt64) : Event where
  before := none
  after := some (.obj [("id",.str "1")])
  op := .update
  source := ⟨"postgres","0/5",1⟩
  ts := 1
  schema := some "public"
  table := "users"
  primaryKey := some ["id"]
  snapshot := none
  transaction := some ⟨txId,some 1,0⟩
  envelopeVersion := eventEnvelopeVersion
  beforeIsKeyOnly := false
  unavailableColumns := []
  beforeUnavailableColumns := []

def ServerSnapshot.watermark (s : ServerSnapshot) (lsn : UInt64) : PgWatermark :=
  ⟨lsn,⟨s.xmax.toNat%2^32,s.xip.map (·.toNat%2^32),true⟩⟩

/-- Two ids below the first wrap. -/
def lastIds : ServerSnapshot := ⟨4294967290,4294967295,[4294967290]⟩

theorem bracket_sound_sample : eventInBracket (bracketEvent 4294967290) (lastIds.watermark 5) (lastIds.watermark 6)
      (lastIds.watermark 7) = .inside :=
  (bracket_sound lastIds 4294967290 _ _ _ _ lastIds.parse_text (by decide) (.inr (by decide))
    (by decide) (by decide)).mpr (.inr (.inl fun h => absurd h (by decide)))

/-- The transaction after the wrap is past `xmax`, and its 32 bits are below those of `xmax`. -/
theorem wrapped_id_before : PgSnapshotFence.parse lastIds.text = .ok (lastIds.watermark 6).snapshot ∧
      lastIds.Invisible 4294967299 ∧ (4294967299 : UInt64)-lastIds.xmax < 2147483648 ∧
      (bracketEvent 3).transaction.map (·.txId.toNat) = some ((4294967299 : UInt64).toNat%2^32) ∧
      eventInBracket (bracketEvent 3) (lastIds.watermark 5) (lastIds.watermark 6) (lastIds.watermark 7) = .before :=
  ⟨lastIds.parse_text,.inl (by decide),by decide,by decide,by decide⟩
end Rustcdc.Postgres
