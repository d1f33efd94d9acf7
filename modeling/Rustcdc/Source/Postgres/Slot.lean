import Rustcdc.Lib.Run
import Rustcdc.Source.Postgres.Stream

/-! The position confirmed to the replication slot, against the positions the caller has
confirmed.  The trace of a handle remembers what the server announced and what the caller was
given. -/
namespace Rustcdc.Postgres
open Machine
namespace Provider
lemma pollXlogData_position (p : Provider) (answer : PollAnswer) :
    (p.pollXlogData answer).1.position = p.position := by
  cases p <;> rfl

/-- A confirmation never moves the slot past the larger of where it was and what it was asked. -/
theorem confirmLsn_position_le (p : Provider) (lsn : UInt64) (answer : Except Error Unit) :
    (p.confirmLsn lsn answer).1.position.toNat ≤ max p.position.toNat lsn.toNat := by
  cases p with
  | streaming => simp [confirmLsn,position,UInt64.toNat_max]
  | peek =>
    simp only [confirmLsn]
    split
    · exact le_max_left _ _
    · split
      · exact le_max_right _ _
      · exact le_max_left _ _
end Provider
namespace PostgresStreamHandle
section
variable (h : PostgresStreamHandle)

lemma processMessage_provider (it : PgOutputXLogData) : (h.processMessage it).1.provider = h.provider := by
  unfold processMessage
  split
  · rfl
  · rfl
  · rfl
  · unfold processRelation
    dsimp only
    split_ifs <;> rfl
  all_goals try (unfold pushRow; split_ifs; (split <;> rfl); rfl)
  · rfl
  · split_ifs <;> rfl

lemma processMessages_provider (it : List PgOutputXLogData) : (h.processMessages it).1.provider = h.provider := by
  induction it generalizing h with
  | nil => rfl
  | cons ite it ih =>
    have ho := h.processMessage_provider ite
    rw [processMessages]
    split <;> rename_i he <;> rw [he] at ho
    · exact ho
    · rename_i h₁ released
      have hr := ih h₁
      split <;> rename_i he₁ <;> rw [he₁] at hr <;> exact hr.trans ho

/-- A message that opens or closes no transaction leaves the position, the open transaction and
the tracked ends alone. -/
theorem processMessage_inside {it : PgOutputXLogData}
    (hb : ∀ b, it.data ≠ .ok (.begin b)) (hc : ∀ c, it.data ≠ .ok (.commit c)) :
    (h.processMessage it).1.lsnPosition = h.lsnPosition ∧
      (h.processMessage it).1.decoder.currentXid = h.decoder.currentXid ∧
      (h.processMessage it).1.committedTxEnds = h.committedTxEnds := by
  unfold processMessage
  split
  · exact ⟨rfl,rfl,rfl⟩
  · rename_i b hd
    exact absurd hd (hb b)
  · rename_i c hd
    exact absurd hd (hc c)
  · unfold processRelation
    dsimp only
    split_ifs <;> exact ⟨rfl,rfl,rfl⟩
  all_goals try (unfold pushRow; split_ifs; (split <;> exact ⟨rfl,rfl,rfl⟩); exact ⟨rfl,rfl,rfl⟩)
  · exact ⟨rfl,rfl,rfl⟩
  · split_ifs <;> exact ⟨rfl,rfl,rfl⟩

/-- The handle as it processes a pass's records. -/
def polled (answer : PassAnswer) : PostgresStreamHandle :=
  {h with provider := (h.provider.pollXlogData answer.poll).1}

/-- The pass reads only transactions without captured changes and confirms the last of them. -/
def confirmsFiltered (answer : PassAnswer) : Bool :=
  match (h.polled answer).processMessages (h.passRows answer) with
  | (h',.ok []) => !(h.passRows answer).isEmpty && h.lsnPosition < h'.lsnPosition
  | _ => false

/-- The pass reads nothing and moves the slot to the end of the log. -/
def advancesIdle (answer : PassAnswer) : Bool :=
  match (h.provider.pollXlogData answer.poll).2, answer.slotLag with
  | .error _, _ | _, some (.error _) => false
  | .ok outcome, _ => outcome.isCaughtUp && 0 < h.slotIdleAdvanceIntervalMs && answer.idleDue
end
variable {answer : PassAnswer} {h : PostgresStreamHandle}

lemma passRows_of_advancesIdle (hi : h.advancesIdle answer = true) : h.passRows answer = [] := by
  simp only [advancesIdle] at hi
  unfold passRows
  generalize (h.provider.pollXlogData answer.poll).2 = polled at hi ⊢
  cases polled with
  | error => rfl
  | ok oc =>
    cases oc with
    | timedOut => rfl
    | data rs =>
      split at hi
      · cases hi
      · cases hi
      · rename_i ho _
        cases ho
        simp only [PollOutcome.isCaughtUp,Bool.and_eq_true,List.isEmpty_iff] at hi
        exact hi.1.1

/-- What a pass does: it processes its records and leaves the slot where it was, or moves it by
itself in one of the two ways. -/
inductive PassEffect (h : PostgresStreamHandle) (answer : PassAnswer) (processed : PostgresStreamHandle) :
    PostgresStreamHandle × Option (Except Error (List Event)) → Prop
  | still (provider : Provider) (r : Option (Except Error (List Event)))
      (hposition : provider.position = h.provider.position) :
      PassEffect h answer processed ({processed with provider := provider},r)
  | filtered (provider : Provider) (r : Option (Except Error (List Event)))
      (hmoves : h.confirmsFiltered answer = true)
      (hposition : provider.position.toNat ≤ max h.provider.position.toNat processed.lsnPosition.toNat)
      (hr : ∀ events, r ≠ some (.ok events)) :
      PassEffect h answer processed ({processed with provider := provider},r)
  | idle (provider : Provider) (r : Option (Except Error (List Event)))
      (hmoves : h.advancesIdle answer = true) (hr : ∀ events, r ≠ some (.ok events)) :
      PassEffect h answer processed ({processed with provider := provider},r)

lemma withProvider_silent (h : PostgresStreamHandle) (r : Provider × Except Error Unit)
    (es : List Event) : (h.withProvider r).2 ≠ some (.ok es) := by
  unfold withProvider
  split <;> simp

/-- The outcome of a lag sample: it only ever ends the pass with an error. -/
def lagOutcome : Option (Except Error Unit) → Option (Except Error (List Event))
  | some (.error e) => some (.error e)
  | _ => none

lemma sampleSlotLag_eq (h : PostgresStreamHandle) (answer : Option (Except Error Unit)) :
    h.sampleSlotLag answer = (h,lagOutcome answer) := by
  cases answer with
  | none => rfl
  | some sampled => cases sampled <;> rfl

lemma idlePass_effect {provider : Provider} {oc : PollOutcome}
    (hpo : h.provider.pollXlogData answer.poll = (provider,.ok oc)) :
    PassEffect h answer {h with provider := provider}
      (({h with provider := provider} : PostgresStreamHandle).idlePass oc.isCaughtUp answer) := by
  have hp : provider.position = h.provider.position := by
    rw [← h.provider.pollXlogData_position answer.poll,hpo]
  rw [idlePass,sampleSlotLag_eq]
  cases hl : lagOutcome answer.slotLag with
  | some => exact .still provider _ hp
  | none =>
    dsimp only
    split_ifs with hi
    · have hs := withProvider_silent ({h with provider := provider} : PostgresStreamHandle)
        (provider.idleAdvance answer.idle)
      refine .idle _ _ ?_ hs
      simp only [advancesIdle,hpo]
      cases hsa : answer.slotLag with
      | none => exact hi
      | some sampled =>
        cases sampled with
        | error => simp [lagOutcome,hsa] at hl
        | ok => exact hi
    · exact .still provider _ hp

lemma confirmFiltered_effect {processed : PostgresStreamHandle}
    (hp : processed.provider.position = h.provider.position) (hr : h.passRows answer ≠ [])
    (hpr : (h.polled answer).processMessages (h.passRows answer) = (processed,.ok [])) :
    PassEffect h answer processed (processed.confirmFiltered h.lsnPosition answer) := by
  rw [confirmFiltered]
  split_ifs with hmo
  · have hm : h.confirmsFiltered answer = true := by
      simp [confirmsFiltered,hpr,hmo,hr]
    have hb := processed.provider.confirmLsn_position_le processed.lsnPosition answer.confirm
    rw [hp] at hb
    generalize processed.provider.confirmLsn processed.lsnPosition answer.confirm = confirmed at hb ⊢
    obtain ⟨pr,r⟩ := confirmed
    cases r with
    | error => exact .filtered pr _ hm hb (by simp)
    | ok =>
      simp only [withProvider,sampleSlotLag_eq]
      refine .filtered pr _ hm hb ?_
      unfold lagOutcome
      split <;> simp
  · rw [sampleSlotLag_eq]
    exact .still processed.provider _ hp

lemma pass_of_rows {pr : Provider} {oc : PollOutcome}
    (hp : h.provider.pollXlogData answer.poll = (pr,.ok oc)) (he : oc.intoRows ≠ []) :
    h.pass answer = match (h.polled answer).processMessages (h.passRows answer) with
      | (h',.error e) => (h',some (.error e))
      | (h',.ok []) => h'.confirmFiltered h.lsnPosition answer
      | (h',.ok events) => (h',some (.ok events)) := by
  have hr : h.passRows answer = oc.intoRows := by simp [passRows,hp]
  simp only [pass,hp,polled,hr]
  exact if_neg (by simpa using he)

lemma pass_effect (h : PostgresStreamHandle) (answer : PassAnswer) :
    PassEffect h answer ((h.polled answer).processMessages (h.passRows answer)).1 (h.pass answer) := by
  have hpo : (h.polled answer).provider.position = h.provider.position := h.provider.pollXlogData_position answer.poll
  have hpr := (h.polled answer).processMessages_provider (h.passRows answer)
  cases hpol : h.provider.pollXlogData answer.poll with
  | mk pr r =>
    cases r with
    | error =>
      simp only [pass,passRows,polled,hpol,processMessages]
      exact .still pr _ (by simpa [polled,hpol] using hpo)
    | ok oc =>
      have hr : h.passRows answer = oc.intoRows := by simp [passRows,hpol]
      by_cases he : oc.intoRows = []
      · simp only [pass,hr,polled,hpol,he,processMessages,List.isEmpty_nil,if_true]
        exact idlePass_effect hpol
      · rw [pass_of_rows hpol he]
        cases hpro : (h.polled answer).processMessages (h.passRows answer) with
        | mk h' r =>
          rw [hpro] at hpr
          have hp : h'.provider.position = h.provider.position := by
            rw [hpr,hpo]
          cases r with
          | error => exact .still h'.provider _ hp
          | ok es =>
            cases es with
            | nil => exact confirmFiltered_effect hp (by rw [hr]; exact he) hpro
            | cons => exact .still h'.provider _ hp
end PostgresStreamHandle
/-- A handle with the commit position the server announced for the open transaction, the end of
every transaction whose events the caller was given, and the highest position the caller has
confirmed. -/
structure SlotTrace where
  handle : PostgresStreamHandle
  openTx : Option ℕ
  returned : List ℕ
  asked : ℕ

namespace SlotTrace
/-- What one message says about transactions: the one now open, and the end of one it closes
with captured changes. -/
def note (h : PostgresStreamHandle) (tx : Option ℕ) (item : PgOutputXLogData) : Option ℕ × List ℕ :=
  match item.data with
  | .ok (.begin b) => (some b.finalLsn.toNat,[])
  | .ok (.commit c) => (none,if h.decoder.partialTxEvents.isEmpty then [] else [c.endLsn.toNat])
  | _ => (tx,[])

def notes (h : PostgresStreamHandle) (tx : Option ℕ) : List PgOutputXLogData → Option ℕ × List ℕ
  | [] => (tx,[])
  | item::items =>
    match h.processMessage item with
    | (_,.error _) => (tx,[])
    | (h',.ok _) =>
      let rest := notes h' (note h tx item).1 items
      (rest.1,(note h tx item).2++rest.2)

/-- The server's side of a poll: transactions are bracketed and sent in commit order, each ends
after the commit position announced for it, and none is sent that ends at or before the
confirmed position unless the caller itself confirmed so far. -/
def Announced (position asked : ℕ) : ℕ → Option ℕ → List PgOutputXLogData → Prop
  | _, _, [] => True
  | last, tx, item::items =>
    match item.data with
    | .ok (.begin b) => last ≤ b.finalLsn.toNat ∧ position ≤ max b.finalLsn.toNat asked ∧
        Announced position asked last (some b.finalLsn.toNat) items
    | .ok (.commit c) => (∃ final ∈ tx, final < c.endLsn.toNat) ∧ Announced position asked c.endLsn.toNat none items
    | _ => Announced position asked last tx items

instance announcedDecidable (position asked : ℕ) : (last : ℕ) → (tx : Option ℕ) →
    (items : List PgOutputXLogData) → Decidable (Announced position asked last tx items)
  | _, _, [] => .isTrue trivial
  | last, tx, item::items => by
    have := fun last tx => announcedDecidable position asked last tx items
    unfold Announced
    split <;> infer_instance

variable {position asked : ℕ}

/-- The open transaction cannot end at or before the confirmed position. -/
def Ahead (position asked : ℕ) (tx : Option ℕ) : Prop := ∀ final, tx = some final → position ≤ max final asked
lemma ahead_none : Ahead position asked none := by
  intro final h
  cases h

variable {xs : List PgOutputXLogData} {tx : Option ℕ} {x : PgOutputXLogData}
  {h h' : PostgresStreamHandle} {re : List Event} {l : ℕ}

lemma notes_ahead (hs : Announced position asked l tx xs) (ht : Ahead position asked tx) :
    (∀ e ∈ (notes h tx xs).2, asked < e → position < e) ∧ Ahead position asked (notes h tx xs).1 := by
  induction xs generalizing h l tx with
  | nil => exact ⟨by simp [notes],ht⟩
  | cons x xs ih =>
    rw [notes]
    split
    · exact ⟨by simp,ht⟩
    · rename_i h' re _
      unfold Announced at hs
      unfold note
      split at hs
      · rename_i b _
        obtain ⟨_,hb,hr⟩ := hs
        have ha : Ahead position asked (some b.finalLsn.toNat) := by
          intro final hf
          cases hf
          exact hb
        simpa using ih hr ha
      · obtain ⟨⟨final,hf,hend⟩,hr⟩ := hs
        obtain ⟨hen,ho⟩ := ih (h := h') hr ahead_none
        have hbo := ht final hf
        refine ⟨fun e he hask => ?_,ho⟩
        rcases List.mem_append.mp he with he | he
        · split at he
          · cases he
          · obtain rfl := List.mem_singleton.mp he
            omega
        · exact hen e he hask
      · simpa using ih hs ht

lemma processMessage_begin {b : PgBegin} (hd : x.data = .ok (.begin b)) :
    ∃ decoder, h.processMessage x = ({h with decoder := decoder},.ok []) ∧
      decoder.currentXid = some b.xid := by
  simp only [PostgresStreamHandle.processMessage,hd]
  exact ⟨_,rfl,rfl⟩

lemma processMessage_commit {c : PgCommit} (hd : x.data = .ok (.commit c)) :
    h.processMessage x = h.processCommit c := by
  simp only [PostgresStreamHandle.processMessage,hd]

lemma inside_of_error {e : Error} (he : h.processMessage x = (h',.error e)) :
    (∀ b, x.data ≠ .ok (.begin b)) ∧ ∀ c, x.data ≠ .ok (.commit c) := by
  constructor
  · intro b hd
    obtain ⟨decoder,hp,_⟩ := processMessage_begin (h := h) hd
    cases hp.symm.trans he
  · intro c hd
    rw [processMessage_commit hd] at he
    exact absurd he (by simp [PostgresStreamHandle.processCommit])

/-- The position after the rest of a poll, once its first message went through. -/
theorem processMessages_cons (ho : h.processMessage x = (h',.ok re)) (xs : List PgOutputXLogData) :
    (h.processMessages (x::xs)).1 = (h'.processMessages xs).1 := by
  rw [PostgresStreamHandle.processMessages,ho]
  dsimp only
  generalize h'.processMessages xs = processed
  obtain ⟨h'',r⟩ := processed
  cases r <;> rfl

lemma notes_cons (ho : h.processMessage x = (h',.ok re)) (tx : Option ℕ) (xs : List PgOutputXLogData) :
    (notes h tx (x::xs)).1 = (notes h' (note h tx x).1 xs).1 := by
  rw [notes,ho]

lemma stopped {e : Error} (he : h.processMessage x = (h',.error e)) (tx : Option ℕ) (xs : List PgOutputXLogData) :
    (notes h tx (x::xs)).1 = tx ∧ (h.processMessages (x::xs)).1 = h' ∧
      h'.lsnPosition = h.lsnPosition ∧ h'.decoder.currentXid = h.decoder.currentXid := by
  obtain ⟨hb,hc⟩ := inside_of_error he
  have hi := h.processMessage_inside hb hc
  rw [he] at hi
  rw [notes,PostgresStreamHandle.processMessages,he]
  exact ⟨rfl,rfl,hi.1,hi.2.1⟩

lemma notes_open (xs : List PgOutputXLogData) (ht : tx.isSome = h.decoder.currentXid.isSome) :
    (notes h tx xs).1.isSome = (h.processMessages xs).1.decoder.currentXid.isSome := by
  induction xs generalizing h tx with
  | nil => exact ht
  | cons x xs ih =>
    cases ho : h.processMessage x with
    | mk h' r =>
      cases r with
      | error =>
        obtain ⟨hn,hh,_,hx⟩ := stopped ho tx xs
        rw [hn,hh,hx]
        exact ht
      | ok re =>
        rw [notes_cons ho,processMessages_cons ho]
        apply ih
        unfold note
        split
        · rename_i b hd
          obtain ⟨decoder,hp,hx⟩ := processMessage_begin (h := h) hd
          obtain ⟨rfl,_⟩ := Prod.mk.inj (hp.symm.trans ho)
          simp [hx]
        · rename_i c hd
          rw [processMessage_commit hd] at ho
          obtain ⟨rfl,_⟩ := Prod.mk.inj ho
          rfl
        · rename_i hb hc
          have hi := h.processMessage_inside hb hc
          rw [ho] at hi
          rw [ht,hi.2.1]

/-- A poll that moves the position leaves no transaction open that ends at or before it: one opened after
a commit ends after it. -/
theorem notes_moved (hs : Announced position asked l tx xs) :
    let Q := ∀ final, (notes h tx xs).1 = some final → (h.processMessages xs).1.lsnPosition.toNat ≤ final
    ((h.processMessages xs).1.lsnPosition = h.lsnPosition ∨ Q) ∧
      (h.lsnPosition.toNat ≤ l → (∀ final, tx = some final → l ≤ final) → Q) := by
  induction xs generalizing h l tx with
  | nil => exact ⟨.inl rfl,fun hl ht final hf => hl.trans (ht final hf)⟩
  | cons x xs ih =>
    cases ho : h.processMessage x with
    | mk h' r =>
      cases r with
      | error =>
        obtain ⟨hn,hh,hp,_⟩ := stopped ho tx xs
        rw [hn,hh,hp]
        exact ⟨.inl rfl,fun hl ht final hf => hl.trans (ht final hf)⟩
      | ok re =>
        rw [notes_cons ho,processMessages_cons ho]
        unfold Announced at hs
        unfold note
        split at hs
        · rename_i b hd
          obtain ⟨hf,_,hr⟩ := hs
          obtain ⟨decoder,hpr,_⟩ := processMessage_begin (h := h) hd
          obtain ⟨rfl,_⟩ := Prod.mk.inj (hpr.symm.trans ho)
          refine ⟨(ih hr).1,fun hl _ => (ih hr).2 hl ?_⟩
          intro final he
          cases he
          exact hf
        · rename_i c hd
          rw [processMessage_commit hd] at ho
          obtain ⟨rfl,_⟩ := Prod.mk.inj ho
          exact ⟨.inr ((ih hs.2).2 (le_refl _) (by simp)),fun _ _ => (ih hs.2).2 (le_refl _) (by simp)⟩
        · rename_i hb hc
          have hi := h.processMessage_inside hb hc
          rw [ho] at hi
          rw [← hi.1]
          exact ih hs

/-- A caller's move on the handle. -/
inductive Call
  | nextEvents (answers : List PassAnswer)
  | confirmLsn (lsn : UInt64) (answer : Except Error Unit)

variable (t : SlotTrace)

/-- One pass with its notes; only a pass that returns events gives them to the caller. -/
def pass (answer : PassAnswer) : SlotTrace × Option (Except Error (List Event)) :=
  let noted := notes (t.handle.polled answer) t.openTx (t.handle.passRows answer)
  let result := t.handle.pass answer
  ({t with
    handle := result.1
    openTx := noted.1
    returned := match result.2 with
      | some (.ok _) => t.returned++noted.2
      | _ => t.returned},result.2)

def passes (t : SlotTrace) : List PassAnswer → SlotTrace
  | [] => t
  | answer::answers =>
    match t.pass answer with
    | (t,some _) => t
    | (t,none) => t.passes answers

def step : Call → SlotTrace
  | .nextEvents answers => if t.handle.streaming then t.passes answers else t
  | .confirmLsn lsn answer =>
    {t with
      handle := (t.handle.confirmLsn lsn answer).1
      asked := max t.asked lsn.toNat}

lemma passes_handle (as : List PassAnswer) : (t.passes as).handle = (t.handle.passes as).1 := by
  induction as generalizing t with
  | nil => rfl
  | cons answer as ih =>
    rw [passes,PostgresStreamHandle.passes,pass]
    cases hp : t.handle.pass answer with
    | mk h r =>
      cases r with
      | some => rfl
      | none => exact ih _

lemma step_handle (c : Call) : (t.step c).handle =
    match c with
    | .nextEvents as => (t.handle.nextEvents as).1
    | .confirmLsn lsn answer => (t.handle.confirmLsn lsn answer).1 := by
  cases c with
  | nextEvents as =>
    simp only [step,PostgresStreamHandle.nextEvents]
    cases t.handle.streaming with
    | true => exact passes_handle t as
    | false => rfl
  | confirmLsn => rfl

/-- The slot is never confirmed at or past the end of a transaction the caller was given, or
part of which the handle buffers, unless the caller has confirmed it. -/
def NeverOutruns : Prop := (∀ e ∈ t.returned, t.asked < e → t.handle.provider.position.toNat < e) ∧
    (t.handle.decoder.partialTxEvents ≠ [] → ∀ final, t.openTx = some final →
      ∀ e, final < e → t.asked < e → t.handle.provider.position.toNat < e)

/-- The server keeps its side during a pass. -/
def PassAnnounced (answer : PassAnswer) : Prop :=
  Announced t.handle.provider.position.toNat t.asked 0 t.openTx (t.handle.passRows answer)
  deriving Decidable

/-- The caller has confirmed every transaction it was given. -/
def CaughtUp : Prop := ∀ e ∈ t.returned, e ≤ t.asked

/-- When a pass is about to move the slot by itself, the caller has confirmed every transaction
it was given; before an idle advance no transaction is open either. -/
def PassUnhurried (answer : PassAnswer) : Prop := (t.handle.confirmsFiltered answer = true → t.CaughtUp) ∧
    (t.handle.advancesIdle answer = true → t.CaughtUp ∧ t.handle.decoder.currentXid = none)

/-- A property of every pass a call makes. -/
def EachPass (P : SlotTrace → PassAnswer → Prop) (t : SlotTrace) : List PassAnswer → Prop
  | [] => True
  | answer::answers => P t answer ∧
      match t.pass answer with
      | (_,some _) => True
      | (t,none) => EachPass P t answers

instance eachPassDecidable (P : SlotTrace → PassAnswer → Prop)
    [∀ t answer, Decidable (P t answer)] : (t : SlotTrace) → (answers : List PassAnswer) →
    Decidable (EachPass P t answers)
  | _, [] => .isTrue trivial
  | t, answer::answers => by
    have := fun t => eachPassDecidable P t answers
    unfold EachPass
    split <;> infer_instance

def CallHas (P : SlotTrace → PassAnswer → Prop) (t : SlotTrace) : Call → Prop
  | .nextEvents answers => EachPass P t answers
  | .confirmLsn _ _ => True

instance (P : SlotTrace → PassAnswer → Prop) [∀ t answer, Decidable (P t answer)]
    (t : SlotTrace) (call : Call) : Decidable (CallHas P t call) := by
  unfold CallHas
  split <;> infer_instance

instance (t : SlotTrace) : Decidable t.CaughtUp := inferInstanceAs (Decidable (∀ e ∈ t.returned, e ≤ t.asked))

instance (t : SlotTrace) (answer : PassAnswer) : Decidable (t.PassUnhurried answer) :=
  inferInstanceAs (Decidable (_ ∧ _))

structure Safe (t : SlotTrace) : Prop where
  returned : ∀ e ∈ t.returned, t.asked < e → t.handle.provider.position.toNat < e
  ahead : Ahead t.handle.provider.position.toNat t.asked t.openTx
  inside : t.openTx.isSome = t.handle.decoder.currentXid.isSome

variable {t : SlotTrace}

lemma Safe.neverOutruns (h : t.Safe) : t.NeverOutruns := by
  refine ⟨h.returned,fun _ final hf e he ha => ?_⟩
  have hb := h.ahead final hf
  omega

lemma Safe.pass (h : t.Safe) {answer : PassAnswer} (hse : t.PassAnnounced answer)
    (hu : t.PassUnhurried answer) : (t.pass answer).1.Safe := by
  obtain ⟨hen,hah⟩ := notes_ahead (h := t.handle.polled answer) hse h.ahead
  have ho := notes_open (h := t.handle.polled answer) (t.handle.passRows answer) h.inside
  have hmo := (notes_moved (h := t.handle.polled answer) hse).1
  have hef := t.handle.pass_effect answer
  simp only [SlotTrace.pass]
  generalize t.handle.pass answer = result at hef ⊢
  cases hef with
  | still pr r hp =>
    refine ⟨fun e he ha => ?_,?_,ho⟩
    · simp only [hp] at he ⊢
      split at he
      · rcases List.mem_append.mp he with he | he
        · exact h.returned e he ha
        · exact hen e he ha
      · exact h.returned e he ha
    · simp only [hp]
      exact hah
  | filtered pr r hm hp hr =>
    have hc := hu.1 hm
    refine ⟨fun e he ha => ?_,fun final hf => ?_,ho⟩
    · split at he
      · rename_i hev
        exact absurd hev (hr _)
      · exact absurd (hc e he) (by simp only at ha; omega)
    · -- the pass closed a transaction, so what it left open ends later
      have hlt : t.handle.lsnPosition ≠
          ((t.handle.polled answer).processMessages (t.handle.passRows answer)).1.lsnPosition := by
        simp only [PostgresStreamHandle.confirmsFiltered] at hm
        split at hm
        · rename_i h' heq
          rw [heq]
          simp only [Bool.and_eq_true,decide_eq_true_eq] at hm
          intro hs
          rw [← hs] at hm
          exact absurd hm.2 (by simp)
        · cases hm
      rcases hmo with hs | hl
      · exact absurd hs.symm hlt
      · have hb := hah final hf
        have hend := hl final hf
        simp only at hp ⊢
        omega
  | idle pr r hm hr =>
    obtain ⟨hc,hx⟩ := hu.2 hm
    have hn : t.openTx = none := by
      have hi := h.inside
      rw [hx] at hi
      simpa using hi
    have hro := PostgresStreamHandle.passRows_of_advancesIdle hm
    refine ⟨fun e he ha => ?_,?_,ho⟩
    · split at he
      · rename_i hev
        exact absurd hev (hr _)
      · exact absurd (hc e he) (by simp only at ha; omega)
    · rw [hro,hn]
      exact ahead_none

lemma Safe.passes (h : t.Safe) {as : List PassAnswer}
    (hs : EachPass PassAnnounced t as) (hu : EachPass PassUnhurried t as) :
    (t.passes as).Safe := by
  induction as generalizing t with
  | nil => exact h
  | cons answer as ih =>
    have ho := h.pass hs.1 hu.1
    have hs' := hs.2
    have hu' := hu.2
    rw [SlotTrace.passes]
    generalize t.pass answer = passed at ho hs' hu' ⊢
    obtain ⟨t',r⟩ := passed
    cases r with
    | some => exact ho
    | none => exact ih ho hs' hu'

lemma Safe.confirmLsn (h : t.Safe) (lsn : UInt64) (answer : Except Error Unit) :
    (t.step (.confirmLsn lsn answer)).Safe := by
  have hb := t.handle.provider.confirmLsn_position_le lsn answer
  have hh : ∃ ends, (t.handle.confirmLsn lsn answer).1 = {t.handle with
        provider := (t.handle.provider.confirmLsn lsn answer).1
        committedTxEnds := ends} := by
    unfold PostgresStreamHandle.confirmLsn
    split <;> rename_i heq <;> rw [heq] <;> exact ⟨_,rfl⟩
  obtain ⟨ends,hh⟩ := hh
  simp only [step,hh]
  refine ⟨fun e he ha => ?_,fun final hf => ?_,h.inside⟩
  · have hr := h.returned e he
    simp only at ha ⊢
    omega
  · have hah := h.ahead final hf
    simp only
    omega

lemma Safe.step (h : t.Safe) {c : Call} (hs : t.CallHas PassAnnounced c)
    (hu : t.CallHas PassUnhurried c) : (t.step c).Safe := by
  cases c with
  | nextEvents =>
    simp only [SlotTrace.step]
    split
    · exact h.passes hs hu
    · exact h
  | confirmLsn lsn answer => exact h.confirmLsn lsn answer

def start (handle : PostgresStreamHandle) : SlotTrace := ⟨handle,none,[],0⟩

/-- The slot confirmation never outruns the caller, in every run in which the handle moves the
slot by itself only while every transaction the caller was given is confirmed and, for an idle
advance, none is open. -/
theorem confirmation_never_outruns (sourceName slotName : String) (lsnPosition : UInt64)
    (provider : Provider) (interval : UInt64) (allowed : Option String → String → Bool)
    (catalog : List ((String × String) × List String)) (calls : List Call)
    (hserver : Meets step (CallHas PassAnnounced)
      (start (.new sourceName slotName lsnPosition provider interval allowed catalog)) calls)
    (hunhurried : Meets step (CallHas PassUnhurried)
      (start (.new sourceName slotName lsnPosition provider interval allowed catalog)) calls) :
    (run step (start (.new sourceName slotName lsnPosition provider interval allowed catalog))
      calls).NeverOutruns := by
  have hs : (start (.new sourceName slotName lsnPosition provider interval allowed catalog)).Safe :=
    ⟨by simp [start],ahead_none,rfl⟩
  exact (run_invariant_of_meets step (fun _ _ h hc => h.step hc.1 hc.2) hs
    (meets_and step hserver hunhurried)).neverOutruns

def record (lsn : UInt64) (message : PgOutputMessage) : WalMessage := .xlogData 0 ⟨lsn,.ok message,1⟩
def oneRow (oid : UInt32) (table : String) (xid : UInt32) (final : UInt64) : List WalMessage :=
  [record final (.begin ⟨final,1,xid⟩),record final (.relation ⟨oid,"public",table,100,[⟨"id",1,23,0⟩]⟩),
    record final (.insert oid [.text "1"]),record final (.commit ⟨final,final+1⟩)]

/-- A pass that receives the messages, with an idle advance due. -/
def passOf (messages : List WalMessage) : PassAnswer where
  poll := ⟨messages,none,false⟩
  confirm := .ok ()
  slotLag := none
  idleDue := true
  idle := ⟨.ok none,.ok ()⟩

/-- Only table `t` is captured; the slot may be advanced when idle. -/
def sampleTrace : SlotTrace := start (.new "postgres" "slot" 0 (.streaming 0 0) 1000 (fun _ table => table = "t") [])

/-- Two transactions, each confirmed by the caller before the handle moves the slot by itself:
past a filtered one, and while idle. -/
def orderlyCalls : List Call := [.nextEvents [passOf (oneRow 1 "t" 1 10)],.confirmLsn 11 (.ok ()),
    .nextEvents [passOf (oneRow 2 "other" 2 20)],.nextEvents [passOf (oneRow 1 "t" 3 30)],
    .confirmLsn 31 (.ok ()),.nextEvents [passOf [.keepalive 40]]]

theorem confirmation_never_outruns_sample :
    let t := run step sampleTrace orderlyCalls
    t.returned = [11,31] ∧ t.handle.provider.position = 40 ∧ t.NeverOutruns := by
  have h := confirmation_never_outruns "postgres" "slot" 0 (.streaming 0 0) 1000
    (fun _ table => table = "t") [] orderlyCalls (by decide) (by decide)
  exact ⟨by decide,by decide,h⟩

/-- A transaction the caller has not confirmed, then one on a filtered table. -/
def filteredCalls : List Call :=
  [.nextEvents [passOf (oneRow 1 "t" 1 10)],.nextEvents [passOf (oneRow 2 "other" 2 20)]]

/-- A transaction the caller has not confirmed, then an idle poll. -/
def idleCalls : List Call := [.nextEvents [passOf (oneRow 1 "t" 1 10)],.nextEvents [passOf [.keepalive 40]]]

/-- The transaction ending at 11 is not confirmed although the slot stands at the position,
while the server has kept its side. -/
def OutrunAt (calls : List Call) (position : UInt64) : Prop :=
  let t := run step sampleTrace calls
  Meets step (CallHas PassAnnounced) sampleTrace calls ∧ t.returned = [11] ∧
    t.asked = 0 ∧ t.handle.provider.position = position ∧ ¬ t.NeverOutruns

/-- Both ways the slot outruns the caller. -/
theorem confirmation_outruns : OutrunAt filteredCalls 21 ∧ OutrunAt idleCalls 40 := by
  refine ⟨⟨by decide,by decide,by decide,by decide,fun h => ?_⟩,
    ⟨by decide,by decide,by decide,by decide,fun h => ?_⟩⟩
  · nomatch (h.1 11 (by decide) (by decide))
  · nomatch (h.1 11 (by decide) (by decide))
end SlotTrace
end Rustcdc.Postgres
