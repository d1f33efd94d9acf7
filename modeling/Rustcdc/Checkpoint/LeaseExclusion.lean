import Rustcdc.Checkpoint.OwnerLease
import Rustcdc.Lib.Run

/-! When the owner lease excludes.  `rename` replaces whatever is at the path by then, and a dropped
guard removes it, so a lease judged stale must still be stale when it is replaced. -/
namespace Rustcdc.OwnerLease
open Function LeaseState
section
variable {ι π : Type*}

/-- The text is a lease of the process. -/
def Names (lease : Option String) (id : Identity) : Prop := lease.bind parseLease = some (id.host,id.pid)
  deriving Decidable

lemma Names.unique {le : Option String} {a b : Identity} (ha : Names le a) (hb : Names le b) : a = b := by
  rw [Names,ha] at hb
  cases a
  cases b
  cases hb
  rfl

lemma names_token (id : Identity) : Names (some id.token) id := parseLease_token id
lemma not_names_empty (id : Identity) : ¬Names (some "") id := by
  have hn : parseLease "" = none := by decide
  simp [Names,hn]

namespace Stage
/-- The instance is in the course of acquiring, holding or releasing. -/
def Active : Stage → Prop
  | .idle _ => False
  | _ => True

/-- The instance is in the registry of its process. -/
def Registered : Stage → Prop
  | .idle _ | .removing => False
  | _ => True

/-- What is still to be written of the token. -/
def unwritten : Stage → Option (List Char)
  | .creating _ rest => some rest
  | _ => none

/-- The lock file is the instance's. -/
def Owns : Stage → Prop
  | .creating _ _ | .renamed | .held _ | .removing => True
  | _ => False

/-- The lock file is as an owner at this stage left it: empty until the token is written. -/
def Backed (lockFile : Option ℕ) (contents : ℕ → String) (id : Identity) : Stage → Prop
  | .creating inode rest => lockFile = some inode ∧
      (contents inode = "" ∧ rest = id.token.toList ∨ contents inode = id.token ∧ rest = [])
  | .renamed | .held _ | .removing => Names (lockFile.map contents) id
  | _ => True

variable {s : Stage} {l : Option ℕ} {cs : ℕ → String} {id : Identity}

lemma Registered.active (h : s.Registered) : s.Active := by
  cases s <;> first | exact h.elim | trivial
lemma Owns.active (h : s.Owns) : s.Active := by
  cases s <;> first | exact h.elim | trivial
lemma backed_of_not_owns (h : ¬s.Owns) : s.Backed l cs id := by
  cases s <;> first | exact absurd trivial h | trivial

lemma Backed.lease (h : s.Backed l cs id) (ho : s.Owns) : l.map cs = some "" ∨ Names (l.map cs) id := by
  cases s with
  | creating =>
    obtain ⟨rfl,⟨he,-⟩ | ⟨ht,-⟩⟩ := h
    · exact Or.inl (congrArg some he)
    · exact Or.inr (by rw [Option.map_some,ht]; exact names_token id)
  | renamed | held | removing => exact Or.inr h
  | _ => exact ho.elim
end Stage
variable (who : π → Identity) (home : ι → π)

/-- At most one instance owns the lock file, and the file is as that instance left it. -/
structure Exclusive (s : LeaseState ι π) : Prop where
  alive : ∀ i, (s.stage i).Active → s.life (home i) = .alive
  registered : ∀ i, (s.stage i).Registered → 0 < s.refs (home i)
  single : ∀ i j, (s.stage i).Active → (s.stage j).Active → home i = home j → i = j
  distinct : ∀ p q, s.life p = .alive → s.life q = .alive → who p = who q → p = q
  backed : ∀ i, (s.stage i).Backed s.lockFile s.contents (who (home i))
  sole : ∀ i j, (s.stage i).Owns → (s.stage j).Owns → i = j

/-- What a step may rely on: a new process has an identity of its own, no instance registers while
another of its process has yet to remove the file, the token is written in one piece, and a lease is
replaced while it still names a process that is gone. -/
def Guarded (s : LeaseState ι π) : LeaseOp ι π → Prop
  | .spawn p => ∀ q, s.life q = .alive → who q ≠ who p
  | .reserve i => ∀ j, home j = home i → s.stage j ≠ .removing
  | .write i count => ∀ rest ∈ (s.stage i).unwritten, rest.length ≤ count
  | .rename i => s.stage i = .stale → ∀ raw ∈ s.lease,
      (parseLease raw).isSome ∧ ∀ q, s.life q = .alive → ¬Names (some raw) (who q)
  | _ => True

variable {who home} {s : LeaseState ι π} {x : Stage} {i : ι}
section
variable (h : Exclusive who home s)
include h

lemma Exclusive.alone (hi : (s.stage i).Active) : ∀ j, j ≠ i → home j = home i → ¬(s.stage j).Active :=
  fun j hn hh hj => hn (h.single j i hj hi hh)
lemma Exclusive.others (hi : (s.stage i).Owns) : ∀ j, j ≠ i → ¬(s.stage j).Owns :=
  fun j hn hj => hn (h.sole j i hj hi)

/-- A file that names this live process, or is empty, has no owner in another. -/
theorem Exclusive.owner_names (hi : (s.stage i).Active)
    (hn : Names s.lease (who (home i))) : ∀ j, j ≠ i → ¬(s.stage j).Owns := by
  intro j hne hj
  rcases (h.backed j).lease hj with he | ho
  · rw [lease,he] at hn
    exact not_names_empty _ hn
  · have hh := h.distinct _ _ (h.alive j hj.active) (h.alive i hi) (ho.unique hn)
    exact hne (h.single j i hj.active hi hh)

lemma Exclusive.owned_file {j : ι} (hj : (s.stage j).Owns) : s.lockFile ≠ none := by
  intro hn
  rcases (h.backed j).lease hj with he | ho
  · rw [hn] at he; cases he
  · rw [hn] at ho; cases ho
end
lemma decision_reentrant {st : Store} {self : Identity} {raw : String}
    (h : decision st self raw = .reentrant) : parseLease raw = some (self.host,self.pid) := by
  rw [decision] at h
  cases hp : parseLease raw with
  | none => rw [hp] at h; cases h
  | some le =>
    obtain ⟨host,pid⟩ := le
    rw [hp] at h
    dsimp only at h
    split at h
    · rename_i hs
      rw [hs.1,hs.2]
    · split at h <;> cases h

lemma names_of_read {rb : Bool} {id : Identity}
    (h : parseLease (if rb then (s.readLock none).orEmpty else "") = some (id.host,id.pid)) :
    Names s.lease id := by
  have he : parseLease "" ≠ some (id.host,id.pid) := not_names_empty id
  cases rb with
  | false => exact absurd h he
  | true =>
    cases hl : s.lease with
    | none =>
      simp only [readLock,hl] at h
      exact absurd h he
    | some =>
      simp only [readLock,hl] at h
      exact h

/-- Where no other instance of the process is active, its entry in the registry may change. -/
theorem Exclusive.refs_update [DecidableEq π] (h : Exclusive who home s)
    (ha : ∀ j, j ≠ i → home j = home i → ¬(s.stage j).Active) (n : ℕ) :
    ∀ j, j ≠ i → (s.stage j).Registered → 0 < update s.refs (home i) n (home j) := by
  intro j hn hr
  rw [update_of_ne fun hh => ha j hn hh hr.active]
  exact h.registered j hr

lemma Exclusive.spawn [DecidableEq π] (h : Exclusive who home s) {p : π}
    (hp : ∀ q, s.life q = .alive → who q ≠ who p) :
    Exclusive who home {s with life := update s.life p .alive} := by
  refine ⟨fun i hi => ?_,h.registered,h.single,fun q r hq hr hw => ?_,h.backed,h.sole⟩
  · dsimp only
    by_cases hn : home i = p
    · rw [hn,update_self]
    · rw [update_of_ne hn]
      exact h.alive i hi
  · dsimp only at hq hr
    by_cases hqp : q = p
    · by_cases hrp : r = p
      · rw [hqp,hrp]
      · rw [update_of_ne hrp] at hr
        exact absurd (hqp ▸ hw.symm) (hp r hr)
    · rw [update_of_ne hqp] at hq
      by_cases hrp : r = p
      · exact absurd (hrp ▸ hw) (hp q hq)
      · rw [update_of_ne hrp] at hr
        exact h.distinct q r hq hr hw

variable [DecidableEq ι]

lemma unique_update {P : Stage → Prop} {R : ι → ι → Prop} {f : ι → Stage} (hr : ∀ {j k}, R j k → R k j)
    (h : ∀ j k, P (f j) → P (f k) → R j k → j = k) (hx : P x → ∀ j, j ≠ i → R j i → ¬P (f j)) :
    ∀ j k, P (update f i x j) → P (update f i x k) → R j k → j = k := by
  intro j k hj hk hjk
  by_cases hji : j = i
  · by_cases hki : k = i
    · rw [hji,hki]
    · rw [hji,update_self] at hj
      rw [update_of_ne hki] at hk
      exact absurd hk (hx hj k hki (hji ▸ hr hjk))
  · rw [update_of_ne hji] at hj
    by_cases hki : k = i
    · rw [hki,update_self] at hk
      exact absurd hj (hx hk j hji (hki ▸ hjk))
    · rw [update_of_ne hki] at hk
      exact h j k hj hk hjk

/-- One instance moves to another stage.  Either no other owns the file, or the file stays and the
instance does not come to own it. -/
theorem Exclusive.set (h : Exclusive who home s) {s' : LeaseState ι π}
    (hs : s'.stage = update s.stage i x) (hl : s'.life = s.life)
    (hre : ∀ j, j ≠ i → (s.stage j).Registered → 0 < s'.refs (home j))
    (hr : x.Registered → 0 < s'.refs (home i))
    (hali : x.Active → s.life (home i) = .alive)
    (hal : x.Active → ∀ j, j ≠ i → home j = home i → ¬(s.stage j).Active)
    (ho : (∀ j, j ≠ i → ¬(s.stage j).Owns) ∨ ¬x.Owns ∧ s'.lockFile = s.lockFile ∧ s'.contents = s.contents)
    (hb : x.Backed s'.lockFile s'.contents (who (home i))) : Exclusive who home s' := by
  constructor
  · rw [hs,hl]
    exact (forall_update_iff s.stage fun j y => y.Active → s.life (home j) = .alive).mpr
      ⟨hali,fun j _ => h.alive j⟩
  · rw [hs]
    exact (forall_update_iff s.stage fun j y => y.Registered → 0 < s'.refs (home j)).mpr ⟨hr,hre⟩
  · rw [hs]
    exact unique_update (P := Stage.Active) (fun hh => hh.symm) h.single hal
  · rw [hl]
    exact h.distinct
  · rw [hs]
    refine (forall_update_iff s.stage fun j y => y.Backed s'.lockFile s'.contents (who (home j))).mpr
      ⟨hb,fun j hne => ?_⟩
    rcases ho with hn | ⟨-,hf,hc⟩
    · exact Stage.backed_of_not_owns (hn j hne)
    · rw [hf,hc]; exact h.backed j
  · rw [hs]
    refine fun j k hj hk => unique_update (P := Stage.Owns) (R := fun _ _ => True) (fun _ => trivial)
      (fun j k hj hk _ => h.sole j k hj hk) (fun hx j hne _ => ?_) j k hj hk trivial
    rcases ho with hn | ⟨hno,-,-⟩
    · exact hn j hne
    · exact absurd hx hno

variable {i : ι}
section
variable (h : Exclusive who home s)
include h

/-- An instance in its course moves to a stage at which it does not own the file. -/
theorem Exclusive.advance (hi : (s.stage i).Registered) (hx : ¬x.Owns) : Exclusive who home (s.setStage i x) :=
  h.set rfl rfl (fun j _ => h.registered j) (fun _ => h.registered i hi)
    (fun _ => h.alive i hi.active) (fun _ => h.alone hi.active) (Or.inr ⟨hx,rfl,rfl⟩) (Stage.backed_of_not_owns hx)

/-- An instance comes to own the file that names it, or goes on owning it. -/
theorem Exclusive.own (hi : (s.stage i).Registered) (ho : ∀ j, j ≠ i → ¬(s.stage j).Owns)
    (hb : x.Backed s.lockFile s.contents (who (home i))) :
    Exclusive who home (s.setStage i x) :=
  h.set rfl rfl (fun j _ => h.registered j) (fun _ => h.registered i hi)
    (fun _ => h.alive i hi.active) (fun _ => h.alone hi.active) (Or.inl ho) hb

lemma Exclusive.hold {writers : ℕ}
    (hs : s.stage i = .held writers) (n : ℕ) : Exclusive who home (s.setStage i (.held n)) := by
  have hb := h.backed i
  rw [hs] at hb
  exact h.own (by rw [hs]; trivial) (h.others (by rw [hs]; trivial)) hb

/-- An instance puts a file of its own at the path while nobody owns what is there. -/
theorem Exclusive.place (hi : (s.stage i).Registered) (t : String) (ho : ∀ j, j ≠ i → ¬(s.stage j).Owns)
    (hb : x.Backed (some s.nextInode) (update s.contents s.nextInode t) (who (home i))) :
    Exclusive who home ((s.placeFile t).setStage i x) :=
  h.set rfl rfl (fun j _ => h.registered j) (fun _ => h.registered i hi)
    (fun _ => h.alive i hi.active) (fun _ => h.alone hi.active) (Or.inl ho) hb
end
variable [DecidableEq π]
section
variable (h : Exclusive who home s)
include h

lemma Exclusive.refuse (hi : (s.stage i).Registered) (e : Error) : Exclusive who home (s.refuse home i e) :=
  h.set rfl rfl (h.refs_update (h.alone hi.active) _) (fun hid => hid.elim)
    (fun hid => hid.elim) (fun hid => hid.elim) (Or.inr ⟨id,rfl,rfl⟩) trivial

variable (st : Store)

lemma Exclusive.crash (p : π) : Exclusive who home (s.step st who home (.crash p)) := by
  have hs : ∀ i, (s.step st who home (.crash p)).stage i =
      if home i = p then .idle none else s.stage i := fun _ => rfl
  have hk : ∀ {P : Stage → Prop} {i : ι}, ¬P (.idle none) →
      P ((s.step st who home (.crash p)).stage i) → home i ≠ p ∧ P (s.stage i) := by
    intro P i hid hP
    by_cases hi : home i = p
    · rw [hs,if_pos hi] at hP
      exact absurd hP hid
    · rw [hs,if_neg hi] at hP
      exact ⟨hi,hP⟩
  constructor
  · intro i hi
    obtain ⟨hn,ha⟩ := hk (P := Stage.Active) id hi
    exact (update_of_ne hn _ _).trans (h.alive i ha)
  · intro i hi
    obtain ⟨hn,hre⟩ := hk (P := Stage.Registered) id hi
    exact lt_of_lt_of_eq (h.registered i hre) (update_of_ne hn _ _).symm
  · intro i j hi hj
    exact h.single i j (hk (P := Stage.Active) id hi).2 (hk (P := Stage.Active) id hj).2
  · intro q r hq hr
    have hl : ∀ q, (s.step st who home (.crash p)).life q = .alive → s.life q = .alive := by
      intro q hq
      by_cases hqp : q = p
      · have hd : (s.step st who home (.crash p)).life q = .dead := by
          rw [hqp]; exact update_self _ _ _
        rw [hd] at hq; cases hq
      · exact (update_of_ne hqp _ _).symm.trans hq
    exact h.distinct q r (hl q hq) (hl r hr)
  · intro i
    rw [hs]
    split
    · trivial
    · exact h.backed i
  · intro i j hi hj
    exact h.sole i j (hk (P := Stage.Owns) id hi).2 (hk (P := Stage.Owns) id hj).2

lemma Exclusive.reserve (i : ι) (hr : ∀ j, home j = home i → s.stage j ≠ .removing) :
    Exclusive who home (s.step st who home (.reserve i)) := by
  rw [step]
  split
  · rename_i failure hali hi
    rw [reserveInProcess]
    split_ifs with hre
    · exact h.set rfl rfl (fun j _ => h.registered j) (fun hi => hi.elim)
        (fun hi => hi.elim) (fun hi => hi.elim) (Or.inr ⟨id,rfl,rfl⟩) trivial
    · have hal : ∀ j, j ≠ i → home j = home i → ¬(s.stage j).Active := by
        intro j hn hh ha
        have hreg : (s.stage j).Registered := by
          cases hs : s.stage j with
          | idle => rw [hs] at ha; exact ha.elim
          | removing => exact absurd hs (hr j hh)
          | _ => trivial
        exact hre (hh ▸ h.registered j hreg)
      have hse : 0 < update s.refs (home i) 1 (home i) := by simp
      exact h.set rfl rfl (h.refs_update hal _) (fun _ => hse) (fun _ => hali)
        (fun _ => hal) (Or.inr ⟨id,rfl,rfl⟩) trivial
  · exact h

lemma Exclusive.createNew (i : ι) : Exclusive who home (s.step st who home (.createNew i)) := by
  rw [step]
  split
  · rename_i hs hf
    have hi : (s.stage i).Registered := by rw [hs]; trivial
    refine h.place hi "" (fun j _ hj => h.owned_file hj hf) ⟨rfl,Or.inl ⟨?_,rfl⟩⟩
    exact update_self _ _ _
  · rename_i hs hf
    exact h.advance (by rw [hs]; trivial) id
  · exact h

lemma Exclusive.write {n : ℕ} (hwh : ∀ r ∈ (s.stage i).unwritten, r.length ≤ n) :
    Exclusive who home (s.step st who home (.write i n)) := by
  rw [step]
  split
  · rename_i inode r hs
    have hi : (s.stage i).Registered := by rw [hs]; trivial
    have ho : (s.stage i).Owns := by rw [hs]; trivial
    have hc := hwh r (by rw [hs]; rfl)
    rw [List.take_of_length_le hc,List.drop_of_length_le hc]
    have hb := h.backed i
    rw [hs] at hb
    obtain ⟨hf,hw⟩ := hb
    have hte : s.contents inode++String.ofList r = (who (home i)).token := by
      rcases hw with ⟨he,rfl⟩ | ⟨ht,rfl⟩
      · simp [he]
      · simp [ht]
    refine h.set rfl rfl (fun j _ => h.registered j) (fun _ => h.registered i hi)
      (fun _ => h.alive i hi.active) (fun _ => h.alone hi.active) (Or.inl (h.others ho))
      ⟨hf,Or.inr ⟨?_,rfl⟩⟩
    exact (update_self _ _ _).trans hte
  · exact h

lemma Exclusive.sync (i : ι) : Exclusive who home (s.step st who home (.sync i)) := by
  rw [step]
  split
  · rename_i inode hs
    have hb := h.backed i
    rw [hs] at hb
    obtain ⟨hf,hw⟩ := hb
    refine h.own (by rw [hs]; trivial) (h.others (by rw [hs]; trivial)) ?_
    show Names (s.lockFile.map s.contents) (who (home i))
    rcases hw with ⟨-,hr⟩ | ⟨ht,-⟩
    · have he : (who (home i)).token = "" := String.toList_eq_nil_iff.mp hr.symm
      exact absurd (he ▸ names_token (who (home i))) (not_names_empty _)
    · rw [hf,Option.map_some,ht]
      exact names_token _
  · exact h

lemma Exclusive.read (i : ι) (rb : Bool) : Exclusive who home (s.step st who home (.read i rb)) := by
  rw [step]
  split
  · rename_i hs
    have hi : (s.stage i).Registered := by rw [hs]; trivial
    cases hd : decision st (who (home i)) (if rb then (s.readLock none).orEmpty else "") with
    | reentrant =>
      have hn := names_of_read (decision_reentrant hd)
      exact h.own hi (h.owner_names hi.active hn) hn
    | probe => exact h.advance hi id
    | refuse e => exact h.refuse hi e
  · exact h

lemma Exclusive.rename (hg : s.stage i = .stale → ∀ raw ∈ s.lease,
      (parseLease raw).isSome ∧ ∀ q, s.life q = .alive → ¬Names (some raw) (who q)) :
    Exclusive who home (s.step st who home (.rename i)) := by
  rw [step]
  split
  · rename_i hs
    have hi : (s.stage i).Registered := by rw [hs]; trivial
    refine h.place hi _ (fun j _ hj => ?_) ?_
    · -- an owner's file would be empty or name the owner, who is alive
      cases hl : s.lease with
      | none => exact h.owned_file hj (Option.map_eq_none_iff.mp hl)
      | some raw =>
        obtain ⟨hp,hd⟩ := hg hs raw hl
        rcases (h.backed j).lease hj with he | hn
        · rw [lease,he] at hl
          rw [← Option.some.inj hl] at hp
          cases hp
        · rw [← lease,hl] at hn
          exact hd _ (h.alive j hj.active) hn
    · show Names ((some s.nextInode).map _) _
      rw [Option.map_some,update_self]
      exact names_token _
  · exact h

lemma Exclusive.reread (i : ι) (rb : Bool) : Exclusive who home (s.step st who home (.reread i rb)) := by
  rw [step]
  split
  · rename_i hs
    have hi : (s.stage i).Registered := by rw [hs]; trivial
    by_cases hr : parseLease (if rb then (s.readLock none).orEmpty else "") =
        some ((who (home i)).host,(who (home i)).pid)
    · rw [if_pos hr]
      have hn := names_of_read hr
      exact h.own hi (h.owner_names hi.active hn) hn
    · rw [if_neg hr]
      exact h.refuse hi _
  · exact h

lemma Exclusive.drop (i : ι) : Exclusive who home (s.step st who home (.drop i)) := by
  rw [step]
  split
  · rename_i hs
    have hi : (s.stage i).Registered := by rw [hs]; trivial
    have ho : (s.stage i).Owns := by rw [hs]; trivial
    have hb := h.backed i
    rw [hs] at hb
    refine h.set rfl rfl (h.refs_update (h.alone hi.active) _) (fun hr => ?_)
      (fun _ => h.alive i hi.active) (fun _ => h.alone hi.active) (Or.inl (h.others ho)) ?_
    · split at hr <;> exact hr.elim
    · split
      · exact hb
      · trivial
  · exact h

lemma Exclusive.remove (i : ι) (removed : Bool) : Exclusive who home (s.step st who home (.remove i removed)) := by
  rw [step]
  split
  · rename_i hs
    have ho : (s.stage i).Owns := by rw [hs]; trivial
    cases removed <;>
      exact h.set rfl rfl (fun j _ => h.registered j) (fun hi => hi.elim)
        (fun hi => hi.elim) (fun hi => hi.elim) (Or.inl (h.others ho)) trivial
  · exact h

lemma Exclusive.step {op : LeaseOp ι π}
    (hg : Guarded who home s op) : Exclusive who home (s.step st who home op) := by
  cases op with
  | spawn =>
    rw [LeaseState.step]
    split
    · exact h.spawn hg
    · exact h
  | crash p => exact h.crash st p
  | reserve i => exact h.reserve st i hg
  | createNew i => exact h.createNew st i
  | write => exact h.write st hg
  | sync i => exact h.sync st i
  | fail i e =>
    rw [LeaseState.step]
    split
    · rename_i hs; exact h.refuse (by rw [hs]; trivial) e
    · rename_i hs; exact h.refuse (by rw [hs]; trivial) e
    · rename_i hs; exact h.refuse (by rw [hs]; trivial) e
    · exact h
  | read i rb => exact h.read st i rb
  | isPidAlive i alive =>
    rw [LeaseState.step]
    split
    · rename_i pid hs
      have hi : (s.stage i).Registered := by rw [hs]; trivial
      cases alive with
      | true => exact h.refuse hi _
      | false => exact h.advance hi id
    · exact h
  | rename => exact h.rename st hg
  | reread i rb => exact h.reread st i rb
  | verify i failure =>
    rw [LeaseState.step]
    split
    · rename_i writers hs
      split
      · exact h.hold hs (writers+1)
      · exact h
    · exact h
  | writeStore i =>
    rw [LeaseState.step]
    split
    · rename_i writers hs
      exact h.hold hs writers
    · exact h
  | drop i => exact h.drop st i
  | remove i removed => exact h.remove st i removed
end
end
section
variable {ι π : Type*}

/-- The write an operation makes, with the lease that is there. -/
def LeaseState.written (s : LeaseState ι π) : LeaseOp ι π → List (ι × Option String)
  | .writeStore i =>
    match s.stage i with
    | .held (_+1) => [(i,s.lease)]
    | _ => []
  | _ => []

def LeaseState.removed (s : LeaseState ι π) : LeaseOp ι π → List (ι × String)
  | .remove i true =>
    match s.stage i with
    | .removing => s.lease.toList.map fun raw => (i,raw)
    | _ => []
  | _ => []

/-- The state with the writes made, each with the lease that was there, and the leases that drops
removed. -/
structure LeaseTrace (ι π : Type*) where
  state : LeaseState ι π
  writes : List (ι × Option String)
  removals : List (ι × String)

/-- Nothing runs yet; the lock file may have been left behind. -/
def LeaseTrace.start (left : Option String) : LeaseTrace ι π :=
  ⟨⟨left.map fun _ => 0,fun _ => left.getD "",1,fun _ => .unborn,fun _ => 0,fun _ => .idle none⟩,[],[]⟩

variable (who : π → Identity) (home : ι → π)

/-- Each write was made, and each file removed, under the lease of the process that did it. -/
structure Fenced (t : LeaseTrace ι π) : Prop where
  exclusive : Exclusive who home t.state
  writes : ∀ w ∈ t.writes, Names w.2 (who (home w.1))
  removals : ∀ r ∈ t.removals, Names (some r.2) (who (home r.1))

variable {op : LeaseOp ι π} {s : LeaseState ι π}
section
variable {who : π → Identity} {home : ι → π} (h : Exclusive who home s)
include h

lemma Exclusive.written {w : ι × Option String} (hw : w ∈ s.written op) : Names w.2 (who (home w.1)) := by
  cases op with
  | writeStore i =>
    rw [written] at hw
    split at hw
    · rename_i writers hs
      have hb := h.backed i
      rw [hs] at hb
      rw [List.mem_singleton.mp hw]
      exact hb
    · cases hw
  | _ => cases hw

lemma Exclusive.removed {r : ι × String} (hr : r ∈ s.removed op) : Names (some r.2) (who (home r.1)) := by
  cases op with
  | remove i ok =>
    cases ok with
    | false => cases hr
    | true =>
      rw [removed] at hr
      split at hr
      · rename_i hs
        obtain ⟨raw,hra,rfl⟩ := List.mem_map.mp hr
        have hb := h.backed i
        rw [hs] at hb
        exact Option.mem_toList.mp hra ▸ hb
      · cases hr
  | _ => cases hr
end
lemma start_fenced (left : Option String) : Fenced who home (LeaseTrace.start left) where
  exclusive := ⟨fun _ hi => hi.elim,fun _ hi => hi.elim,fun _ _ hi => hi.elim,
    fun _ _ hp => (by cases hp),fun _ => trivial,fun _ _ hi => hi.elim⟩
  writes := fun _ hw => (by cases hw)
  removals := fun _ hr => (by cases hr)

variable [DecidableEq ι] [DecidableEq π]

def LeaseTrace.step (store : Store) (who : π → Identity) (home : ι → π) (t : LeaseTrace ι π)
    (op : LeaseOp ι π) : LeaseTrace ι π :=
  ⟨t.state.step store who home op,t.writes++t.state.written op,t.removals++t.state.removed op⟩

lemma Fenced.step {who : π → Identity} {home : ι → π} {t : LeaseTrace ι π} (h : Fenced who home t)
    (st : Store) (hg : Guarded who home t.state op) :
    Fenced who home (t.step st who home op) := by
  refine ⟨h.exclusive.step st hg,fun w hw => ?_,fun r hr => ?_⟩
  · rcases List.mem_append.mp hw with ho | hn
    · exact h.writes w ho
    · exact h.exclusive.written hn
  · rcases List.mem_append.mp hr with ho | hn
    · exact h.removals r ho
    · exact h.exclusive.removed hn

/-- In every interleaving in which each step meets `Guarded`, whatever lock file was left, at most one
instance has a guard, every write of the store is made while the lock file names the writer's process,
and a dropped guard removes no lease of another process. -/
theorem lease_exclusive (store : Store) (who : π → Identity) (home : ι → π) (left : Option String)
    (ops : List (LeaseOp ι π))
    (hguarded : Machine.Meets (LeaseTrace.step store who home) (fun t => Guarded who home t.state)
      (LeaseTrace.start left) ops) :
    let t := Machine.run (LeaseTrace.step store who home) (LeaseTrace.start left) ops
    (∀ i j m n, t.state.stage i = .held m → t.state.stage j = .held n → i = j) ∧
    (∀ w ∈ t.writes, Names w.2 (who (home w.1))) ∧
    ∀ r ∈ t.removals, Names (some r.2) (who (home r.1)) := by
  intro t
  have hf : Fenced who home t := Machine.run_invariant_of_meets _ (P := Fenced who home)
    (fun t op h hguarded => h.step store hguarded) (start_fenced who home left) hguarded
  refine ⟨fun i j m n hi hj => ?_,hf.writes,hf.removals⟩
  exact hf.exclusive.sole i j (by rw [hi]; trivial) (by rw [hj]; trivial)
end
def plainIdentity (pid : UInt32) : Identity := ⟨"db1",pid,by decide,trimmed_of_forall (by simp [isWhitespace])⟩
def checkpointStore : Store := ⟨"checkpoint","/var/cdc/.rustcdc_checkpoint.owner","/var/cdc"⟩

/-- Instance `i` is all that runs in process `i`. -/
def sampleWho (p : Fin 3) : Identity := plainIdentity ⟨p.val+40⟩

/-- The first process takes the lease and dies, the second finds it stale. -/
def untilStale : List (LeaseOp (Fin 3) (Fin 3)) := [.spawn 0,.reserve 0,.createNew 0,.write 0 6,.sync 0,.crash 0,
    .spawn 1,.spawn 2,.reserve 1,.createNew 1,.read 1 true,.isPidAlive 1 false]

instance (s : LeaseState (Fin 3) (Fin 3)) (op : LeaseOp (Fin 3) (Fin 3)) : Decidable (Guarded sampleWho id s op) := by
  unfold Guarded
  split <;> infer_instance

def sampleRun (ops : List (LeaseOp (Fin 3) (Fin 3))) : LeaseTrace (Fin 3) (Fin 3) :=
  Machine.run (LeaseTrace.step checkpointStore sampleWho id) (LeaseTrace.start none) ops

theorem lease_exclusive_sample :
    let t := sampleRun (untilStale++[.rename 1,.reread 1 true,.reserve 2,.createNew 2,.read 2 true,
      .isPidAlive 2 true,.verify 1 none,.writeStore 1])
    t.writes = [(1,some "db1:41")] ∧ t.state.stage 1 = .held 0 ∧ ∀ j n, t.state.stage j = .held n → j = 1 := by
  intro t
  have he := lease_exclusive checkpointStore sampleWho id none
    (untilStale++[.rename 1,.reread 1 true,.reserve 2,.createNew 2,.read 2 true,.isPidAlive 2 true,
      .verify 1 none,.writeStore 1]) (by decide +kernel)
  have hh : t.state.stage 1 = .held 0 := by decide +kernel
  exact ⟨by decide +kernel,hh,fun j n hj => he.1 j 1 n 0 hj hh⟩

/-- The third process finds the lease stale as well and renames after the second, which has verified
its lease: the second's write is made under the third's lease, and its drop removes it. -/
theorem live_lease_replaced :
    let raced := sampleRun (untilStale++[.reserve 2,.createNew 2,.read 2 true,.isPidAlive 2 false,
      .rename 1,.reread 1 true,.verify 1 none,.rename 2,.reread 2 true,.writeStore 1,.drop 1,
      .remove 1 true])
    raced.state.stage 2 = .held 0 ∧ raced.state.lockFile = none ∧
      raced.writes = [(1,some "db1:42")] ∧ raced.removals = [(1,"db1:42")] ∧
      (sampleWho 1).token = "db1:41" := by
  decide +kernel
end Rustcdc.OwnerLease
