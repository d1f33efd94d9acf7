import Rustcdc.Source.Mysql.GtidSet

/-! The GTID set of a watermark: what a text stands for, the normal form it is kept in, and membership
by binary search. -/
namespace Rustcdc.Mysql
open List

/-- Sorted intervals with a gap between each and the next. -/
structure Normal (is : Intervals) : Prop where
  bounds : ∀ i ∈ is, i.1 ≤ i.2 ∧ i.2 < 2^64
  apart : is.Pairwise fun a b => a.2+1 < b.1
section
variable {is js : Intervals}

lemma coalesce_starts {low : ℕ} (h : ∀ i ∈ is, low ≤ i.1) : ∀ i ∈ coalesce is, low ≤ i.1 := by
  fun_induction coalesce is with
  | case1 | case2 => exact h
  | case3 s e s' e' is hn ih =>
    obtain ⟨hf,hr⟩ := forall_mem_cons.mp h
    exact ih (forall_mem_cons.mpr ⟨hf,(forall_mem_cons.mp hr).2⟩)
  | case4 s e s' e' is hfa ih =>
    obtain ⟨hf,hr⟩ := forall_mem_cons.mp h
    exact forall_mem_cons.mpr ⟨hf,ih hr⟩

lemma coalesce_apart (h : Sorted is) (hb : ∀ i ∈ is, i.1 ≤ i.2 ∧ i.2 < 2^64) :
    (coalesce is).Pairwise fun a b => a.2+1 < b.1 := by
  fun_induction coalesce is with
  | case1 => exact List.Pairwise.nil
  | case2 => exact pairwise_singleton _ _
  | case3 s e s' e' is hn ih =>
    obtain ⟨hf,hr⟩ := pairwise_cons.mp h
    obtain ⟨ho,hm⟩ := forall_mem_cons.mp hb
    obtain ⟨htw,ht⟩ := forall_mem_cons.mp hm
    refine ih (pairwise_cons.mpr ⟨fun i hi => hf i (mem_cons_of_mem _ hi),
      (pairwise_cons.mp hr).2⟩) (forall_mem_cons.mpr ⟨?_,ht⟩)
    dsimp only at ho htw ⊢
    omega
  | case4 s e s' e' is hfa ih =>
    obtain ⟨_,hr⟩ := pairwise_cons.mp h
    obtain ⟨ho,hm⟩ := forall_mem_cons.mp hb
    have htw := hm (s',e') mem_cons_self
    refine pairwise_cons.mpr ⟨fun i hi => ?_,ih hr hm⟩
    -- the next interval starts behind the end, which is below the top of the range
    have hs : s' ≤ i.1 := coalesce_starts (forall_mem_cons.mpr ⟨le_rfl,fun j hj => (pairwise_cons.mp hr).1 j hj⟩) i hi
    dsimp only at ho htw
    omega

lemma Normal.tail {i : ℕ × ℕ} (h : Normal (i::is)) : Normal is :=
  ⟨fun j hj => h.bounds j (mem_cons_of_mem _ hj),(pairwise_cons.mp h.apart).2⟩

/-- The first interval is the part of the set up to its first gap. -/
theorem Normal.cons_covers {i : ℕ × ℕ} (h : Normal (i::is)) {n : ℕ} :
    (Covers (i::is) n → i.1 ≤ n) ∧ (Covers is n ↔ Covers (i::is) n ∧ i.2+1 < n) := by
  have ho := h.bounds i mem_cons_self
  have ha : Covers is n → i.2+1 < n := by
    rintro ⟨j,hj,hl,_⟩
    exact ((pairwise_cons.mp h.apart).1 j hj).trans_le hl
  rw [covers_cons]
  refine ⟨?_,fun hc => ⟨.inr hc,ha hc⟩,?_⟩
  · rintro (hi | hc)
    · exact hi.1
    · have := ha hc
      omega
  · rintro ⟨hi | hc,hlt⟩
    · omega
    · exact hc

/-- A set has one normal form. -/
theorem Normal.unique (h : Normal is) (h' : Normal js) (hsa : ∀ n, Covers is n ↔ Covers js n) : is = js := by
  induction is generalizing js with
  | nil =>
    cases js with
    | nil => rfl
    | cons j js =>
      have hf := h'.bounds j mem_cons_self
      exact absurd ((hsa j.1).mpr (covers_cons.mpr (.inl ⟨le_rfl,hf.1⟩))) covers_nil
  | cons i is ih =>
    cases js with
    | nil =>
      have hf := h.bounds i mem_cons_self
      exact absurd ((hsa i.1).mp (covers_cons.mpr (.inl ⟨le_rfl,hf.1⟩))) covers_nil
    | cons j js =>
      have hi := h.bounds i mem_cons_self
      have hj := h'.bounds j mem_cons_self
      have hin : ∀ n, i.1 ≤ n → n ≤ i.2 → j.1 ≤ n ∧ (n ≤ j.2 ∨ j.2+1 < n) := by
        intro n hl hl'
        have hc := (hsa n).mp (covers_cons.mpr (.inl ⟨hl,hl'⟩))
        refine ⟨h'.cons_covers.1 hc,(covers_cons.mp hc).imp (·.2) fun hc => ?_⟩
        exact (h'.cons_covers.2.mp hc).2
      have hin' : ∀ n, j.1 ≤ n → n ≤ j.2 → i.1 ≤ n ∧ (n ≤ i.2 ∨ i.2+1 < n) := by
        intro n hl hl'
        have hc := (hsa n).mpr (covers_cons.mpr (.inl ⟨hl,hl'⟩))
        refine ⟨h.cons_covers.1 hc,(covers_cons.mp hc).imp (·.2) fun hc => ?_⟩
        exact (h.cons_covers.2.mp hc).2
      have hs : i.1 = j.1 := by
        have := (hin i.1 le_rfl hi.1).1
        have := (hin' j.1 le_rfl hj.1).1
        omega
      have hst : i.2 = j.2 := by
        -- of two ends the smaller would be followed by a number of the set
        rcases lt_trichotomy i.2 j.2 with hlt | he | hlt
        · have := hin' (i.2+1) (by omega) (by omega)
          omega
        · exact he
        · have := hin (j.2+1) (by omega) (by omega)
          omega
      obtain rfl : i = j := Prod.ext hs hst
      rw [ih h.tail h'.tail fun n => by rw [h.cons_covers.2,h'.cons_covers.2,hsa]]
end
structure GtidSet where
  sources : List (List Char × Intervals)

namespace GtidSet
def parseBound (entry value : List Char) : Except String ℕ :=
  match fromStrRadix 10 (2^64) value with
  | .error e => .error ("GTID set entry '"++String.ofList entry++
      "' has a non-numeric interval bound '"++String.ofList value++"': "++e)
  | .ok n => .ok n

def parseInterval (raw entry : List Char) : Except String (ℕ × ℕ) :=
  match splitOnce '-' raw with
  | some (start,stop) =>
    match parseBound entry start, parseBound entry stop with
    | .error e, _ => .error e
    | _, .error e => .error e
    | .ok start, .ok stop =>
      if stop < start then .error ("GTID set entry '"++String.ofList entry++
        "' has a backwards interval "++toString start++"-"++toString stop)
      else .ok (start,stop)
  | none => (parseBound entry raw).map fun single => (single,single)

def parseIntervals (entry : List Char) : List (List Char) → Except String Intervals
  | [] => .ok []
  | raw::raws =>
    match parseInterval raw entry, parseIntervals entry raws with
    | .error e, _ => .error e
    | _, .error e => .error e
    | .ok interval, .ok intervals => .ok (interval::intervals)

/-- White space carries no meaning. -/
def stripped (raw : List Char) : List Char := raw.filter (!isWhitespace ·)

/-- The entries of a text, added to the sources in turn. -/
def parseEntries : List (List Char) → List (List Char × Intervals) → Except String (List (List Char × Intervals))
  | [], sources => .ok sources
  | raw::raws, sources =>
    let entry := stripped raw
    if entry.isEmpty then parseEntries raws sources
    else
      match splitOn ':' entry with
      | [] | []::_ => .error ("GTID set entry '"++String.ofList entry++"' has no source uuid")
      | uuid::parts =>
        match parseIntervals entry parts with
        | .error e => .error e
        | .ok [] => .error ("GTID set entry '"++String.ofList entry++
            "' names a source uuid with no transaction intervals")
        | .ok intervals => parseEntries raws (extendEntry (toAsciiLowercase uuid) intervals sources)

def parse (raw : String) : Except String GtidSet :=
  (parseEntries (splitOn ',' raw.toList) []).map fun sources => ⟨sources.map coalesced⟩

/-- The loop of `slice::binary_search_by` over the starts; a fuel of the size is enough. -/
def searchLoop (intervals : Intervals) (seqno : ℕ) : ℕ → ℕ → ℕ → ℕ
  | 0, base, _ => base
  | fuel+1, base, size =>
    if size ≤ 1 then base
    else
      let half := size/2
      searchLoop intervals seqno fuel
        (if (intervals[base+half]?.map (·.1)).any (seqno < ·) then base else base+half) (size-half)
section
variable (intervals : Intervals) (seqno : ℕ)

/-- `binary_search_by`: the place of the start, or where it would stand. -/
def binarySearch : Except ℕ ℕ :=
  let base := searchLoop intervals seqno intervals.length 0 intervals.length
  match intervals[base]? with
  | none => .error 0
  | some (start,_) =>
    if start = seqno then .ok base else .error (if start < seqno then base+1 else base)

/-- The candidate is the last interval that starts at or below the number. -/
def found : Bool :=
  match binarySearch intervals seqno with
  | .ok _ => true
  | .error 0 => false
  | .error (index+1) => intervals[index]?.any (seqno ≤ ·.2)
end
def contains (set : GtidSet) (uuid : String) (seqno : ℕ) : Bool :=
  (set.sources.lookup (toAsciiLowercase uuid.toList)).any (found · seqno)

/-- Some interval of the entry, read by itself, covers the number. -/
def Writes (raw : List Char) (g : List Char × ℕ) : Prop :=
  ∃ uuid parts, splitOn ':' (stripped raw) = uuid::parts ∧ toAsciiLowercase uuid = g.1 ∧
    ∃ part ∈ parts, ∃ i, parseInterval part (stripped raw) = .ok i ∧ i.1 ≤ g.2 ∧ g.2 ≤ i.2

/-- The transactions a text stands for. -/
def written (raw : String) : Set (List Char × ℕ) := {g | ∃ entry ∈ splitOn ',' raw.toList, Writes entry g}

variable {ivs is : Intervals} {ra : List (List Char)} {entry u : List Char}

lemma parseBound_lt {v : List Char} {n : ℕ} (h : parseBound entry v = .ok n) : n < 2^64 := by
  rw [parseBound] at h
  cases hr : fromStrRadix 10 (2^64) v with
  | error => rw [hr] at h; cases h
  | ok m =>
    rw [hr] at h
    cases h
    have hv : parseU64 v = some n := by rw [parseU64,hr]; rfl
    exact parseU64_lt hv

lemma parseInterval_bounds {raw : List Char} {i : ℕ × ℕ} (h : parseInterval raw entry = .ok i) :
    i.1 ≤ i.2 ∧ i.2 < 2^64 := by
  unfold parseInterval at h
  split at h
  · split at h
    · cases h
    · cases h
    · rename_i hs
      split at h
      · cases h
      · cases h
        exact ⟨by omega,parseBound_lt hs⟩
  · cases hb : parseBound entry raw with
    | error => rw [hb] at h; cases h
    | ok =>
      rw [hb] at h
      cases h
      exact ⟨le_rfl,parseBound_lt hb⟩

lemma parseIntervals_ok (h : parseIntervals entry ra = .ok ivs) :
    (∀ i ∈ ivs, i.1 ≤ i.2 ∧ i.2 < 2^64) ∧ ∀ n, Covers ivs n ↔
      ∃ raw ∈ ra, ∃ i, parseInterval raw entry = .ok i ∧ i.1 ≤ n ∧ n ≤ i.2 := by
  induction ra generalizing ivs with
  | nil =>
    cases h
    exact ⟨by simp,by simp [Covers]⟩
  | cons raw ra ih =>
    rw [parseIntervals] at h
    split at h
    · cases h
    · cases h
    · rename_i ho hr
      cases h
      obtain ⟨hb,hc⟩ := ih hr
      refine ⟨forall_mem_cons.mpr ⟨parseInterval_bounds ho,hb⟩,fun n => ?_⟩
      rw [covers_cons,hc,exists_mem_cons_iff]
      simp [ho]

/-- The map of the sources: sorted by uuid, each with intervals that can be read back. -/
structure Mapped (sources : List (List Char × Intervals)) : Prop where
  sorted : sources.Pairwise fun a b => a.1 < b.1
  some : ∀ entry ∈ sources, entry.2 ≠ []
  bounds : ∀ entry ∈ sources, ∀ i ∈ entry.2, i.1 ≤ i.2 ∧ i.2 < 2^64

variable {sources : List (List Char × Intervals)}

lemma Mapped.extend {uuid : List Char} (h : Mapped sources) (hs : ivs ≠ []) (hb : ∀ i ∈ ivs, i.1 ≤ i.2 ∧ i.2 < 2^64) :
    Mapped (extendEntry uuid ivs sources) ∧ ∀ low, low < uuid → (∀ entry ∈ sources, low < entry.1) →
        ∀ entry ∈ extendEntry uuid ivs sources, low < entry.1 := by
  induction sources with
  | nil =>
    rw [extendEntry]
    exact ⟨⟨pairwise_singleton _ _,by simpa,forall_mem_singleton.mpr hb⟩,by simp⟩
  | cons f r ih =>
    obtain ⟨u,is⟩ := f
    obtain ⟨hf,hr⟩ := pairwise_cons.mp h.sorted
    obtain ⟨ho,hmo⟩ := forall_mem_cons.mp h.some
    obtain ⟨hl,hh⟩ := forall_mem_cons.mp h.bounds
    rw [extendEntry]
    split
    · refine ⟨⟨pairwise_cons.mpr ⟨hf,hr⟩,forall_mem_cons.mpr ⟨by simp [hs],hmo⟩,
        forall_mem_cons.mpr ⟨fun i hi => ?_,hh⟩⟩,fun low _ hal => ?_⟩
      · exact (mem_append.mp hi).elim (hl i) (hb i)
      · exact forall_mem_cons.mpr (forall_mem_cons.mp hal)
    · rename_i hn
      split_ifs with hlt
      · exact ⟨⟨pairwise_cons.mpr ⟨forall_mem_cons.mpr ⟨hlt,fun entry he => hlt.trans (hf entry he)⟩,h.sorted⟩,
          forall_mem_cons.mpr ⟨hs,h.some⟩,forall_mem_cons.mpr ⟨hb,h.bounds⟩⟩,
          fun low hl hal => forall_mem_cons.mpr ⟨hl,hal⟩⟩
      · obtain ⟨hm,ha⟩ := ih ⟨hr,hmo,hh⟩
        have hlt : u < uuid := lt_of_le_of_ne (not_lt.mp hlt) (Ne.symm hn)
        refine ⟨⟨pairwise_cons.mpr ⟨ha u hlt hf,hm.sorted⟩,forall_mem_cons.mpr ⟨ho,hm.some⟩,
          forall_mem_cons.mpr ⟨hl,hm.bounds⟩⟩,fun low hl hal => ?_⟩
        obtain ⟨hu,hal⟩ := forall_mem_cons.mp hal
        exact forall_mem_cons.mpr ⟨hu,ha low hl hal⟩

lemma parseEntries_ok {r : List (List Char × Intervals)} (h : parseEntries ra sources = .ok r) (hm : Mapped sources) :
    Mapped r ∧ ∀ g, g ∈ gtidsIn r ↔ g ∈ gtidsIn sources ∨ ∃ raw ∈ ra, Writes raw g := by
  induction ra generalizing sources with
  | nil =>
    cases h
    exact ⟨hm,by simp⟩
  | cons raw ra ih =>
    simp only [exists_mem_cons_iff]
    rw [parseEntries] at h
    split_ifs at h with he
    · have hn : ∀ g, ¬Writes raw g := by
        rintro g ⟨uuid,ps,hs,_,p,hp,_⟩
        rw [isEmpty_iff.mp he] at hs
        cases hs
        cases hp
      simpa [hn] using ih h hm
    · split at h
      · cases h
      · cases h
      · rename_i uuid ps _ hs
        split at h
        · cases h
        · cases h
        · rename_i ivs hne hi
          obtain ⟨hb,hc⟩ := parseIntervals_ok hi
          obtain ⟨hr,hme⟩ := ih h (hm.extend (fun hni => hne hni) hb).1
          refine ⟨hr,fun g => ?_⟩
          have hw : Writes raw g ↔ toAsciiLowercase uuid = g.1 ∧ Covers ivs g.2 := by
            rw [hc]
            constructor
            · rintro ⟨uuid',ps',hs',hu,hp⟩
              cases hs.symm.trans hs'
              exact ⟨hu,hp⟩
            · exact fun ⟨hu,hp⟩ => ⟨uuid,ps,hs,hu,hp⟩
          rw [hme,mem_gtidsIn_extendEntry,hw,or_assoc]
section
variable {ivs : Intervals} (h : Normal ivs) {n : ℕ}
include h

lemma normal_le {j k : ℕ} {a b : ℕ × ℕ} (hj : ivs[j]? = some a) (hk : ivs[k]? = some b)
    (hl : j < k) : a.2+1 < b.1 := by
  obtain ⟨hjl,rfl⟩ := List.getElem?_eq_some_iff.mp hj
  obtain ⟨hkl,rfl⟩ := List.getElem?_eq_some_iff.mp hk
  exact pairwise_iff_getElem.mp h.apart j k hjl hkl hl

lemma normal_bounds {j : ℕ} {a : ℕ × ℕ} (hj : ivs[j]? = some a) : a.1 ≤ a.2 := (h.bounds a (mem_of_getElem? hj)).1

/-- The loop closes in on the last interval that does not start behind the number. -/
theorem searchLoop_spec {k base si : ℕ} (hf : si ≤ k) (hs : 0 < si)
    (hin : base+si ≤ ivs.length) (hb : base = 0 ∨ ∀ i ∈ ivs[base]?, i.1 ≤ n)
    (ha : ∀ j, base+si ≤ j → ∀ i ∈ ivs[j]?, n < i.1) :
    searchLoop ivs n k base si < ivs.length ∧ (searchLoop ivs n k base si = 0 ∨
        ∀ i ∈ ivs[searchLoop ivs n k base si]?, i.1 ≤ n) ∧
      ∀ j, searchLoop ivs n k base si < j → ∀ i ∈ ivs[j]?, n < i.1 := by
  induction k generalizing base si with
  | zero => omega
  | succ k ih =>
    rw [searchLoop]
    split
    · exact ⟨by omega,hb,fun j hj => ha j (by omega)⟩
    · dsimp only
      have hmi : base+si/2 < ivs.length := by omega
      rw [List.getElem?_eq_getElem hmi,Option.map_some,Option.any_some]
      split_ifs with hlt
      · rw [decide_eq_true_eq] at hlt
        refine ih (by omega) (by omega) (by omega) hb fun j hj i hi => ?_
        rcases Nat.lt_or_ge (base+si/2) j with hm | hsa
        · have hg := normal_le h (List.getElem?_eq_getElem hmi) hi hm
          have hle := normal_bounds h (List.getElem?_eq_getElem hmi)
          omega
        · have hat : j = base+si/2 ∨ base+si ≤ j := by omega
          rcases hat with rfl | hl
          · rw [List.getElem?_eq_getElem hmi] at hi
            cases hi
            exact hlt
          · exact ha j hl i hi
      · rw [decide_eq_true_eq,not_lt] at hlt
        refine ih (by omega) (by omega) (by omega) (.inr fun i hi => ?_) fun j hj => ha j (by omega)
        rw [List.getElem?_eq_getElem hmi] at hi
        cases hi
        exact hlt

lemma found_iff : found ivs n = true ↔ Covers ivs n := by
  by_cases hn : ivs = []
  · simp [hn,found,binarySearch,searchLoop,covers_nil]
  have hp := length_pos_iff.mpr hn
  obtain ⟨hl,hba,ha⟩ := searchLoop_spec h (n := n) le_rfl hp (by omega) (.inl rfl)
    fun j hj i hi => by simp [List.getElem?_eq_none (show ivs.length ≤ j by omega)] at hi
  rw [found,binarySearch]
  generalize searchLoop ivs n ivs.length 0 ivs.length = r at hl hba ha ⊢
  have hr := List.getElem?_eq_getElem hl
  have hle := normal_bounds h hr
  -- an interval in front of the candidate ends below its start, one behind it starts too late
  have ho : Covers ivs n ↔ ivs[r].1 ≤ n ∧ n ≤ ivs[r].2 := by
    refine ⟨?_,fun hin => ⟨_,getElem_mem hl,hin⟩⟩
    rintro ⟨i,hi,hin⟩
    obtain ⟨j,hj⟩ := mem_iff_getElem?.mp hi
    rcases lt_trichotomy j r with hb | rfl | hbe
    · have hg := normal_le h hj hr hb
      have hs := hba.resolve_left (by omega) _ hr
      omega
    · cases hr.symm.trans hj
      exact hin
    · have := ha j hbe i hj
      omega
  rw [ho,hr]
  dsimp only
  split
  · rename_i hc
    split at hc
    · simp only [true_iff]
      omega
    · cases hc
  · rename_i hc
    split at hc
    · cases hc
    · have hz := Except.error.inj hc
      split at hz
      · omega
      · simp only [Bool.false_eq_true,false_iff]
        omega
  · rename_i index hc
    split at hc
    · cases hc
    · have hind := Except.error.inj hc
      split at hind
      · obtain rfl : r = index := by omega
        rw [hr,Option.any_some,decide_eq_true_eq]
        omega
      · have hs := hba.resolve_left (by omega) _ hr
        omega
end
lemma lookup_iff (h : sources.Pairwise fun a b => a.1 < b.1) : sources.lookup u = some is ↔ (u,is) ∈ sources := by
  induction sources with
  | nil => simp
  | cons entry sources ih =>
    obtain ⟨hf,hr⟩ := pairwise_cons.mp h
    rw [lookup_cons,mem_cons]
    by_cases he : u = entry.1
    · have hn : (u,is) ∉ sources := fun hm => lt_irrefl _ (he ▸ hf _ hm)
      subst he
      simp only [beq_self_eq_true,hn,or_false,Option.some.injEq]
      constructor
      · rintro rfl
        rfl
      · exact fun hs => (congrArg Prod.snd hs).symm
    · rw [beq_eq_false_iff_ne.mpr he]
      simp only [ih hr]
      refine (or_iff_right fun hs => he ?_).symm
      rw [← hs]

structure Kept (sources : List (List Char × Intervals)) : Prop where
  sorted : sources.Pairwise fun a b => a.1 < b.1
  some : ∀ entry ∈ sources, entry.2 ≠ []
  normal : ∀ entry ∈ sources, Normal entry.2

lemma Kept.mem_gtidsIn (h : Kept sources) (hm : (u,is) ∈ sources) (n : ℕ) :
    (u,n) ∈ gtidsIn sources ↔ Covers is n := by
  refine ⟨?_,fun hc => ⟨(u,is),hm,rfl,hc⟩⟩
  rintro ⟨entry,he,rfl,hc⟩
  have hs := (lookup_iff h.sorted).mpr he
  rw [(lookup_iff h.sorted).mpr hm] at hs
  rwa [Option.some.inj hs]

lemma Kept.subset {sources' : List (List Char × Intervals)} (h : Kept sources) (h' : Kept sources')
    (hs : gtidsIn sources = gtidsIn sources') : ∀ entry ∈ sources, entry ∈ sources' := by
  rintro ⟨u,is⟩ he
  obtain ⟨i,hi⟩ := exists_mem_of_ne_nil _ (h.some _ he)
  have hf : (u,i.1) ∈ gtidsIn sources' := by
    rw [← hs]
    exact ⟨_,he,rfl,i,hi,le_rfl,((h.normal _ he).bounds i hi).1⟩
  obtain ⟨⟨u',js⟩,he',rfl,_⟩ := hf
  have hfo : is = js := (h.normal _ he).unique (h'.normal _ he') fun n => by
    rw [← h.mem_gtidsIn he,← h'.mem_gtidsIn he',hs]
  rwa [hfo]

lemma parse_kept {raw : String} {set : GtidSet} (h : parse raw = .ok set) :
    Kept set.sources ∧ gtidsIn set.sources = written raw := by
  rw [parse] at h
  cases he : parseEntries (splitOn ',' raw.toList) [] with
  | error => rw [he] at h; cases h
  | ok sources =>
    rw [he] at h
    cases h
    obtain ⟨hm,hme⟩ := parseEntries_ok he ⟨.nil,by simp,by simp⟩
    have ha : sources.filter (!·.2.isEmpty) = sources :=
      filter_eq_self.mpr fun entry hen => by simpa using hm.some entry hen
    refine ⟨⟨pairwise_map.mpr hm.sorted,?_,?_⟩,?_⟩
    · intro entry hen
      obtain ⟨old,ho,rfl⟩ := mem_map.mp hen
      exact coalesce_ne_nil (sortIntervals_ne_nil (hm.some old ho))
    · intro entry hen
      obtain ⟨old,ho,rfl⟩ := mem_map.mp hen
      have hb : ∀ i ∈ sortIntervals old.2, i.1 ≤ i.2 ∧ i.2 < 2^64 := fun i hi =>
        hm.bounds old ho i (mem_mergeSort.mp hi)
      exact ⟨coalesce_bounds hb,coalesce_apart (sorted_sortIntervals _) hb⟩
    · ext g
      rw [← ha,mem_gtidsIn_coalesced,hme]
      simp [written]

/-- What a text is parsed to is in normal form and has the transactions of the text; texts with the same
transactions are parsed alike. -/
theorem gtid_set_denotes : (∀ raw set, parse raw = .ok set → (∀ entry ∈ set.sources, Normal entry.2) ∧
      ∀ uuid seqno, set.contains uuid seqno = true ↔ (toAsciiLowercase uuid.toList,seqno) ∈ written raw) ∧
    ∀ raw raw' set set', parse raw = .ok set → parse raw' = .ok set' → (written raw = written raw' ↔ set = set') := by
  refine ⟨fun raw set hp => ?_,fun raw raw' set set' hp hp' => ?_⟩
  · obtain ⟨hk,hw⟩ := parse_kept hp
    refine ⟨hk.normal,fun uuid seqno => ?_⟩
    rw [contains,← hw]
    constructor
    · intro hc
      obtain ⟨is,his,hf⟩ := (Option.any_eq_true _ _).mp hc
      have hm := (lookup_iff hk.sorted).mp his
      exact (hk.mem_gtidsIn hm _).mpr ((found_iff (hk.normal _ hm)).mp hf)
    · rintro ⟨⟨u,is⟩,he,rfl,hco⟩
      rw [(lookup_iff hk.sorted).mpr he,Option.any_some]
      exact (found_iff (hk.normal _ he)).mpr hco
  · obtain ⟨hk,hw⟩ := parse_kept hp
    obtain ⟨hk',hw'⟩ := parse_kept hp'
    rw [← hw,← hw']
    refine ⟨fun hs => ?_,fun hs => by rw [hs]⟩
    have hn : ∀ {sources : List (List Char × Intervals)}, Kept sources → sources.Nodup :=
      fun h => h.sorted.imp fun {a b} hl (heq : a = b) => lt_irrefl b.1 (heq ▸ hl)
    have hpe := (List.perm_ext_iff_of_nodup (hn hk) (hn hk')).mpr fun entry =>
      ⟨hk.subset hk' hs entry,hk'.subset hk hs.symm entry⟩
    have heq := hpe.eq_of_pairwise (fun a b _ _ ha hb => absurd (ha.trans hb) (lt_irrefl _)) hk.sorted hk'.sorted
    cases set
    cases set'
    exact congrArg GtidSet.mk heq

theorem gtid_set_denotes_sample :
    parse "AB:4:1-3" = .ok ⟨[("ab".toList,[(1,4)])]⟩ ∧ ("ab".toList,2) ∈ written "AB:4:1-3" ∧
      written "AB:4:1-3" = written "ab:1-4" := by
  have he : parseEntries (splitOn ',' "AB:4:1-3".toList) [] = .ok [("ab".toList,[(4,4),(1,3)])] := by decide +kernel
  have he' : parseEntries (splitOn ',' "ab:1-4".toList) [] = .ok [("ab".toList,[(1,4)])] := by
    decide +kernel
  have hs : parse "AB:4:1-3" = .ok ⟨[("ab".toList,[(1,4)])]⟩ := by
    rw [parse,he]
    simp [Except.map,coalesced,sortIntervals,List.mergeSort,coalesce]
  have hs' : parse "ab:1-4" = .ok ⟨[("ab".toList,[(1,4)])]⟩ := by
    rw [parse,he']
    simp [Except.map,coalesced,sortIntervals,coalesce]
  exact ⟨hs,((gtid_set_denotes.1 _ _ hs).2 "AB" 2).mp (by decide +kernel),(gtid_set_denotes.2 _ _ _ _ hs hs').mpr rfl⟩
end GtidSet
end Rustcdc.Mysql
