import Rustcdc.Source.Mysql.Gtid

/-! What a GTID-set text stands for, and that merging one more GTID is the union. -/
namespace Rustcdc.Mysql
open List
section
variable {sep : Char}

lemma splitOn_ne_nil (sep : Char) (cs : List Char) : splitOn sep cs ≠ [] := by
  cases cs with
  | nil => simp [splitOn]
  | cons =>
    rw [splitOn]
    split
    · simp
    · split <;> simp

variable {part : List Char}

lemma splitOn_append (h : sep ∉ part) (rest : List Char) :
    splitOn sep (part++sep::rest) = part::splitOn sep rest := by
  induction part with
  | nil => simp [splitOn]
  | cons c part ih =>
    rw [mem_cons,not_or] at h
    rw [cons_append,splitOn,if_neg (Ne.symm h.1),ih h.2]

lemma splitOn_eq_single (h : sep ∉ part) : splitOn sep part = [part] := by
  induction part with
  | nil => rfl
  | cons c part ih =>
    rw [mem_cons,not_or] at h
    rw [splitOn,if_neg (Ne.symm h.1),ih h.2]

variable {parts : List (List Char)}

/-- Splitting is the inverse of joining texts without the separator. -/
theorem splitOn_joinWith (hp : parts ≠ []) (h : ∀ part ∈ parts, sep ∉ part) :
    splitOn sep (joinWith sep parts) = parts := by
  induction parts with
  | nil => exact absurd rfl hp
  | cons part parts ih =>
    cases parts with
    | nil => exact splitOn_eq_single (h part mem_cons_self)
    | cons ne parts =>
      have hj : joinWith sep (part::ne::parts) = part++sep::joinWith sep (ne::parts) := rfl
      rw [hj,splitOn_append (h part mem_cons_self),ih (by simp) fun o ho => h o (mem_cons_of_mem _ ho)]

lemma mem_joinWith {c : Char} (h : c ∈ joinWith sep parts) : c = sep ∨ ∃ part ∈ parts, c ∈ part := by
  induction parts with
  | nil => cases h
  | cons part parts ih =>
    cases parts with
    | nil => exact .inr ⟨part,mem_cons_self,h⟩
    | cons ne parts =>
      have hj : joinWith sep (part::ne::parts) = part++sep::joinWith sep (ne::parts) := rfl
      rw [hj] at h
      rcases mem_append.mp h with h | h
      · exact .inr ⟨part,mem_cons_self,h⟩
      · rcases mem_cons.mp h with rfl | h
        · exact .inl rfl
        · refine (ih h).imp_right fun ⟨o,ho,hm⟩ => ?_
          exact ⟨o,mem_cons_of_mem _ ho,hm⟩

lemma splitOn_parts {cs : List Char} (h : part ∈ splitOn sep cs) : sep ∉ part ∧ ∀ c ∈ part, c ∈ cs := by
  induction cs generalizing part with
  | nil =>
    rw [mem_singleton.mp h]
    simp
  | cons c cs ih =>
    rw [splitOn] at h
    split_ifs at h with hc
    · rcases mem_cons.mp h with rfl | h
      · simp
      · exact ⟨(ih h).1,fun c' hc' => mem_cons_of_mem _ ((ih h).2 c' hc')⟩
    · split at h
      · rename_i hn
        exact absurd hn (splitOn_ne_nil sep cs)
      · rename_i first rest hs
        rw [hs] at ih
        rcases mem_cons.mp h with rfl | h
        · obtain ⟨hse,hsu⟩ := ih mem_cons_self
          refine ⟨fun hm => ?_,fun c' hc' => ?_⟩
          · rcases mem_cons.mp hm with he | hm
            · exact hc he.symm
            · exact hse hm
          · rcases mem_cons.mp hc' with rfl | hc'
            · exact mem_cons_self
            · exact mem_cons_of_mem _ (hsu c' hc')
        · obtain ⟨hse,hsu⟩ := ih (mem_cons_of_mem _ h)
          exact ⟨hse,fun c' hc' => mem_cons_of_mem _ (hsu c' hc')⟩
end
section
/-- The numbers in a list of inclusive intervals. -/
def Covers (intervals : Intervals) (n : ℕ) : Prop := ∃ i ∈ intervals, i.1 ≤ n ∧ n ≤ i.2

def gtidsIn (parsed : List (List Char × Intervals)) : Set (List Char × ℕ) :=
  {g | ∃ entry ∈ parsed, entry.1 = g.1 ∧ Covers entry.2 g.2}

/-- The GTIDs a set's text stands for. -/
def gtids (set : String) : Set (List Char × ℕ) := gtidsIn (parseGtidSetIntervals set.toList)

instance (set : String) (g : List Char × ℕ) : Decidable (g ∈ gtids set) :=
  inferInstanceAs (Decidable (∃ entry ∈ parseGtidSetIntervals set.toList,
    entry.1 = g.1 ∧ ∃ i ∈ entry.2, i.1 ≤ g.2 ∧ g.2 ≤ i.2))

variable {is : Intervals} {parsed : List (List Char × Intervals)} {g : List Char × ℕ} {n : ℕ}

lemma covers_append {js : Intervals} : Covers (is++js) n ↔ Covers is n ∨ Covers js n := by
  simp [Covers,or_and_right,exists_or]
lemma covers_cons {i : ℕ × ℕ} : Covers (i::is) n ↔ i.1 ≤ n ∧ n ≤ i.2 ∨ Covers is n := by
  simp only [Covers,exists_mem_cons_iff]
lemma covers_nil : ¬ Covers [] n := by simp [Covers]
@[simp] lemma mem_gtidsIn_nil : g ∉ gtidsIn [] := by simp [gtidsIn]
lemma mem_gtidsIn_cons {entry : List Char × Intervals} :
    g ∈ gtidsIn (entry::parsed) ↔ entry.1 = g.1 ∧ Covers entry.2 g.2 ∨ g ∈ gtidsIn parsed := by
  simp [gtidsIn]

lemma mem_gtidsIn_extendEntry {uuid : List Char} {intervals : Intervals} :
    g ∈ gtidsIn (extendEntry uuid intervals parsed) ↔ g ∈ gtidsIn parsed ∨ uuid = g.1 ∧ Covers intervals g.2 := by
  induction parsed with
  | nil => simp [extendEntry,mem_gtidsIn_cons]
  | cons entry parsed ih =>
    obtain ⟨u,is⟩ := entry
    rw [extendEntry]
    split
    · rename_i he
      subst he
      rw [mem_gtidsIn_cons,mem_gtidsIn_cons,covers_append]
      tauto
    · split
      · rw [mem_gtidsIn_cons,mem_gtidsIn_cons]
        tauto
      · rw [mem_gtidsIn_cons,mem_gtidsIn_cons,ih]
        tauto

lemma mem_gtidsIn_extendAll {entries : List (List Char × Intervals)} :
    g ∈ gtidsIn (entries.foldl (fun parsed entry => extendEntry entry.1 entry.2 parsed) parsed) ↔
      g ∈ gtidsIn parsed ∨ g ∈ gtidsIn entries := by
  induction entries generalizing parsed with
  | nil => simp
  | cons entry entries ih =>
    rw [foldl_cons,ih,mem_gtidsIn_extendEntry,mem_gtidsIn_cons]
    tauto

lemma covers_sortIntervals : Covers (sortIntervals is) n ↔ Covers is n := by
  unfold Covers sortIntervals
  simp

/-- Intervals in the order of their starts. -/
def Sorted (is : Intervals) : Prop := is.Pairwise fun a b => a.1 ≤ b.1

lemma sorted_sortIntervals (is : Intervals) : Sorted (sortIntervals is) := by
  have hs := @List.pairwise_mergeSort _ (fun a b : ℕ × ℕ => decide (a.1 < b.1 ∨ a.1 = b.1 ∧ a.2 ≤ b.2))
    (by simp only [decide_eq_true_eq]; omega) (by simp only [Bool.or_eq_true,decide_eq_true_eq]; omega)
    is
  refine hs.imp fun {a b} h => ?_
  rw [decide_eq_true_eq] at h
  omega

lemma covers_coalesce (h : Sorted is) (n : ℕ) : Covers (coalesce is) n ↔ Covers is n := by
  induction hl : is.length using Nat.strong_induction_on generalizing is with
  | _ len ih =>
    match is, h, hl with
    | [], _, _ => rw [coalesce]
    | [i], _, _ => rw [coalesce]
    | (s,e)::(s',e')::is, h, hl =>
      have hl' : is.length+2 = len := hl
      obtain ⟨hf,hr⟩ := pairwise_cons.mp h
      obtain ⟨hse,ht⟩ := pairwise_cons.mp hr
      have hst : s ≤ s' := hf (s',e') mem_cons_self
      rw [coalesce]
      split_ifs with hn
      · have hs : Sorted ((s,max e e')::is) := pairwise_cons.mpr ⟨fun i hi => hf i (mem_cons_of_mem _ hi),ht⟩
        rw [ih (is.length+1) (by omega) hs rfl,covers_cons,covers_cons,covers_cons]
        have ho : s ≤ n ∧ n ≤ max e e' ↔ (s ≤ n ∧ n ≤ e) ∨ s' ≤ n ∧ n ≤ e' := by omega
        rw [ho,or_assoc]
      · rw [covers_cons,ih (is.length+1) (by omega) hr rfl,covers_cons (i := (s,e))]
end
section
def uuidSetIntervals (uuidSet : List Char) : Option (List Char × Intervals) :=
  match (splitOn ':' uuidSet).map trim with
  | [] | []::_ => none
  | uuid::parts => some (toAsciiLowercase uuid,(parts.filter (!·.isEmpty)).flatMap parseInterval)

/-- The parts of a set that parse. -/
def entriesOf (set : List Char) : List (List Char × Intervals) :=
  (splitOn ',' set).filterMap fun uuidSet => uuidSetIntervals (trim uuidSet)

lemma parseGtidSetIntervals_eq (set : List Char) : parseGtidSetIntervals set =
    (entriesOf set).foldl (fun parsed entry => extendEntry entry.1 entry.2 parsed) [] := by
  unfold parseGtidSetIntervals entriesOf
  generalize [] = parsed
  induction splitOn ',' set generalizing parsed with
  | nil => rfl
  | cons uuidSet r ih =>
    rw [map_cons,foldl_cons,ih,filterMap_cons]
    generalize List.filterMap _ r = entries
    unfold uuidSetIntervals
    generalize (splitOn ':' (trim uuidSet)).map trim = parts
    match parts with
    | [] => rfl
    | []::_ => rfl
    | (c::uuid)::parts => rfl

lemma gtids_eq (set : String) : gtids set = gtidsIn (entriesOf set.toList) := by
  ext g
  rw [gtids,parseGtidSetIntervals_eq,mem_gtidsIn_extendAll]
  simp

/-- An entry as parsing leaves it, which is one that can be written out again. -/
structure Writable (entry : List Char × Intervals) : Prop where
  uuid : entry.1 ≠ []
  trimmed : Trimmed entry.1
  lower : toAsciiLowercase entry.1 = entry.1
  comma : ',' ∉ entry.1
  colon : ':' ∉ entry.1
  bounds : ∀ i ∈ entry.2, i.1 ≤ i.2 ∧ i.2 < 2^64

variable {is : Intervals} {cs : List Char} {n : ℕ}

lemma parseDigits_lt {radix bound : ℕ} {r : ℕ} (hr : r < bound)
    (h : parseDigits radix bound r cs = .ok n) : n < bound := by
  induction cs generalizing r with
  | nil =>
    rw [parseDigits] at h
    rwa [← Except.ok.inj h]
  | cons c cs ih =>
    rw [parseDigits] at h
    split at h
    · cases h
    · split at h
      · cases h
      · exact ih (by omega) h

lemma parseU64_lt (h : parseU64 cs = some n) : n < 2^64 := by
  unfold parseU64 at h
  have ho : fromStrRadix 10 (2^64) cs = .ok n := by
    cases hp : fromStrRadix 10 (2^64) cs with
    | error =>
      rw [hp] at h
      exact absurd h (by simp [Except.toOption])
    | ok =>
      rw [hp] at h
      rw [Option.some.inj h]
  unfold fromStrRadix at ho
  split at ho
  · cases ho
  · cases ho
  · cases ho
  · exact parseDigits_lt (by norm_num) ho
  · exact parseDigits_lt (by norm_num) ho

lemma parseInterval_bounds {part : List Char} : ∀ i ∈ parseInterval part, i.1 ≤ i.2 ∧ i.2 < 2^64 := by
  unfold parseInterval
  split
  · split
    · rename_i start stop hs hst
      intro i hi
      rw [mem_singleton.mp hi]
      have hl := parseU64_lt hs
      have hl' := parseU64_lt hst
      exact ⟨le_max_right _ _,max_lt hl' hl⟩
    · simp
  · split
    · rename_i value hv
      intro i hi
      rw [mem_singleton.mp hi]
      exact ⟨le_rfl,parseU64_lt hv⟩
    · simp

lemma toLower_cases (c : Char) : (65 ≤ c.toNat ∧ c.toNat ≤ 90 ∧ c.toLower.toNat = c.toNat+32) ∨
    (¬ (65 ≤ c.toNat ∧ c.toNat ≤ 90) ∧ c.toLower = c) := by
  unfold Char.toLower
  split_ifs with hu
  · have hl : 65 ≤ c.toNat := hu.1
    have hh : c.toNat ≤ 90 := hu.2
    refine .inl ⟨hl,hh,?_⟩
    change (c.val+32).toNat = c.toNat+32
    rw [UInt32.toNat_add]
    change (c.toNat+32)%2^32 = c.toNat+32
    omega
  · exact .inr ⟨hu,rfl⟩

lemma toLower_toLower (c : Char) : c.toLower.toLower = c.toLower := by
  rcases toLower_cases c with ⟨hlo,hh,hl⟩ | ⟨_,hs⟩
  · rcases toLower_cases c.toLower with ⟨hlo',hh',_⟩ | ⟨_,hs⟩
    · omega
    · exact hs
  · rw [hs,hs]

lemma toLower_ne {c sep : Char} (hse : sep.toNat < 65) (h : c ≠ sep) : c.toLower ≠ sep := by
  rcases toLower_cases c with ⟨hlo,hh,hl⟩ | ⟨_,hs⟩
  · intro he
    rw [he] at hl
    omega
  · rwa [hs]

lemma isWhitespace_toLower {c : Char} (h : isWhitespace c = false) : isWhitespace c.toLower = false := by
  rcases toLower_cases c with ⟨hlo,hh,hl⟩ | ⟨_,hs⟩
  · simp only [isWhitespace,Bool.or_eq_false_iff,Bool.and_eq_false_iff,decide_eq_false_iff_not]
    omega
  · rwa [hs]

lemma uuidSetIntervals_writable {uuidSet : List Char} (hco : ',' ∉ uuidSet)
    {entry : List Char × Intervals} (h : uuidSetIntervals uuidSet = some entry) :
    Writable entry := by
  unfold uuidSetIntervals at h
  split at h
  · cases h
  · cases h
  · rename_i uuid parts hne hpa
    obtain ⟨part,hpar,rfl⟩ : ∃ part ∈ splitOn ':' uuidSet, trim part = uuid := by
      rw [← mem_map,hpa]
      exact mem_cons_self
    obtain ⟨hcol,hsu⟩ := splitOn_parts hpar
    obtain ⟨hf,hl⟩ := trimmed_trim part
    rw [← Option.some.inj h]
    have hp : ∀ sep : Char, sep.toNat < 65 → sep ∉ part → sep ∉ toAsciiLowercase (trim part) := by
      intro sep hlo hse hm
      obtain ⟨c,hc,he⟩ := mem_map.mp hm
      exact toLower_ne hlo (fun hs => hse (hs ▸ mem_trim hc)) he
    refine ⟨?_,⟨?_,?_⟩,?_,?_,?_,?_⟩
    · exact fun hn => hne (map_eq_nil_iff.mp hn)
    · intro c hc
      rw [toAsciiLowercase,List.head?_map] at hc
      obtain ⟨c',hc',rfl⟩ := Option.map_eq_some_iff.mp hc
      exact isWhitespace_toLower (hf c' hc')
    · intro c hc
      rw [toAsciiLowercase,List.getLast?_map] at hc
      obtain ⟨c',hc',rfl⟩ := Option.map_eq_some_iff.mp hc
      exact isWhitespace_toLower (hl c' hc')
    · simp only [toAsciiLowercase,map_map]
      exact map_congr_left fun c _ => toLower_toLower c
    · exact hp ',' (by decide) fun hm => hco (hsu _ hm)
    · exact hp ':' (by decide) hcol
    · intro i hi
      obtain ⟨part',_,hi⟩ := mem_flatMap.mp hi
      exact parseInterval_bounds i hi

lemma entriesOf_writable {set : List Char} : ∀ entry ∈ entriesOf set, Writable entry := by
  intro entry he
  obtain ⟨uuidSet,hu,hp⟩ := mem_filterMap.mp he
  exact uuidSetIntervals_writable (fun hm => (splitOn_parts hu).1 (mem_trim hm)) hp

variable {parsed : List (List Char × Intervals)}

lemma extendEntry_writable {uuid : List Char} {intervals : Intervals}
    (h : ∀ entry ∈ parsed, Writable entry) (he : Writable (uuid,intervals)) :
    ∀ entry ∈ extendEntry uuid intervals parsed, Writable entry := by
  induction parsed with
  | nil => simpa [extendEntry] using he
  | cons f parsed ih =>
    obtain ⟨u,is⟩ := f
    obtain ⟨hf,hr⟩ := forall_mem_cons.mp h
    rw [extendEntry]
    split
    · refine forall_mem_cons.mpr ⟨?_,hr⟩
      refine ⟨hf.uuid,hf.trimmed,hf.lower,hf.comma,hf.colon,fun i hi => ?_⟩
      rcases mem_append.mp hi with hi | hi
      · exact hf.bounds i hi
      · exact he.bounds i hi
    · split
      · exact forall_mem_cons.mpr ⟨he,h⟩
      · exact forall_mem_cons.mpr ⟨hf,ih hr⟩

lemma extendAll_writable {es : List (List Char × Intervals)}
    (h : ∀ entry ∈ parsed, Writable entry) (he : ∀ entry ∈ es, Writable entry) :
    ∀ entry ∈ es.foldl (fun parsed entry => extendEntry entry.1 entry.2 parsed) parsed, Writable entry := by
  induction es generalizing parsed with
  | nil => exact h
  | cons entry es ih =>
    obtain ⟨hf,hr⟩ := forall_mem_cons.mp he
    exact ih (extendEntry_writable h hf) hr

lemma parseGtidSetIntervals_writable (set : List Char) : ∀ entry ∈ parseGtidSetIntervals set, Writable entry := by
  rw [parseGtidSetIntervals_eq]
  exact extendAll_writable (by simp) entriesOf_writable

lemma formatNat_plain : ∀ c ∈ formatNat 10 n, c ≠ ',' ∧ c ≠ ':' ∧ c ≠ '-' ∧ isWhitespace c = false := by
  intro c hc
  rcases mem_digitsInto (by norm_num) hc with hn | ⟨d,hd,rfl⟩
  · cases hn
  · interval_cases d <;> decide

lemma formatNat_ne_nil (n : ℕ) : formatNat 10 n ≠ [] := digitsInto_ne_nil 19 n []

lemma parseU64_formatNat (h : n < 2^64) : parseU64 (formatNat 10 n) = some n := by
  unfold parseU64
  rw [fromStrRadix_format (by norm_num) (by omega) h]
  rfl

lemma renderInterval_plain {i : ℕ × ℕ} : ∀ c ∈ renderInterval i, c ≠ ',' ∧ c ≠ ':' ∧ isWhitespace c = false := by
  intro c hc
  unfold renderInterval at hc
  split at hc
  · obtain ⟨hco,hcol,_,hs⟩ := formatNat_plain c hc
    exact ⟨hco,hcol,hs⟩
  · rcases mem_append.mp hc with hc | hc
    · obtain ⟨hco,hcol,_,hs⟩ := formatNat_plain c hc
      exact ⟨hco,hcol,hs⟩
    · rcases mem_cons.mp hc with rfl | hc
      · decide
      · obtain ⟨hco,hcol,_,hs⟩ := formatNat_plain c hc
        exact ⟨hco,hcol,hs⟩

lemma renderInterval_ne_nil (i : ℕ × ℕ) : renderInterval i ≠ [] := by
  unfold renderInterval
  split
  · exact formatNat_ne_nil _
  · simp

lemma parseInterval_render {i : ℕ × ℕ} (h : i.1 ≤ i.2 ∧ i.2 < 2^64) : parseInterval (renderInterval i) = [i] := by
  obtain ⟨s,e⟩ := i
  obtain ⟨hl,hlt⟩ := h
  have hd : ∀ n, '-' ∉ formatNat 10 n := fun n hm => (formatNat_plain '-' hm).2.2.1 rfl
  have ht : ∀ n, trim (formatNat 10 n) = formatNat 10 n := fun n =>
    (trimmed_of_forall fun c hc => (formatNat_plain c hc).2.2.2).trim
  unfold renderInterval parseInterval
  by_cases he : s = e
  · rw [if_pos he,splitOnce_none (hd s)]
    rw [parseU64_formatNat (by omega),he]
  · rw [if_neg he,splitOnce_append (hd s)]
    dsimp only
    rw [ht,ht,parseU64_formatNat (by omega),parseU64_formatNat hlt]
    dsimp only
    rw [max_eq_left hl]

/-- One uuid's part of the text. -/
def renderEntry (entry : List Char × Intervals) : List Char :=
  entry.1++ ':'::joinWith ':' ((coalesce (sortIntervals entry.2)).map renderInterval)

lemma coalesce_ne_nil (h : is ≠ []) : coalesce is ≠ [] := by
  induction hl : is.length using Nat.strong_induction_on generalizing is with
  | _ len ih =>
    match is, h, hl with
    | [i], _, _ => simp [coalesce]
    | (s,e)::(s',e')::is, _, hl =>
      have hl' : is.length+2 = len := hl
      rw [coalesce]
      split
      · exact ih (is.length+1) (by omega) (by simp) rfl
      · simp

lemma sortIntervals_ne_nil (h : is ≠ []) : sortIntervals is ≠ [] := fun hn =>
  h (eq_nil_of_length_eq_zero (by rw [← length_mergeSort is]; exact congrArg _ hn))

lemma coalesce_bounds (h : ∀ i ∈ is, i.1 ≤ i.2 ∧ i.2 < 2^64) : ∀ i ∈ coalesce is, i.1 ≤ i.2 ∧ i.2 < 2^64 := by
  induction hl : is.length using Nat.strong_induction_on generalizing is with
  | _ len ih =>
    match is, h, hl with
    | [], _, _ => simp [coalesce]
    | [i], h, _ => simpa [coalesce] using h
    | (s,e)::(s',e')::is, h, hl =>
      have hl' : is.length+2 = len := hl
      obtain ⟨hf,hr⟩ := forall_mem_cons.mp h
      obtain ⟨hs,ht⟩ := forall_mem_cons.mp hr
      rw [coalesce]
      split
      · refine ih (is.length+1) (by omega) (forall_mem_cons.mpr ⟨?_,ht⟩) rfl
        omega
      · exact forall_mem_cons.mpr ⟨hf,ih (is.length+1) (by omega) hr rfl⟩
section
variable {entry : List Char × Intervals} (h : Writable entry)
include h

lemma coalesced_bounds : ∀ i ∈ coalesce (sortIntervals entry.2), i.1 ≤ i.2 ∧ i.2 < 2^64 :=
  coalesce_bounds fun i hi => h.bounds i (mem_mergeSort.mp hi)

omit h in
lemma renderEntry_rest : ∀ c ∈ ':'::joinWith ':' ((coalesce (sortIntervals entry.2)).map
    renderInterval), c ≠ ',' ∧ isWhitespace c = false := by
  intro c hc
  have hco : (':' : Char) ≠ ',' ∧ isWhitespace ':' = false := by decide
  rcases mem_cons.mp hc with rfl | hc
  · exact hco
  · rcases mem_joinWith hc with rfl | ⟨part,hp,hc⟩
    · exact hco
    · obtain ⟨i,_,rfl⟩ := mem_map.mp hp
      exact ⟨(renderInterval_plain c hc).1,(renderInterval_plain c hc).2.2⟩

lemma renderEntry_comma : ',' ∉ renderEntry entry := by
  intro hm
  rcases mem_append.mp hm with hm | hm
  · exact h.comma hm
  · exact (renderEntry_rest ',' hm).1 rfl

lemma renderEntry_trimmed : Trimmed (renderEntry entry) := by
  rw [renderEntry]
  exact h.trimmed.append (trimmed_of_forall fun c hc => (renderEntry_rest c hc).2) h.uuid (by simp)

lemma uuidSetIntervals_render (hso : entry.2 ≠ []) : uuidSetIntervals (trim (renderEntry entry)) =
      some (entry.1,coalesce (sortIntervals entry.2)) := by
  have hn := coalesce_ne_nil (sortIntervals_ne_nil hso)
  have hs : splitOn ':' (renderEntry entry) = entry.1::(coalesce (sortIntervals entry.2)).map renderInterval := by
    rw [renderEntry,splitOn_append h.colon,splitOn_joinWith (by simpa using hn)]
    intro part hpa hm
    obtain ⟨i,_,rfl⟩ := mem_map.mp hpa
    exact (renderInterval_plain ':' hm).2.1 rfl
  have ht : ∀ part ∈ (coalesce (sortIntervals entry.2)).map renderInterval, trim part = part := by
    intro part hpa
    obtain ⟨i,_,rfl⟩ := mem_map.mp hpa
    exact (trimmed_of_forall fun c hc => (renderInterval_plain c hc).2.2).trim
  have hp : (splitOn ':' (renderEntry entry)).map trim =
      entry.1::(coalesce (sortIntervals entry.2)).map renderInterval := by
    rw [hs,map_cons,h.trimmed.trim,map_congr_left ht,map_id']
  have ha : ((coalesce (sortIntervals entry.2)).map renderInterval).filter (!·.isEmpty) =
      (coalesce (sortIntervals entry.2)).map renderInterval := by
    refine filter_eq_self.mpr fun part hpa => ?_
    obtain ⟨i,_,rfl⟩ := mem_map.mp hpa
    simpa using renderInterval_ne_nil i
  have hb : ((coalesce (sortIntervals entry.2)).map renderInterval).flatMap parseInterval =
      coalesce (sortIntervals entry.2) := by
    rw [flatMap_map]
    have ho := coalesced_bounds h
    generalize coalesce (sortIntervals entry.2) = is at ho
    induction is with
    | nil => rfl
    | cons i is ih =>
      obtain ⟨hi,his⟩ := forall_mem_cons.mp ho
      rw [flatMap_cons,parseInterval_render hi,ih his]
      rfl
  unfold uuidSetIntervals
  rw [(renderEntry_trimmed h).trim,hp]
  have hu := h.uuid
  split
  · exact absurd ‹_› (by simp)
  · rename_i he
    exact absurd (List.cons.inj he).1 hu
  · rename_i uuid parts _ he
    obtain ⟨rfl,rfl⟩ := List.cons.inj he
    rw [h.lower,ha,hb]
end
def coalesced (entry : List Char × Intervals) : List Char × Intervals := (entry.1,coalesce (sortIntervals entry.2))

lemma mem_gtidsIn_coalesced {g : List Char × ℕ} :
    g ∈ gtidsIn ((parsed.filter (!·.2.isEmpty)).map coalesced) ↔ g ∈ gtidsIn parsed := by
  induction parsed with
  | nil => rfl
  | cons entry parsed ih =>
    rw [List.filter_cons]
    split_ifs with he
    · rw [List.map_cons,mem_gtidsIn_cons,mem_gtidsIn_cons,ih,coalesced]
      rw [covers_coalesce (sorted_sortIntervals _),covers_sortIntervals]
    · rw [Bool.not_eq_true',Bool.not_eq_false,List.isEmpty_iff] at he
      rw [mem_gtidsIn_cons,he,ih]
      simp [covers_nil]

/-- Writing a set out and reading it back coalesces its entries. -/
theorem entriesOf_render (h : ∀ entry ∈ parsed, Writable entry) :
    entriesOf (renderGtidSet parsed) = (parsed.filter (!·.2.isEmpty)).map coalesced := by
  have hs : ∀ entry ∈ parsed.filter (!·.2.isEmpty), Writable entry ∧ entry.2 ≠ [] := by
    intro entry he
    obtain ⟨hm,hso⟩ := mem_filter.mp he
    exact ⟨h entry hm,by simpa using hso⟩
  have ht : renderGtidSet parsed = joinWith ',' ((parsed.filter (!·.2.isEmpty)).map renderEntry) := rfl
  rw [ht]
  generalize parsed.filter (!·.2.isEmpty) = shown at hs
  by_cases hn : shown = []
  · rw [hn]
    rfl
  · unfold entriesOf
    rw [splitOn_joinWith (by simpa using hn) fun part hp => ?_]
    · clear hn ht
      induction shown with
      | nil => rfl
      | cons entry shown ih =>
        obtain ⟨hf,hr⟩ := forall_mem_cons.mp hs
        rw [map_cons,filterMap_cons,uuidSetIntervals_render hf.1 hf.2,ih hr]
        rfl
    · obtain ⟨entry,he,rfl⟩ := mem_map.mp hp
      exact renderEntry_comma (hs entry he).1

lemma gtids_render (h : ∀ entry ∈ parsed, Writable entry) :
    gtids (String.ofList (renderGtidSet parsed)) = gtidsIn parsed := by
  ext g
  rw [gtids_eq,String.toList_ofList,entriesOf_render h,mem_gtidsIn_coalesced]

lemma gtids_mergeGtidIntoSet (set gtid : String) : gtids (mergeGtidIntoSet set gtid) = gtids set ∪ gtids gtid := by
  unfold mergeGtidIntoSet
  rw [gtids_render]
  · ext g
    rw [mem_gtidsIn_extendAll]
    rfl
  · exact extendAll_writable (parseGtidSetIntervals_writable _) (parseGtidSetIntervals_writable _)

/-- Merged one after the other, texts leave a set of exactly their transactions. -/
theorem gtids_merged (set : String) (gs : List String) :
    gtids (gs.foldl mergeGtidIntoSet set) = gtids set ∪ ⋃ g ∈ gs, gtids g := by
  induction gs generalizing set with
  | nil => simp
  | cons g gs ih => simp [ih,gtids_mergeGtidIntoSet,Set.union_assoc]
end
end Rustcdc.Mysql
