import Rustcdc.Source.Mysql.Provider

/-! Which table a logged DDL statement is taken to name: a name qualified by its database is read back
as it was written. -/
namespace Rustcdc.Mysql
open List Ddl
section
/-- How a part of a name is written. -/
inductive Quoting
  | plain | backticked
  deriving DecidableEq

/-- A back quote within back quotes is doubled. -/
def escaped (name : List Char) : List Char := name.flatMap fun c => if c = backtick then [c,c] else [c]
lemma escaped_backtick (name : List Char) : escaped (backtick::name) = backtick::backtick::escaped name := rfl

variable {c : Char}

lemma escaped_other (hc : c ≠ backtick) (name : List Char) : escaped (c::name) = c::escaped name := by
  simp [escaped,hc]
lemma closing_backtick : closing backtick = backtick := by decide
def Quoting.write : Quoting → List Char → List Char
  | .plain, name => name
  | .backticked, name => backtick::(escaped name++[backtick])

/-- A name that can be written so, in ASCII. -/
structure WritableName (quoting : Quoting) (name : List Char) : Prop where
  nonempty : name ≠ []
  ascii : ∀ c ∈ name, c.toNat < 128
  chars : ∀ c ∈ name, (if quoting = .plain then isPlainChar c else !isControl c) = true

/-- A character of a plain name is no quote, separator or white space, and no capital is one. -/
theorem plainChar_facts (ha : c.toNat < 128) (h : isPlainChar c = true) :
    (c ≠ '"' ∧ c ≠ backtick ∧ c ≠ '[' ∧ c ≠ '.') ∧ (c ≠ '(' ∧ c ≠ ',' ∧ c ≠ ';') ∧
      isWhitespace c = false ∧ c.toUpper ≠ ' ' := by
  have hal : ∀ n < 128, isPlainChar (Char.ofNat n) = true →
      (Char.ofNat n ≠ '"' ∧ Char.ofNat n ≠ backtick ∧ Char.ofNat n ≠ '[' ∧ Char.ofNat n ≠ '.') ∧
        (Char.ofNat n ≠ '(' ∧ Char.ofNat n ≠ ',' ∧ Char.ofNat n ≠ ';') ∧
          isWhitespace (Char.ofNat n) = false ∧ (Char.ofNat n).toUpper ≠ ' ' := by
    decide +kernel
  have hc := hal c.toNat ha
  rw [Char.ofNat_toNat] at hc
  exact hc h

variable {quoting : Quoting} {name : List Char}

lemma WritableName.plainChar (hw : WritableName .plain name) (hc : c ∈ name) : isPlainChar c = true := by
  simpa using hw.chars c hc
section
variable (hw : WritableName quoting name)
include hw

lemma WritableName.write_ne_nil : quoting.write name ≠ [] := by
  cases quoting with
  | plain => exact hw.nonempty
  | backticked => simp [Quoting.write]

lemma WritableName.ends : ∀ c, c ∈ (quoting.write name).head? ∨ c ∈ (quoting.write name).getLast? →
      isWhitespace c = false ∧ c ≠ '"' ∧ c ≠ ';' ∧ c ≠ ',' := by
  intro c hc
  cases quoting with
  | plain =>
    have hm : c ∈ name := hc.elim mem_of_head? mem_of_getLast?
    obtain ⟨hq,hse,hs,-⟩ := plainChar_facts (hw.ascii c hm) (hw.plainChar hm)
    exact ⟨hs,hq.1,hse.2.2,hse.2.1⟩
  | backticked =>
    have hb : c = backtick := by
      rcases hc with hhead | hl
      · simpa [Quoting.write] using hhead.symm
      · rw [Quoting.write,← cons_append,List.getLast?_append_of_ne_nil _ (by simp)] at hl
        simpa using hl.symm
    rw [hb]
    decide

lemma WritableName.trimmed : Trimmed (quoting.write name) :=
  ⟨fun c hc => (hw.ends c (Or.inl hc)).1,fun c hc => (hw.ends c (Or.inr hc)).1⟩
end
end
section
variable {name rest : List Char} {quoting : Quoting}

lemma scanParts_end (current : List Char) (parts : List (List Char)) :
    scanParts none current parts [] = lastPart current parts := by
  rw [scanParts]

lemma scanParts_plain (hw : ∀ c ∈ name, c.toNat < 128 ∧ isPlainChar c = true) (current : List Char)
    (ps : List (List Char)) (rest : List Char) :
    scanParts none current ps (name++rest) = scanParts none (current++name) ps rest := by
  induction name generalizing current with
  | nil => simp
  | cons c name ih =>
    obtain ⟨⟨hq,hba,hb,hdo⟩,⟨hp,hc,hse⟩,hs,-⟩ := plainChar_facts (hw c mem_cons_self).1 (hw c mem_cons_self).2
    rw [cons_append,scanParts,if_neg (by simp [hq,hba,hb]),if_neg hdo,
      if_neg (by simp [hp,hc,hse]),if_neg (by simp [hs]),
      ih (fun d hd => hw d (mem_cons_of_mem _ hd))]
    simp

lemma scanParts_within {c : Char} (hc : c ≠ backtick) (current : List Char)
    (ps : List (List Char)) (cs : List Char) :
    scanParts (some backtick) current ps (c::cs) = scanParts (some backtick) (current++[c]) ps cs := by
  rw [scanParts.eq_def]
  simp [closing_backtick,hc]

lemma scanParts_quoted (name current : List Char) (ps : List (List Char)) (hr : rest.head? ≠ some backtick) :
    scanParts (some backtick) current ps (escaped name++backtick::rest) =
      scanParts none (current++escaped name++[backtick]) ps rest := by
  induction name generalizing current with
  | nil =>
    cases rest with
    | nil => simp [escaped,scanParts,closing_backtick]
    | cons d =>
      have hd : d ≠ backtick := fun h => hr (by rw [h]; rfl)
      simp [escaped,scanParts,closing_backtick,hd]
  | cons c name ih =>
    by_cases hc : c = backtick
    · rw [hc,escaped_backtick,cons_append,cons_append,scanParts,closing_backtick,if_pos rfl]
      rw [if_pos rfl,ih]
      simp
    · rw [escaped_other hc,cons_append,scanParts_within hc,ih]
      simp

lemma scanParts_write (hw : WritableName quoting name) (ps : List (List Char)) (hr : rest.head? ≠ some backtick) :
    scanParts none [] ps (quoting.write name++rest) = scanParts none (quoting.write name) ps rest := by
  cases quoting with
  | plain =>
    exact scanParts_plain (fun c hc => ⟨hw.ascii c hc,hw.plainChar hc⟩) [] ps rest
  | backticked =>
    rw [Quoting.write,cons_append,scanParts,if_pos (Or.inr (Or.inl rfl)),append_assoc,
      singleton_append,scanParts_quoted name _ ps hr]
    rfl

lemma replaceDoubled_escaped (name : List Char) : replaceDoubled backtick (escaped name) = name := by
  induction name with
  | nil => rfl
  | cons c name ih =>
    by_cases hc : c = backtick
    · rw [hc,escaped_backtick,replaceDoubled,if_pos ⟨rfl,rfl⟩,ih]
    · rw [escaped_other hc]
      cases hr : escaped name with
      | nil =>
        rw [hr,replaceDoubled] at ih
        · rw [← ih,replaceDoubled]
          simp
        · simp
      | cons =>
        rw [replaceDoubled,if_neg fun h => hc h.1,← hr,ih]

/-- What ends the name: semicolons, then nothing or white space before anything else. -/
def NameEnds (tail : List Char) : Prop :=
  (∀ c ∈ tail, c.toNat < 128) ∧ ∃ semis rest, tail = semis++rest ∧ (∀ c ∈ semis, c = ';') ∧
    ∀ c ∈ rest.head?, isWhitespace c = true

variable {semis current : List Char}
section
variable (hs : ∀ c ∈ semis, c = ';')
include hs

lemma semis_trimmed (hc : Trimmed current) (hn : current ≠ []) : Trimmed (current++semis) := by
  cases semis with
  | nil => simpa using hc
  | cons =>
    refine hc.append (trimmed_of_forall fun d hd => ?_) hn (by simp)
    rw [hs d hd]
    decide

lemma scanParts_semis (hc : Trimmed current) (hne : current ≠ []) (ps : List (List Char)) (rest : List Char) :
    scanParts none current ps (semis++rest) = scanParts none (current++semis) ps rest := by
  induction semis generalizing current with
  | nil => simp
  | cons c semis ih =>
    have hso : (trim current).isEmpty = false := by
      rw [hc.trim]
      simpa using hne
    have hn : Trimmed (current++[';']) := semis_trimmed (fun _ hd => mem_singleton.mp hd) hc hne
    rw [hs c mem_cons_self,cons_append,scanParts,if_neg (by decide),if_neg (by decide),
      if_neg (by simp [hso]),if_neg (by decide),
      ih (fun d hd => hs d (mem_cons_of_mem _ hd)) hn (by simp)]
    simp

/-- The name ends at the tail; semicolons stay with its last part. -/
theorem scanParts_tail (hr : ∀ c ∈ rest.head?, isWhitespace c = true) (hc : Trimmed current)
    (hne : current ≠ []) (ps : List (List Char)) :
    scanParts none current ps (semis++rest) = ps++[current++semis] := by
  have hl : lastPart (current++semis) ps = ps++[current++semis] := by
    rw [lastPart,(semis_trimmed hs hc hne).trim,if_neg (by simp [hne])]
  rw [scanParts_semis hs hc hne]
  cases rest with
  | nil => rw [scanParts_end,hl]
  | cons c =>
    have hsp : isWhitespace c = true := hr c rfl
    have hn : ∀ d : Char, isWhitespace d = false → c ≠ d := by
      rintro d hd rfl
      rw [hsp] at hd
      cases hd
    have hso : (trim (current++semis)).isEmpty = false := by
      rw [(semis_trimmed hs hc hne).trim]
      simp [hne]
    rw [scanParts,if_neg,if_neg (hn '.' (by decide)),if_neg (by simp [hso]),if_pos hsp,hl]
    rintro (hq | hba | hb)
    · exact hn '"' (by decide) hq
    · exact hn backtick (by decide) hba
    · exact hn '[' (by decide) hb
end
variable {p : Char → Bool} {xs ys : List Char}

lemma rdropWhile_append (hl : ∀ c ∈ xs.getLast?, p c = false) : (xs++ys).rdropWhile p = xs++ys.rdropWhile p := by
  have hhead : xs.reverse.dropWhile p = xs.reverse := dropWhile_eq_self (by simpa using hl)
  rw [List.rdropWhile,List.rdropWhile,reverse_append,dropWhile_append]
  split_ifs with he
  · rw [hhead,isEmpty_iff.mp he]
    simp
  · simp

def Spaces (gap : List Char) : Prop := ∀ c ∈ gap, isWhitespace c = true

instance (gap : List Char) : Decidable (Spaces gap) := List.decidableBAll _ gap

lemma trimStart_spaces {gap : List Char} (hg : Spaces gap)
    (hx : ∀ c ∈ xs.head?, isWhitespace c = false) : trimStart (gap++xs) = xs := by
  rw [trimStart,dropWhile_append_of_pos hg]
  exact dropWhile_eq_self hx

lemma trim_front {lead fr : List Char} (hl : Spaces lead) (hf : Trimmed fr) (hn : fr ≠ []) (tail : List Char) :
    trim (lead++(fr++tail)) = fr++tail.rdropWhile isWhitespace := by
  have hs : (lead++(fr++tail)).dropWhile isWhitespace = fr++tail := by
    refine trimStart_spaces hl fun c hc => hf.first c ?_
    rwa [List.head?_append_of_ne_nil _ hn] at hc
  show ((lead++(fr++tail)).dropWhile isWhitespace).rdropWhile isWhitespace = _
  rw [hs,rdropWhile_append hf.last]

lemma NameEnds.rdropWhile {tail : List Char} (ht : NameEnds tail) : NameEnds (tail.rdropWhile isWhitespace) := by
  obtain ⟨ha,semis,rest,rfl,hs,hr⟩ := ht
  obtain ⟨dropped,hd⟩ := rdropWhile_prefix isWhitespace (l := rest)
  have hse : ∀ c ∈ semis.getLast?, isWhitespace c = false := by
    intro c hc
    rw [hs c (mem_of_getLast? hc)]
    decide
  rw [rdropWhile_append hse]
  refine ⟨fun c hc => ha c ?_,semis,_,rfl,hs,fun c hc => hr c ?_⟩
  · rw [← hd]
    rcases mem_append.mp hc with hc | hc
    · exact mem_append_left _ hc
    · exact mem_append_right _ (mem_append_left _ hc)
  · rw [← hd,List.head?_append,Option.mem_def.mp hc]
    rfl

/-- A written name, whatever semicolons follow, is normalized to the name without capitals. -/
theorem normalizeIdentifier_write (hw : WritableName quoting name) (hs : ∀ c ∈ semis, c = ';') :
    normalizeIdentifier (quoting.write name++semis) = toAsciiLowercase name := by
  have he := hw.ends
  have hst : trimEndMatches (fun c => c = ';' || c = ',') (trim (quoting.write name++semis)) =
      quoting.write name := by
    rw [(semis_trimmed hs hw.trimmed hw.write_ne_nil).trim,trimEndMatches,rdropWhile_append,rdropWhile_eq_nil_iff.mpr,append_nil]
    · intro c hc
      simp [hs c hc]
    · intro c hc
      simp [(he c (Or.inr hc)).2.2.1,(he c (Or.inr hc)).2.2.2]
  rw [normalizeIdentifier,hst]
  cases quoting with
  | plain =>
    have hf : ∀ q : Char, isPlainChar q = false → name.head? ≠ some q := by
      intro q hq hhead
      rw [hw.plainChar (mem_of_head? hhead)] at hq
      cases hq
    have hqu : between '"' '"' name = none := if_neg fun h => hf '"' (by decide) h.1
    have hba : between backtick backtick name = none := if_neg fun h => hf backtick (by decide) h.1
    have hb : between '[' ']' name = none := if_neg fun h => hf '[' (by decide) h.1
    simp only [Quoting.write,hqu,hba,hb]
  | backticked =>
    have hqu : between '"' '"' (Quoting.backticked.write name) = none :=
      if_neg fun h => absurd (Option.some.inj h.1) (by decide)
    have hl : (Quoting.backticked.write name).getLast? = some backtick := by
      rw [Quoting.write,← cons_append,List.getLast?_append_of_ne_nil _ (by simp)]
      rfl
    have hba : between backtick backtick (Quoting.backticked.write name) = some (escaped name) := by
      rw [between,if_pos ⟨rfl,hl,by simp [Quoting.write]⟩]
      simp [Quoting.write]
    simp only [hqu,hba]
    rw [replaceDoubled_escaped]
end
/-- A table's name qualified by its database, with how each part is written. -/
structure QualifiedName where
  schemaQuoting : Quoting
  tableQuoting : Quoting
  schema : List Char
  table : List Char
  schemaWritable : WritableName schemaQuoting schema
  tableWritable : WritableName tableQuoting table

namespace QualifiedName
def text (name : QualifiedName) : List Char :=
  name.schemaQuoting.write name.schema++ '.'::name.tableQuoting.write name.table

variable (name : QualifiedName) {tail : List Char}

lemma text_ne_nil : name.text ≠ [] := by simp [text]
lemma text_last : name.text.getLast? = (name.tableQuoting.write name.table).getLast? := by
  rw [text,← singleton_append,← append_assoc,List.getLast?_append_of_ne_nil _ name.tableWritable.write_ne_nil]

lemma text_trimmed : Trimmed name.text := by
  refine ⟨fun c hc => ?_,fun c hc => ?_⟩
  · rw [text,List.head?_append_of_ne_nil _ name.schemaWritable.write_ne_nil] at hc
    exact name.schemaWritable.trimmed.first c hc
  · rw [text_last] at hc
    exact name.tableWritable.trimmed.last c hc

lemma text_first : ∀ c ∈ (name.text++tail).head?, isWhitespace c = false := by
  intro c hc
  rw [List.head?_append_of_ne_nil _ name.text_ne_nil] at hc
  exact name.text_trimmed.first c hc

lemma trim_text (tail : List Char) : trim (name.text++tail) = name.text++tail.rdropWhile isWhitespace :=
  trim_front (show Spaces [] from fun _ hc => (by cases hc)) name.text_trimmed name.text_ne_nil tail

lemma scanParts_text (hta : NameEnds tail) : ∃ semis, (∀ c ∈ semis, c = ';') ∧
    scanParts none [] [] (name.text++tail) =
      [name.schemaQuoting.write name.schema,name.tableQuoting.write name.table++semis] := by
  obtain ⟨-,semis,rest,rfl,hse,hr⟩ := hta
  refine ⟨semis,hse,?_⟩
  have hsp : ∀ c ∈ (semis++rest).head?, c ≠ backtick := by
    intro c hc
    cases semis with
    | nil =>
      rintro rfl
      cases hr _ hc
    | cons d =>
      rw [← Option.some.inj hc,hse d mem_cons_self]
      decide
  have hs := name.schemaWritable
  have ht := name.tableWritable
  rw [text,append_assoc,cons_append,scanParts_write hs [] (by simp; decide),
    scanParts,if_neg (by decide),if_pos rfl,hs.trimmed.trim,
    if_neg (by simpa using hs.write_ne_nil),
    scanParts_write ht _ (fun h => hsp backtick h rfl),
    scanParts_tail hse hr ht.trimmed ht.write_ne_nil]
  rfl

lemma extractQualifiedName_text (ht : NameEnds tail) (defaultSchema : String) :
    extractQualifiedNameWithDefault (name.text++tail) defaultSchema =
      some (toAsciiLowercase name.schema,toAsciiLowercase name.table) := by
  obtain ⟨semis,hs,hsc⟩ := name.scanParts_text ht.rdropWhile
  have ha : trim (trim (name.text++tail)) = trim (name.text++tail) := (trimmed_trim _).trim
  have hse : normalizeIdentifier (name.schemaQuoting.write name.schema) = toAsciiLowercase name.schema := by
    have hp := normalizeIdentifier_write name.schemaWritable fun _ (hc : _ ∈ []) => (by cases hc)
    rwa [append_nil] at hp
  rw [extractQualifiedNameWithDefault,splitQualifiedIdentifierParts,ha,trim_text,hsc]
  simp only [reverse_cons,reverse_nil,nil_append,cons_append]
  rw [hse,normalizeIdentifier_write name.tableWritable hs,if_neg]
  simp [toAsciiLowercase,name.schemaWritable.nonempty,name.tableWritable.nonempty]
end QualifiedName
section
variable {c : Char}

lemma toUpper_of_space (h : isWhitespace c = true) : c.toUpper = c := by
  have hn : ¬(97 ≤ c.toNat ∧ c.toNat ≤ 122) := by
    intro hl
    simp only [isWhitespace,Bool.or_eq_true,Bool.and_eq_true,decide_eq_true_eq] at h
    omega
  rw [Char.toUpper]
  refine dif_neg fun hl => hn ⟨?_,?_⟩
  · exact hl.1
  · exact hl.2

variable {word : String} {keyword rest : List Char}
section
variable (hk : toUppercase keyword = word.toList)
include hk

lemma keyword_length : keyword.length = word.length := by
  rw [← String.length_toList,← hk,toUppercase,length_map]
lemma startsWith_keyword (rest : List Char) : startsWith word (keyword++rest) = true := by
  rw [startsWith,← keyword_length hk,take_left]
  simpa using hk
lemma drop_keyword (rest : List Char) : (keyword++rest).drop word.length = rest := by
  rw [← keyword_length hk,drop_left]
end
lemma startsWith_head {cs : List Char} (h : startsWith word cs = true)
    (hc : word.toList.head? = some c) : ∃ d ds, cs = d::ds ∧ d.toUpper = c := by
  have ht : toUppercase (cs.take word.length) = word.toList := by simpa [startsWith] using h
  rw [← ht] at hc
  cases cs with
  | nil => simp [toUppercase] at hc
  | cons d ds =>
    cases hl : word.length with
    | zero => simp [toUppercase,hl] at hc
    | succ =>
      rw [hl] at hc
      exact ⟨d,ds,rfl,by simpa [toUppercase] using hc⟩

lemma startsWith_other {ot : String} {a b : Char} (hk : toUppercase keyword = word.toList)
    (ha : word.toList.head? = some a) (hb : ot.toList.head? = some b) (hn : a ≠ b)
    (rest : List Char) : startsWith ot (keyword++rest) = false := by
  refine Bool.eq_false_iff.mpr fun hs => hn ?_
  obtain ⟨d,ds,hc,rfl⟩ := startsWith_head hs hb
  rw [← hk] at ha
  cases keyword with
  | nil => cases ha
  | cons =>
    rw [← (List.cons.inj hc).1]
    exact (Option.some.inj ha).symm

lemma keyword_first (hk : toUppercase keyword = word.toList) (hw : ∀ c ∈ word.toList.head?, isWhitespace c = false) :
    ∀ c ∈ keyword.head?, isWhitespace c = false := by
  intro c hc
  by_contra hs
  have hs : isWhitespace c = true := by simpa using hs
  have hu : c.toUpper ∈ word.toList.head? := by
    rw [← hk,toUppercase,List.head?_map,Option.mem_def.mp hc]
    rfl
  rw [toUpper_of_space hs] at hu
  rw [hw c hu] at hs
  cases hs

variable (name : QualifiedName) {tail : List Char}

/-- A qualified name begins with a keyword only if its schema does, and is plain. -/
theorem startsWith_text (hhead : word.toList.head? = some c) (hb : c ≠ backtick)
    (hdo : '.' ∉ word.toList) (h : startsWith word (name.text++tail) = true) :
    name.schemaQuoting = .plain ∧ word.length ≤ name.schema.length ∧ startsWith word name.schema = true := by
  have ht : toUppercase ((name.text++tail).take word.length) = word.toList := by
    simpa [startsWith] using h
  cases hq : name.schemaQuoting with
  | backticked =>
    obtain ⟨d,ds,hc,hd⟩ := startsWith_head h hhead
    rw [QualifiedName.text,hq,Quoting.write] at hc
    rw [← (List.cons.inj hc).1] at hd
    exact absurd hd.symm hb
  | plain =>
    rw [QualifiedName.text,hq,Quoting.write,append_assoc] at ht
    have hl : word.length ≤ name.schema.length := by
      by_contra hlt
      refine hdo ?_
      rw [← ht,take_append,toUppercase,map_append]
      refine mem_append_right _ ?_
      obtain ⟨n,hn⟩ := Nat.exists_eq_add_of_lt (not_le.mp hlt)
      rw [show word.length-name.schema.length = n+1 by omega,cons_append,take_succ_cons]
      exact mem_cons_self
    refine ⟨rfl,hl,?_⟩
    rw [take_append_of_le_length hl] at ht
    simpa [startsWith] using ht

lemma plain_schema (hp : name.schemaQuoting = .plain) (hc : c ∈ name.schema) :
    isWhitespace c = false ∧ c.toUpper ≠ ' ' := by
  have hs := name.schemaWritable
  rw [hp] at hs
  exact (plainChar_facts (hs.ascii c hc) (hs.plainChar hc)).2.2

/-- `IF EXISTS` is never part of a qualified name. -/
theorem not_ifExists : startsWith "IF EXISTS" (name.text++tail) = false := by
  refine Bool.eq_false_iff.mpr fun hs => ?_
  obtain ⟨hp,-,hs⟩ := startsWith_text name (c := 'I') rfl (by decide) (by decide : '.' ∉ "IF EXISTS".toList) hs
  have ht : toUppercase (name.schema.take "IF EXISTS".length) = "IF EXISTS".toList := of_decide_eq_true hs
  have hsp : ' ' ∈ toUppercase (name.schema.take "IF EXISTS".length) := by
    rw [ht]
    decide
  obtain ⟨c,hc,hu⟩ := mem_map.mp hsp
  exact (plain_schema name hp (mem_of_mem_take hc)).2 hu

/-- A schema named `only` is followed by its dot. -/
theorem not_only (tail : List Char) : ¬(startsWith "ONLY" (name.text++tail) = true ∧
    ((name.text++tail).drop "ONLY".length).head?.all isWhitespace = true) := by
  rintro ⟨hst,hs⟩
  obtain ⟨hp,hl,-⟩ := startsWith_text name (c := 'O') rfl (by decide) (by decide) hst
  rw [QualifiedName.text,hp,Quoting.write,append_assoc,drop_append_of_le_length hl] at hs
  cases hr : name.schema.drop "ONLY".length with
  | nil =>
    rw [hr] at hs
    simp [show isWhitespace '.' = false by decide] at hs
  | cons c =>
    rw [hr] at hs
    have hm : c ∈ name.schema := mem_of_mem_drop (hr ▸ mem_cons_self)
    simp [(plain_schema name hp hm).1] at hs

/-- A statement up to its first words: white space, a keyword in either case, white space. -/
structure Opening (word : String) where
  lead : List Char
  keyword : List Char
  gap : List Char
  leadSpaces : Spaces lead
  spelled : toUppercase keyword = word.toList
  gapSpaces : Spaces gap

namespace Opening
section
variable (o : Opening word) (rest : List Char)

def body : List Char := o.keyword++(o.gap++rest)
def write : List Char := o.lead++o.body rest
end
variable (o : Opening word) {a : Char} (hhead : word.toList.head? = some a)

lemma drop_body (hr : ∀ c ∈ rest.head?, isWhitespace c = false) :
    trimStart ((o.body rest).drop word.length) = rest := by
  rw [body,drop_keyword o.spelled,trimStart_spaces o.gapSpaces hr]
lemma body_long (hw : 5 < word.length) (rest : List Char) : 5 < (o.body rest).length := by
  rw [body,length_append,keyword_length o.spelled]
  omega

include hhead

lemma keyword_ne_nil : o.keyword ≠ [] := by
  intro hn
  have hs := o.spelled
  rw [hn] at hs
  rw [← hs] at hhead
  cases hhead

lemma body_first (ha : isWhitespace a = false) (rest : List Char) :
    ∀ c ∈ (o.body rest).head?, isWhitespace c = false := by
  intro c hc
  rw [body,List.head?_append_of_ne_nil _ (o.keyword_ne_nil hhead)] at hc
  refine keyword_first o.spelled (fun d hd => ?_) c hc
  rw [← Option.some.inj (hhead.symm.trans hd),ha]

lemma trim_write (ha : isWhitespace a = false) (middle tail : List Char) :
    trim (o.write (middle++(name.text++tail))) = o.body (middle++(name.text++tail.rdropWhile isWhitespace)) := by
  have hf : Trimmed (o.body (middle++name.text)) := by
    refine ⟨o.body_first hhead ha _,fun c hc => name.text_trimmed.last c ?_⟩
    rwa [body,← append_assoc,← append_assoc,List.getLast?_append_of_ne_nil _ name.text_ne_nil] at hc
  have ht := trim_front o.leadSpaces hf (by simp [body,name.text_ne_nil]) tail
  simpa [body,write] using ht
end Opening
end
section
def ddlKeyword : DdlOperation → String
  | .createTable => "CREATE TABLE"
  | .alterTable => "ALTER TABLE"
  | .dropTable => "DROP TABLE"

inductive OptionalWords : DdlOperation → List Char → Prop
  | none {operation : DdlOperation} : OptionalWords operation []
  | ifExists {operation : DdlOperation} {keyword gap : List Char} (hkind : operation ≠ .createTable)
      (hkeyword : toUppercase keyword = "IF EXISTS".toList) (hgap : Spaces gap) (hne : gap ≠ []) :
      OptionalWords operation (keyword++gap)

variable (name : QualifiedName) {operation : DdlOperation} {tail words : List Char}

lemma words_first (tail : List Char) (hw : OptionalWords operation words) :
    ∀ c ∈ (words++(name.text++tail)).head?, isWhitespace c = false := by
  cases hw with
  | none => exact name.text_first
  | ifExists hki hk =>
    intro c hc
    rw [append_assoc,List.head?_append_of_ne_nil] at hc
    · exact keyword_first hk (by rintro _ ⟨⟩; rfl) c hc
    · rintro rfl
      cases hk

lemma stripOptionalKeyword_text {word : String} (hn : ¬(startsWith word (name.text++tail) = true ∧
      ((name.text++tail).drop word.length).head?.all isWhitespace = true)) :
    stripOptionalKeyword (name.text++tail) word = name.text++tail := by
  have hs : trimStart (name.text++tail) = name.text++tail := dropWhile_eq_self name.text_first
  rw [stripOptionalKeyword,hs,if_neg hn]

lemma stripAlterTargetModifiersWithin_text (rs : ℕ) :
    stripAlterTargetModifiersWithin (rs+1) (name.text++tail) = name.text++tail := by
  have ho := stripOptionalKeyword_text name (not_only name tail)
  have hi : stripOptionalKeyword (name.text++tail) "IF EXISTS" = name.text++tail := by
    refine stripOptionalKeyword_text name fun h => ?_
    rw [not_ifExists] at h
    cases h.1
  rw [stripAlterTargetModifiersWithin,ho,hi,if_pos rfl]

lemma stripAlterTargetModifiers_words (hw : OptionalWords operation words) :
    stripAlterTargetModifiers (words++(name.text++tail)) = name.text++tail := by
  have hs := dropWhile_eq_self (words_first name tail hw)
  cases hw with
  | none => exact stripAlterTargetModifiersWithin_text name _
  | ifExists hki hk hga hn =>
    rename_i keyword gap
    rw [append_assoc] at hs
    have ho : stripOptionalKeyword (keyword++(gap++(name.text++tail))) "ONLY" =
        keyword++(gap++(name.text++tail)) := by
      rw [stripOptionalKeyword,trimStart,hs,if_neg]
      rw [startsWith_other hk rfl (b := 'O') rfl (by decide)]
      simp
    have hi : stripOptionalKeyword (keyword++(gap++(name.text++tail))) "IF EXISTS" = name.text++tail := by
      rw [stripOptionalKeyword,trimStart,hs,drop_keyword hk,if_pos]
      · exact trimStart_spaces hga name.text_first
      · refine ⟨startsWith_keyword hk _,?_⟩
        cases gap with
        | nil => exact absurd rfl hn
        | cons c => simp [hga c mem_cons_self]
    have hle : (keyword++(gap++(name.text++tail))).length = keyword.length+gap.length+(name.text++tail).length := by
      simp only [length_append]
      omega
    have hg : 0 < gap.length := length_pos_iff.mpr hn
    rw [stripAlterTargetModifiers,stripAlterTargetModifiersWithin,append_assoc,ho,hi,if_neg]
    · obtain ⟨rs,hr⟩ := Nat.exists_eq_add_of_lt (show 0 < (keyword++(gap++(name.text++tail))).length by omega)
      rw [hr,Nat.zero_add]
      exact stripAlterTargetModifiersWithin_text name rs
    · intro hsa
      have hl := congrArg List.length hsa
      omega

lemma statementTarget_body (tail : List Char) (o : Opening (ddlKeyword operation))
    (hw : OptionalWords operation words) :
    statementTarget (o.body (words++(name.text++tail))) = some (operation,name.text++tail) := by
  have hd := o.drop_body (words_first name tail hw)
  have hs := startsWith_keyword o.spelled (o.gap++(words++(name.text++tail)))
  rw [Opening.body] at hd
  rw [statementTarget,Opening.body]
  generalize ht : o.keyword++(o.gap++(words++(name.text++tail))) = text at hd hs
  cases operation with
  | createTable =>
    cases hw with
    | none =>
      rw [ddlKeyword] at hs
      rw [if_pos hs]
      exact congrArg (fun target => some (DdlOperation.createTable,target)) hd
    | ifExists hk => exact absurd rfl hk
  | alterTable =>
    have hc : startsWith "CREATE TABLE" text = false :=
      ht ▸ startsWith_other o.spelled rfl (b := 'C') rfl (by decide) _
    have hd : trimStart (text.drop 11) = words++(name.text++tail) := hd
    rw [ddlKeyword] at hs
    rw [if_neg (by simp [hc]),if_pos hs,hd,stripAlterTargetModifiers_words name hw]
  | dropTable =>
    have hc : startsWith "CREATE TABLE" text = false :=
      ht ▸ startsWith_other o.spelled rfl (b := 'C') rfl (by decide) _
    have ha : startsWith "ALTER TABLE" text = false :=
      ht ▸ startsWith_other o.spelled rfl (b := 'A') rfl (by decide) _
    have hd : trimStart (text.drop 10) = words++(name.text++tail) := hd
    rw [ddlKeyword] at hs
    rw [if_neg (by simp [hc]),if_neg (by simp [ha]),if_pos hs]
    dsimp only
    rw [hd]
    cases hw with
    | none => rw [nil_append,not_ifExists name,if_neg (by simp)]
    | ifExists hk hwo hsp =>
      rw [append_assoc,startsWith_keyword hwo,if_pos rfl,
        show 9 = "IF EXISTS".length by decide,drop_keyword hwo,
        trimStart_spaces hsp name.text_first]

lemma extractCapturedDdl_write (o : Opening (ddlKeyword operation))
    (hw : OptionalWords operation words) (hta : NameEnds tail) (cs : ColumnParser)
    (dialect : DdlDialect) :
    ∃ ca, extractCapturedDdl cs dialect (String.ofList (o.write (words++(name.text++tail)))) = some ca ∧
      ca.schema = String.ofList (toAsciiLowercase name.schema) ∧
        ca.table = String.ofList (toAsciiLowercase name.table) := by
  have htr : trim (o.write (words++(name.text++tail))) =
      o.body (words++(name.text++tail.rdropWhile isWhitespace)) := by
    cases operation with
    | createTable => exact o.trim_write name (a := 'C') rfl (by decide) words tail
    | alterTable => exact o.trim_write name (a := 'A') rfl (by decide) words tail
    | dropTable => exact o.trim_write name (a := 'D') rfl (by decide) words tail
  have ht := statementTarget_body name (tail.rdropWhile isWhitespace) o hw
  have hn : parseSchemaTableForDialect dialect
      (o.body (words++(name.text++tail.rdropWhile isWhitespace))) =
        some (toAsciiLowercase name.schema,toAsciiLowercase name.table) := by
    rw [parseSchemaTableForDialect,ht,Option.bind_some]
    exact name.extractQualifiedName_text hta.rdropWhile _
  rw [extractCapturedDdl,parseDdlStatement,String.toList_ofList,htr,ht,Option.bind_some,hn]
  exact ⟨_,rfl,rfl,rfl⟩
end
end Rustcdc.Mysql
