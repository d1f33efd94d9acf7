import Rustcdc.Core.Basic
import Rustcdc.Core.Text

/-! The comparison of a registered Protobuf schema with the expected one.  The sources are compared without
the rest of each line behind two slashes and with white space collapsed; they are not lexed. -/
namespace Rustcdc.SchemaRegistry
open List

def close (word : List Char) : List (List Char) := if word.isEmpty then [] else [word]

/-- `str::lines`, with what was read of the line.  The carriage return that it takes off as well is white
space, which is dropped next. -/
def lines (line : List Char) : List Char → List (List Char)
  | [] => close line
  | c::cs => if c = '\n' then line::lines [] cs else lines (line++[c]) cs

/-- The line up to its first two slashes. -/
def beforeSlashes : List Char → List Char
  | [] => []
  | c::cs => if c = '/' ∧ cs.head? = some '/' then [] else c::beforeSlashes cs

/-- `str::split_whitespace`, with what was read of the word. -/
def splitWhitespace (word : List Char) : List Char → List (List Char)
  | [] => close word
  | c::cs => if isWhitespace c then close word++splitWhitespace [] cs else splitWhitespace (word++[c]) cs

def linePieces (line : List Char) : List (List Char) := splitWhitespace [] (beforeSlashes line)
def pieces (source : String) : List (List Char) := (lines [] source.toList).flatMap linePieces
def normalizeProtoSource (source : String) : String := String.ofList ([' '].intercalate (pieces source))

/-- For Protobuf; the forms of Avro and JSON schemas are made by libraries.  `asStr` is the type's name. -/
def assertRegistrySchemaMatches (asStr subject registrySchema expectedSchema : String) : Except Error Unit :=
  let registryForm := normalizeProtoSource registrySchema
  let expectedForm := normalizeProtoSource expectedSchema
  if registryForm = expectedForm then .ok ()
  else .error (.configError ("the schema registered under subject '"++subject++"' is not the "++asStr++
    " schema rustcdc encodes with, so every message would be stamped with an id that resolves to a different schema. "++
    "Protobuf is tagged, so most mismatches surface as decode errors — but a field whose number was reused with a "++
    "compatible wire type decodes silently as the wrong field.\n\nRegistry canonical form: "++registryForm++
    "\nExpected canonical form: "++expectedForm++"\n\nRemedy: register rustcdc's schema under this subject (set "++
    "`auto_register = true` for first-time setup, or register it out of band), or point `topic`/`strategy` at a "++
    "subject that carries it."))

/-- Where a lexer of Protobuf sources stands. -/
inductive Lexer
  | code (word : List Char)
  | slash (word : List Char)
  | quoted (quote : Char) (text : List Char) (escaped : Bool)
  | line
  | block (star : Bool)

variable (joins : List Char → Char → Bool)

namespace Lexer
/-- A character outside of comments and string literals. -/
def codeStep (word : List Char) (c : Char) : Lexer × List (List Char) :=
  if c = '/' then (.slash word,[])
  else if isWhitespace c then (.code [],close word)
  else if c = '"' || c = '\'' then (.quoted c [c] false,close word)
  else if word.isEmpty || joins word c then (.code (word++[c]),[])
  else (.code [c],close word)

/-- Read a character: the tokens that end with it.  `joins` says which characters a word goes on with. -/
def step : Lexer → Char → Lexer × List (List Char)
  | .code word, c => codeStep joins word c
  | .slash word, c =>
    if c = '/' then (.line,close word)
    else if c = '*' then (.block false,close word)
    else ((codeStep joins [] c).1,close word++['/']::(codeStep joins [] c).2)
  | .quoted quote text escaped, c =>
    if !escaped && c = quote then (.code [],[text++[c]])
    else (.quoted quote (text++[c]) (!escaped && c = '\\'),[])
  | .line, c => (if c = '\n' then .code [] else .line,[])
  | .block star, c => (if star && c = '/' then .code [] else .block (c = '*'),[])

def isCode : Lexer → Bool
  | .code _ => true
  | _ => false

def finish : Lexer → List (List Char)
  | .code word => close word
  | .slash word => close word++[['/']]
  | .quoted _ text _ => [text]
  | .line | .block _ => []

def read (s : Lexer) : List Char → Lexer × List (List Char)
  | [] => (s,[])
  | c::cs => ((read (s.step joins c).1 cs).1,(s.step joins c).2++(read (s.step joins c).1 cs).2)
end Lexer
/-- The tokens of a source, without its comments. -/
def tokens (cs : List Char) : List (List Char) :=
  ((Lexer.code []).read joins cs).2++((Lexer.code []).read joins cs).1.finish

variable {joins}

lemma Lexer.read_append (s : Lexer) (cs ds : List Char) : s.read joins (cs++ds) =
    (((s.read joins cs).1.read joins ds).1,(s.read joins cs).2++((s.read joins cs).1.read joins ds).2) := by
  induction cs generalizing s with
  | nil => rfl
  | cons c cs ih => simp only [cons_append,read,ih,append_assoc]

lemma Lexer.isCode_iff {s : Lexer} : s.isCode = true ↔ ∃ word, s = .code word := by
  cases s <;> simp [isCode]

variable (joins) in
/-- A text that is lexed to its end: it is its tokens, and no string literal is open behind it. -/
def Closed (cs : List Char) : Prop :=
  ((Lexer.code []).read joins cs).1.isCode = true ∧ (tokens joins cs).flatten = cs
instance (cs : List Char) : Decidable (Closed joins cs) := instDecidableAnd

variable {cs ds : List Char} {c : Char}

lemma read_blank (hc : isWhitespace c = true) (hw : ((Lexer.code []).read joins cs).1.isCode = true) :
    ((Lexer.code []).read joins (cs++c::ds)).1 = ((Lexer.code []).read joins ds).1 ∧
      tokens joins (cs++c::ds) = tokens joins cs++tokens joins ds := by
  obtain ⟨word,hw⟩ := Lexer.isCode_iff.mp hw
  have hs : c ≠ '/' := by
    rintro rfl
    exact absurd hc (by decide)
  rw [tokens,Lexer.read_append,hw]
  simp [tokens,Lexer.read,Lexer.step,Lexer.codeStep,hs,hc,hw,Lexer.finish]

lemma splitWhitespace_closed (w : List Char) (h : ∀ p ∈ splitWhitespace w cs, Closed joins p) :
    ((Lexer.code []).read joins (w++cs)).1.isCode = true ∧
      tokens joins (w++cs) = (splitWhitespace w cs).flatMap (tokens joins) := by
  induction cs generalizing w with
  | nil =>
    rw [splitWhitespace,close] at h ⊢
    cases w with
    | nil => exact ⟨rfl,rfl⟩
    | cons c w => simpa using (h (c::w) (by simp)).1
  | cons c cs ih =>
    rw [splitWhitespace] at h ⊢
    split at h
    · rename_i hc
      obtain ⟨hcl,ht⟩ := ih [] fun p hp => h p (mem_append_right _ hp)
      have hw : ((Lexer.code []).read joins w).1.isCode = true ∧
          tokens joins w = (close w).flatMap (tokens joins) := by
        cases w with
        | nil => exact ⟨rfl,rfl⟩
        | cons d w => simpa [close] using (h (d::w) (by simp [close])).1
      obtain ⟨hr,hto⟩ := @read_blank joins w cs c hc hw.1
      rw [if_pos hc,hr,hto,flatMap_append,← ht,hw.2]
      exact ⟨hcl,rfl⟩
    · rename_i hc
      rw [if_neg hc]
      simpa using ih (w++[c]) h

lemma beforeSlashes_cases (l : List Char) : beforeSlashes l = l ∨ ∃ r, l = beforeSlashes l++ '/':: '/'::r := by
  induction l with
  | nil => exact .inl rfl
  | cons c l ih =>
    rw [beforeSlashes]
    split
    · rename_i hc
      obtain ⟨rfl,hh⟩ := hc
      obtain ⟨r,rfl⟩ := head?_eq_some_iff.mp hh
      exact .inr ⟨r,rfl⟩
    · rcases ih with he | ⟨r,he⟩
      · exact .inl (by rw [he])
      · exact .inr ⟨r,by rw [cons_append,← he]⟩

lemma read_line {r : List Char} (hr : '\n' ∉ r) : Lexer.line.read joins r = (.line,[]) := by
  induction r with
  | nil => rfl
  | cons c r ih =>
    rw [mem_cons,not_or] at hr
    simp [Lexer.read,Lexer.step,Ne.symm hr.1,ih hr.2]

/-- The tokens of a line are those of its pieces. -/
lemma line_closed {l : List Char} (hn : '\n' ∉ l) (h : ∀ p ∈ linePieces l, Closed joins p) :
    tokens joins l = (linePieces l).flatMap (tokens joins) ∧
      ∀ ds, tokens joins (l++ '\n'::ds) = (linePieces l).flatMap (tokens joins)++tokens joins ds := by
  obtain ⟨hw,ht⟩ := splitWhitespace_closed [] h
  rw [nil_append] at hw ht
  rw [linePieces,← ht]
  rcases beforeSlashes_cases l with he | ⟨r,he⟩
  · rw [he] at hw ⊢
    exact ⟨rfl,fun ds => (read_blank (by decide) hw).2⟩
  · have hr : (Lexer.code []).read joins l = (.line,tokens joins (beforeSlashes l)) := by
      obtain ⟨word,hw⟩ := Lexer.isCode_iff.mp hw
      have hnr : '\n' ∉ r := fun hm => hn (by rw [he]; simp [hm])
      rw [he,Lexer.read_append,← he,hw]
      simp [Lexer.read,Lexer.step,Lexer.codeStep,read_line hnr,tokens,hw,Lexer.finish]
    refine ⟨by rw [tokens,hr]; exact append_nil _,fun ds => ?_⟩
    rw [tokens,Lexer.read_append,hr]
    simp [tokens,Lexer.read,Lexer.step]

lemma tokens_lines (l : List Char) {cs : List Char} (hn : '\n' ∉ l)
    (h : ∀ p ∈ (lines l cs).flatMap linePieces, Closed joins p) :
    tokens joins (l++cs) = ((lines l cs).flatMap linePieces).flatMap (tokens joins) := by
  induction cs generalizing l with
  | nil =>
    rw [lines,close] at h ⊢
    cases l with
    | nil => rfl
    | cons c l => simpa using (line_closed hn (by simpa using h)).1
  | cons c cs ih =>
    rw [lines] at h ⊢
    split at h
    · rename_i hc
      subst hc
      rw [flatMap_cons] at h
      have hl := (line_closed hn fun p hp => h p (mem_append_left _ hp)).2 cs
      have hr := ih [] (by simp) fun p hp => h p (mem_append_right _ hp)
      rw [if_pos rfl,flatMap_cons,flatMap_append,hl,← hr]
      rfl
    · rename_i hc
      rw [if_neg hc]
      simpa using ih (l++[c]) (by simp [hn,Ne.symm hc]) h

/-- A piece between white space. -/
def IsPiece (p : List Char) : Prop := p ≠ [] ∧ ∀ c ∈ p, isWhitespace c = false

lemma close_isPiece {w : List Char} (hw : ∀ c ∈ w, isWhitespace c = false) : ∀ p ∈ close w, IsPiece p := by
  cases w with
  | nil => simp [close]
  | cons c w => simpa [close,IsPiece] using hw

lemma splitWhitespace_isPiece {w : List Char} (hw : ∀ c ∈ w, isWhitespace c = false) (cs : List Char) :
    ∀ p ∈ splitWhitespace w cs, IsPiece p := by
  induction cs generalizing w with
  | nil => exact close_isPiece hw
  | cons c cs ih =>
    rw [splitWhitespace]
    split
    · intro p hp
      rcases mem_append.mp hp with hp | hp
      · exact close_isPiece hw p hp
      · exact ih (by simp) p hp
    · rename_i hc
      refine ih fun d hd => ?_
      rcases mem_append.mp hd with hd | hd
      · exact hw d hd
      · rw [mem_singleton.mp hd]
        simpa using hc

lemma pieces_isPiece (source : String) : ∀ p ∈ pieces source, IsPiece p := by
  intro p hp
  obtain ⟨l,_,hl⟩ := mem_flatMap.mp hp
  exact splitWhitespace_isPiece (by simp) _ p hl

lemma splitWhitespace_word (w : List Char) {p : List Char} (hp : ∀ c ∈ p, isWhitespace c = false) (rest : List Char) :
    splitWhitespace w p = close (w++p) ∧
      splitWhitespace w (p++ ' '::rest) = close (w++p)++splitWhitespace [] rest := by
  induction p generalizing w with
  | nil => simp [splitWhitespace,show isWhitespace ' ' = true by decide]
  | cons c p ih =>
    obtain ⟨hc,hp⟩ := forall_mem_cons.mp hp
    simpa [splitWhitespace,hc] using ih (w++[c]) hp

/-- The pieces can be read back from the form. -/
lemma splitWhitespace_join {ps : List (List Char)} (h : ∀ p ∈ ps, IsPiece p) :
    splitWhitespace [] ([' '].intercalate ps) = ps := by
  induction ps with
  | nil => rfl
  | cons p ps ih =>
    obtain ⟨hp,hps⟩ := forall_mem_cons.mp h
    have hc : close ([]++p) = [p] := by simp [close,hp.1]
    cases ps with
    | nil => rw [intercalate_singleton,(splitWhitespace_word [] hp.2 []).1,hc]
    | cons q ps =>
      rw [intercalate_cons_cons,append_assoc,singleton_append,(splitWhitespace_word [] hp.2 _).2,ih hps,hc]
      rfl

/-- The comparison is that of the pieces. -/
lemma assertRegistrySchemaMatches_ok {asStr subject registry expected : String} :
    assertRegistrySchemaMatches asStr subject registry expected = .ok () ↔ pieces registry = pieces expected := by
  have hf : normalizeProtoSource registry = normalizeProtoSource expected ↔ pieces registry = pieces expected := by
    refine ⟨fun h => ?_,fun h => by rw [normalizeProtoSource,h,normalizeProtoSource]⟩
    have hs := congrArg (splitWhitespace []) (String.ofList_injective h)
    rwa [splitWhitespace_join (pieces_isPiece _),splitWhitespace_join (pieces_isPiece _)] at hs
  rw [← hf,assertRegistrySchemaMatches]
  split
  · exact iff_of_true rfl ‹_›
  · exact iff_of_false (by simp) ‹_›

lemma flatten_tokens {ps : List (List Char)} (h : ∀ p ∈ ps, Closed joins p) :
    (ps.map (tokens joins)).map flatten = ps := by
  rw [map_map]
  exact (map_congr_left fun p hp => (h p hp).2).trans (map_id ps)

/-- If no string literal has white space or two slashes in it and there is no block comment, a source
is taken for the expected one exactly if it has the same tokens and white space stands between the same
ones. -/
theorem proto_comparison (joins : List Char → Char → Bool) (asStr subject registry expected : String)
    (hr : ∀ p ∈ pieces registry, Closed joins p) (he : ∀ p ∈ pieces expected, Closed joins p) :
    assertRegistrySchemaMatches asStr subject registry expected = .ok () ↔
      tokens joins registry.toList = tokens joins expected.toList ∧
        ((pieces registry).map fun p => (tokens joins p).length) =
          (pieces expected).map fun p => (tokens joins p).length := by
  have htr := @tokens_lines joins [] registry.toList (by simp) hr
  have hte := @tokens_lines joins [] expected.toList (by simp) he
  rw [nil_append] at htr hte
  rw [assertRegistrySchemaMatches_ok,htr,hte]
  change _ ↔ (pieces registry).flatMap _ = (pieces expected).flatMap _ ∧ _
  refine ⟨fun h => by rw [h]; exact ⟨rfl,rfl⟩,fun ⟨ht,hl⟩ => ?_⟩
  have hm : (pieces registry).map (tokens joins) = (pieces expected).map (tokens joins) :=
    eq_iff_flatten_eq.mpr ⟨ht,by rw [map_map,map_map]; exact hl⟩
  have hp := congrArg (map flatten) hm
  rwa [flatten_tokens hr,flatten_tokens he] at hp

/-- Letters, digits and underscores make up words. -/
def wordJoins (word : List Char) (c : Char) : Bool := (c::word).all fun c => c.isAlphanum || c = '_'

theorem proto_comparison_sample :
    assertRegistrySchemaMatches "PROTOBUF" "events-value" "option go = \"a/b\"; // old\n" "option  go\n= \"a/b\";" = .ok () := by
  exact (proto_comparison wordJoins "PROTOBUF" "events-value" _ _ (by decide) (by decide)).mpr (by decide)

/-- Two string literals are taken for one, and a missing blank and a block comment for a difference. -/
theorem proto_sources_confused :
    (tokens wordJoins "o=\"a//b\";".toList ≠ tokens wordJoins "o=\"a//c\";".toList ∧
      (assertRegistrySchemaMatches "PROTOBUF" "s" "o=\"a//b\";" "o=\"a//c\";").isOk = true) ∧
    (tokens wordJoins "a=1;".toList = tokens wordJoins "a = 1;".toList ∧
      (assertRegistrySchemaMatches "PROTOBUF" "s" "a=1;" "a = 1;").isOk = false) ∧
    tokens wordJoins "a /* b */;".toList = tokens wordJoins "a ;".toList ∧
      (assertRegistrySchemaMatches "PROTOBUF" "s" "a /* b */;" "a ;").isOk = false := by
  decide
end Rustcdc.SchemaRegistry
