import Rustcdc.Source.Mysql.StatementNames

/-! The events of logged statements.  A table named with its database has its statements reported under
the schema and table of its rows; without it not, as the default database of the session is not looked
at. -/
namespace Rustcdc.Mysql
open List MysqlStreamHandle Ddl
section
variable {q : Quoting} {name rest : List Char}

lemma identifierSegments_plain (input : List Char) (quoted : Bool)
    (hn : ∀ c ∈ name, c ≠ backtick ∧ c ≠ '.') (cu : List Char) (ps : List (List Char))
    (rest : List Char) :
    identifierSegments input false quoted cu ps (name++rest) =
      identifierSegments input false quoted (cu++name) ps rest := by
  induction name generalizing cu with
  | nil => simp
  | cons c name ih =>
    obtain ⟨hb,hdo⟩ := hn c mem_cons_self
    rw [cons_append,identifierSegments,if_neg hb,if_neg hdo,ih (fun d hd => hn d (mem_cons_of_mem _ hd))]
    simp

lemma identifierSegments_quoted (input name cu : List Char) (ps : List (List Char))
    (hr : rest.head? ≠ some backtick) :
    identifierSegments input true true cu ps (escaped name++backtick::rest) =
      identifierSegments input false true (cu++name) ps rest := by
  induction name generalizing cu with
  | nil =>
    cases rest with
    | nil => simp [escaped,identifierSegments]
    | cons d =>
      have hd : d ≠ backtick := fun h => hr (by rw [h]; rfl)
      rw [escaped,flatMap_nil,nil_append,identifierSegments,if_pos rfl,append_nil]
      exact if_neg hd
  | cons c name ih =>
    by_cases hc : c = backtick
    · rw [hc,escaped_backtick,cons_append,cons_append,identifierSegments,if_pos rfl]
      rw [if_pos rfl,ih]
      simp
    · rw [escaped_other hc,cons_append,identifierSegments.eq_def]
      simp only [if_neg hc]
      rw [ih]
      simp
section
variable (hw : WritableName q name) (i : List Char)
include hw

/-- A written name is one segment. -/
theorem identifierSegments_write (ps : List (List Char)) (hr : rest.head? ≠ some backtick) :
    identifierSegments i false false [] ps (q.write name++rest) =
      identifierSegments i false (q = .backticked) name ps rest := by
  cases q with
  | plain =>
    refine identifierSegments_plain i false (fun c hc => ?_) [] ps rest
    have hf := (plainChar_facts (hw.ascii c hc) (hw.plainChar hc)).1
    exact ⟨hf.2.1,hf.2.2.2⟩
  | backticked =>
    rw [Quoting.write,cons_append,identifierSegments,if_pos rfl,if_pos (by decide),
      append_assoc,singleton_append,identifierSegments_quoted _ _ _ _ hr]
    rfl

lemma finalizeMysqlIdentifierSegment_write : finalizeMysqlIdentifierSegment name (q = .backticked) i = .ok name := by
  have hs : name.isEmpty = false := by simpa using hw.nonempty
  cases q with
  | plain =>
    have ha : name.all isPlainChar = true := all_eq_true.mpr fun c hc => hw.plainChar hc
    have ht : trim name = name := hw.trimmed.trim
    simp [finalizeMysqlIdentifierSegment,ht,hw.nonempty,ha]
  | backticked =>
    have ha : name.all (fun c => !isControl c) = true := all_eq_true.mpr fun c hc => by simpa using hw.chars c hc
    simp [finalizeMysqlIdentifierSegment,hs,ha]
end
lemma splitTableReference_text (name : QualifiedName) :
    splitTableReference name.text = .ok (some name.schema,name.table) := by
  have hp : ∀ input, identifierSegments input false false [] [] name.text = .ok [name.schema,name.table] := by
    intro input
    have hl : identifierSegments input false false [] [name.schema]
        (name.tableQuoting.write name.table) = .ok [name.schema,name.table] := by
      have hw := identifierSegments_write name.tableWritable input [name.schema]
        (show ([] : List Char).head? ≠ some backtick by simp)
      rw [append_nil] at hw
      rw [hw,identifierSegments,if_neg (by simp),lastSegment,finalizeMysqlIdentifierSegment_write name.tableWritable]
      rfl
    rw [QualifiedName.text,identifierSegments_write name.schemaWritable input [] (by simp; decide),
      identifierSegments,if_neg (by decide),if_pos rfl,
      finalizeMysqlIdentifierSegment_write name.schemaWritable]
    exact hl
  rw [splitTableReference,name.text_trimmed.trim,if_neg (by simp [name.text_ne_nil]),parseMysqlIdentifierPath,hp]
end
section
/-- The words between `TRUNCATE` and the name.  Without `TABLE` the name must not begin so. -/
inductive TruncateWords (name : QualifiedName) : List Char → Prop
  | none (hname : startsWith "TABLE" name.schema = false ∨ name.schemaQuoting ≠ .plain) : TruncateWords name []
  | table {keyword gap : List Char} (hkeyword : toUppercase keyword = "TABLE".toList)
      (hgap : Spaces gap) : TruncateWords name (keyword++gap)

/-- What may follow the name in a `TRUNCATE`. -/
def TruncateEnds (tail : List Char) : Prop :=
  ∃ gap semis rest, tail = gap++(semis++rest) ∧ Spaces gap ∧ (∀ c ∈ semis, c = ';') ∧ Spaces rest

variable {n : QualifiedName} {tail w : List Char}

lemma cleaned_text (ht : TruncateEnds tail) : trim (trimEndMatches (· = ';') (trim (n.text++tail))) = n.text := by
  obtain ⟨gap,semis,rest,rfl,hg,hse,hr⟩ := ht
  -- the semicolons are the last but white space, or there are none
  have hk : ∃ spaces, Spaces spaces ∧
      trimEndMatches (· = ';') (trim (n.text++(gap++(semis++rest)))) = n.text++spaces := by
    have hl : ∀ c ∈ n.text.getLast?, decide (c = ';') = false := by
      intro c hc
      rw [n.text_last] at hc
      simpa using (n.tableWritable.ends c (Or.inr hc)).2.2.1
    have hn : ∀ c ∈ gap.getLast?, decide (c = ';') = false := by
      intro c hc
      have hsp := hg c (mem_of_getLast? hc)
      refine decide_eq_false fun hsem => ?_
      rw [hsem] at hsp
      cases hsp
    rw [n.trim_text,trimEndMatches,rdropWhile_append hl]
    by_cases hso : semis = []
    · have hs : ∀ c ∈ gap++(semis++rest), isWhitespace c = true := by
        intro c hc
        rw [hso,nil_append] at hc
        exact (mem_append.mp hc).elim (hg c) (hr c)
      rw [rdropWhile_eq_nil_iff.mpr hs]
      exact ⟨[],fun _ hc => (by cases hc),rfl⟩
    · have hsem : ∀ c ∈ (gap++semis).getLast?, isWhitespace c = false := by
        intro c hc
        rw [List.getLast?_append_of_ne_nil _ hso] at hc
        rw [hse c (mem_of_getLast? hc)]
        decide
      rw [← append_assoc gap,rdropWhile_append hsem,rdropWhile_eq_nil_iff.mpr hr,append_nil,
        rdropWhile_append hn,rdropWhile_eq_nil_iff.mpr fun c hc => decide_eq_true (hse c hc),
        append_nil]
      exact ⟨gap,hg,rfl⟩
  obtain ⟨spaces,hs,hk⟩ := hk
  rw [hk,n.trim_text,rdropWhile_eq_nil_iff.mpr hs,append_nil]

lemma not_table (hn : startsWith "TABLE" n.schema = false ∨ n.schemaQuoting ≠ .plain) :
    startsWith "TABLE" (n.text++tail) = false := by
  refine Bool.eq_false_iff.mpr fun hs => ?_
  obtain ⟨hp,-,hsc⟩ := startsWith_text n (c := 'T') rfl (by decide) (by decide) hs
  rcases hn with hn | hn
  · rw [hsc] at hn
    cases hn
  · exact hn hp

variable (o : Opening "TRUNCATE")

lemma parseTruncateTarget_write (hw : TruncateWords n w) (hta : TruncateEnds tail) :
    parseTruncateTarget (String.ofList (o.write (w++(n.text++tail)))) =
      some (some (String.ofList n.schema),String.ofList n.table) := by
  have hf : ∀ c ∈ (w++(n.text++tail)).head?, isWhitespace c = false := by
    cases hw with
    | none => exact n.text_first
    | table hk =>
      intro c hc
      rw [append_assoc,List.head?_append_of_ne_nil] at hc
      · exact keyword_first hk (by rintro _ ⟨⟩; rfl) c hc
      · rintro rfl
        cases hk
  have hs : trimStart (o.write (w++(n.text++tail))) = o.body (w++(n.text++tail)) :=
    trimStart_spaces o.leadSpaces (o.body_first (a := 'T') rfl (by decide) _)
  have hd : trimStart ((o.body (w++(n.text++tail))).drop 8) = w++(n.text++tail) := o.drop_body hf
  have ht : (if startsWith "TABLE" (w++(n.text++tail)) then
      trimStart ((w++(n.text++tail)).drop 5) else w++(n.text++tail)) = n.text++tail := by
    cases hw with
    | none hn => rw [nil_append,not_table hn,if_neg (by simp)]
    | table hk hg =>
      rw [append_assoc,startsWith_keyword hk,if_pos rfl,
        show 5 = "TABLE".length by decide,drop_keyword hk,trimStart_spaces hg n.text_first]
  rw [parseTruncateTarget,String.toList_ofList,hs]
  dsimp only
  rw [if_pos (show startsWith "TRUNCATE" (o.body _) = true from startsWith_keyword o.spelled _),hd,ht,cleaned_text hta,
    if_neg (by simp [n.text_ne_nil]),splitTableReference_text]
  rfl

lemma extractCapturedDdl_truncate (cs : ColumnParser) (dialect : DdlDialect) : extractCapturedDdl cs dialect
      (String.ofList (o.write (w++(n.text++tail)))) = none := by
  have ho {ot : String} {b : Char} (hb : ot.toList.head? = some b) (hn : 'T' ≠ b)
      (rest : List Char) : startsWith ot (o.body rest) = false :=
    startsWith_other o.spelled rfl hb hn _
  rw [extractCapturedDdl,parseDdlStatement,String.toList_ofList,
    o.trim_write n (a := 'T') rfl (by decide),statementTarget,
    ho (b := 'C') rfl (by decide),ho (b := 'A') rfl (by decide),
    ho (b := 'D') rfl (by decide)]
  rfl
end
section
open LiveMysqlBinlogProvider

inductive StatementKind
  | ddl | truncate
  deriving DecidableEq

/-- A name without capitals, which is how a schema change gives every name. -/
def QualifiedName.Lowercase (name : QualifiedName) : Prop :=
  toAsciiLowercase name.schema = name.schema ∧ toAsciiLowercase name.table = name.table

/-- The statements about a table that give its name with its database. -/
inductive Names (name : QualifiedName) : StatementKind → String → Prop
  | ddl {operation : DdlOperation} (o : Opening (ddlKeyword operation)) {words tail : List Char}
      (hwords : OptionalWords operation words) (htail : NameEnds tail) (hlower : name.Lowercase) :
      Names name .ddl (String.ofList (o.write (words++(name.text++tail))))
  | truncate (o : Opening "TRUNCATE") {words tail : List Char} (hwords : TruncateWords name words)
      (htail : TruncateEnds tail) :
      Names name .truncate (String.ofList (o.write (words++(name.text++tail))))

/-- What the event of a statement shares with a row event of the table.  A schema change goes under a
table of its own and has the table's name in its payload. -/
def SameTable (kind : StatementKind) (statement row : Event) : Prop := statement.schema = row.schema ∧
    match kind with
    | .ddl => statement.op = .schemaChange ∧ statement.table = row.table++"__ddl_events" ∧
        statement.after.bind (·.get "table") = some (.str row.table)
    | .truncate => statement.op = .truncate ∧ statement.table = row.table

variable {name : QualifiedName} {kind : StatementKind} {statement : String}

lemma isBegin_write {word : String} (hw : 5 < word.length) {a : Char}
    (hh : word.toList.head? = some a) (ha : isWhitespace a = false) (o : Opening word)
    (words tail : List Char) :
    isBegin (String.ofList (o.write (words++(name.text++tail)))) = false := by
  rw [isBegin,String.toList_ofList,o.trim_write name hh ha]
  refine decide_eq_false fun hb => ?_
  have hl := congrArg List.length hb
  have hlo := o.body_long hw (words++(name.text++tail.rdropWhile isWhitespace))
  rw [toAsciiLowercase,length_map,show "begin".toList.length = 5 by decide] at hl
  omega

lemma Names.isBegin_eq_false (h : Names name kind statement) : isBegin statement = false := by
  cases h with
  | ddl o hw ht hlo =>
    rename_i operation words tail
    cases operation with
    | createTable => exact isBegin_write (by decide) (a := 'C') rfl (by decide) o words tail
    | alterTable => exact isBegin_write (by decide) (a := 'A') rfl (by decide) o words tail
    | dropTable => exact isBegin_write (by decide) (a := 'D') rfl (by decide) o words tail
  | truncate o =>
    exact isBegin_write (by decide) (a := 'T') rfl (by decide) o _ _

/-- The message a statement is decoded to. -/
inductive NamesMessage (name : QualifiedName) (timestampMs : UInt64) (binlogFile : String)
    (binlogPos : UInt32) : StatementKind → MysqlBinlogMessage → Prop
  | ddl (captured : CapturedDdl) (hschema : captured.schema = String.ofList name.schema)
      (htable : captured.table = String.ofList name.table) :
      NamesMessage name timestampMs binlogFile binlogPos .ddl (.ddl captured timestampMs binlogFile binlogPos)
  | truncate : NamesMessage name timestampMs binlogFile binlogPos .truncate
      (.truncate (some (String.ofList name.schema)) (String.ofList name.table) timestampMs binlogFile binlogPos)

lemma Names.decodeQuery (h : Names name kind statement) (cs : ColumnParser)
    (p : LiveMysqlBinlogProvider) (ts : UInt64) :
    ∃ b message, (p.decodeQuery cs statement ts).2 = b++[message] ∧
      NamesMessage name ts p.binlogFile p.nextPos kind message := by
  rw [LiveMysqlBinlogProvider.decodeQuery,h.isBegin_eq_false]
  cases h with
  | ddl o hw hta hlo =>
    obtain ⟨c,hc,hs,ht⟩ := extractCapturedDdl_write name o hw hta cs .mysql
    rw [hlo.1] at hs
    rw [hlo.2] at ht
    rw [hc]
    exact ⟨[],_,rfl,.ddl _ hs ht⟩
  | truncate o hw hta =>
    rw [extractCapturedDdl_truncate o cs .mysql,parseTruncateTarget_write o hw hta]
    cases p.activeTxId with
    | none => exact ⟨[],_,rfl,.truncate⟩
    | some => exact ⟨[_],_,rfl,.truncate⟩

lemma implicitCommit_tableIsAllowed (h : MysqlStreamHandle) (ts : UInt64) (bf : String) (bp : UInt32) :
    (h.implicitCommit ts bf bp).1.tableIsAllowed = h.tableIsAllowed := by
  rw [implicitCommit]
  split
  · rfl
  · split <;> rfl

lemma pushRow_events (h : MysqlStreamHandle) (op : Operation) (c : MysqlRowChange) :
    (h.pushRow op c).partialTxEvents = h.partialTxEvents++
      if h.tableIsAllowed c.schema c.table then [h.buildEvent op c] else [] := by
  rw [pushRow]
  split
  · rfl
  · exact (append_nil _).symm

lemma CapturedDdl.toEvent_table (ddl : CapturedDdl) (sn o : String) (tsMs : UInt64) :
    (ddl.toEvent sn o tsMs).after.bind (·.get "table") = some (.str ddl.table) := by
  have hk : ∀ k v fs, "table" ≠ k → (CapturedDdl.withField k v fs).lookup "table" = fs.lookup "table" := by
    intro k v fs hn
    cases v with
    | none => rfl
    | some v => exact Json.lookup_insertField_ne hn v fs
  rw [CapturedDdl.toEvent]
  show (CapturedDdl.withField _ _ (CapturedDdl.withField _ _ _)).lookup "table" = _
  rw [hk _ _ _ (by decide),hk _ _ _ (by decide)]
  rfl

lemma NamesMessage.processMessage {ts : UInt64} {bf : String} {bp : UInt32}
    {m : MysqlBinlogMessage} (hm : NamesMessage name ts bf bp kind m)
    (h : MysqlStreamHandle) :
    ∃ e, (h.processMessage m).2 = (h.implicitCommit ts bf bp).2++
        (if h.tableIsAllowed (some (String.ofList name.schema)) (String.ofList name.table) then [e]
          else []) ∧
      ∀ row, row.schema = some (String.ofList name.schema) → row.table = String.ofList name.table →
        SameTable kind e row := by
  have ha := implicitCommit_tableIsAllowed h ts bf bp
  cases hm with
  | ddl c hs ht =>
    refine ⟨_,by rw [processMessage,ha,hs,ht],fun row hr hn => ?_⟩
    refine ⟨by rw [hr,← hs]; rfl,rfl,by rw [hn,← ht]; rfl,?_⟩
    rw [CapturedDdl.toEvent_table,ht,hn]
  | truncate =>
    refine ⟨_,by rw [processMessage,ha],fun row hr hn => ?_⟩
    exact ⟨hr.symm,rfl,hn.symm⟩

/-- A statement that names a table with its database is reported as the table's rows are: under the
same filter, with their schema and their table. -/
theorem statement_names_table (h : Names name kind statement) (columns : ColumnParser)
    (p : LiveMysqlBinlogProvider) (database : String) (ts : UInt64) {change : MysqlRowChange}
    (hschema : change.schema = some (String.ofList name.schema))
    (htable : change.table = String.ofList name.table) :
    ∃ before message, (p.decodeEventData columns (.query database statement) ts).2 = .ok (before++[message]) ∧
      ∀ (handle : MysqlStreamHandle) (op : Operation), ∃ statementEvents rowEvents,
        (handle.processMessage message).2 = (handle.implicitCommit ts p.binlogFile p.nextPos).2++statementEvents ∧
        (handle.pushRow op change).partialTxEvents = handle.partialTxEvents++rowEvents ∧
        List.Forall₂ (SameTable kind) statementEvents rowEvents := by
  obtain ⟨before,message,hd,hm⟩ := h.decodeQuery columns p ts
  refine ⟨before,message,congrArg Except.ok hd,fun handle op => ?_⟩
  have hp := pushRow_events handle op change
  rw [hschema,htable] at hp
  obtain ⟨event,he,hs⟩ := hm.processMessage handle
  refine ⟨_,_,he,hp,?_⟩
  split
  · exact .cons (hs _ hschema htable) .nil
  · exact .nil

def shopOrders : QualifiedName :=
  ⟨.plain,.backticked,"shop".toList,"orders".toList,⟨by decide,by simp,by simp; decide⟩,⟨by decide,by simp,by simp; decide⟩⟩

/-- An `ALTER TABLE` of the table, logged in a session of another database. -/
theorem statement_names_table_sample : ∃ before message,
    ((LiveMysqlBinlogProvider.new [] "bin.000001" 4).decodeEventData noColumns
      (.query "sales" " alter table if exists shop.`orders` add note text") 7).2 = .ok (before++[message]) ∧
    ∀ (handle : MysqlStreamHandle) (op : Operation), ∃ statementEvents rowEvents,
      (handle.processMessage message).2 = (handle.implicitCommit 7 "bin.000001" 4).2++statementEvents ∧
      (handle.pushRow op ⟨some "shop","orders",none,none,none⟩).partialTxEvents = handle.partialTxEvents++rowEvents ∧
      List.Forall₂ (SameTable .ddl) statementEvents rowEvents := by
  have hw : OptionalWords .alterTable "if exists ".toList :=
    .ifExists (by decide) (show toUppercase "if exists".toList = _ by decide)
      (show Spaces " ".toList by decide) (by decide)
  have ht : NameEnds " add note text".toList := ⟨by simp,[],_,rfl,by simp,by rintro _ ⟨⟩; rfl⟩
  have hn : Names shopOrders .ddl " alter table if exists shop.`orders` add note text" :=
    .ddl (⟨[' '],"alter table".toList,[' '],by decide,by decide,by decide⟩ : Opening (ddlKeyword .alterTable)) hw ht ⟨rfl,rfl⟩
  exact statement_names_table hn noColumns _ "sales" 7 rfl rfl

/-- The schemas and tables a statement is reported under. -/
def reported (tableIsAllowed : Option String → String → Bool) (database statement : String) :
    List (Option String × String) :=
  match ((LiveMysqlBinlogProvider.new [] "bin.000001" 4).decodeEventData noColumns
    (.query database statement) 7).2 with
  | .error _ => []
  | .ok messages => ((MysqlStreamHandle.new "mysql" "bin.000001" 4 "" tableIsAllowed).processMessages
      messages).2.map fun e => (e.schema,e.table)

/-- A schema change goes under a table of its own. -/
theorem schema_change_apart : reported (fun _ _ => true) "shop" "ALTER TABLE shop.orders ADD note TEXT" =
    [(some "shop","orders__ddl_events")] := by
  decide +kernel
end
end Rustcdc.Mysql
