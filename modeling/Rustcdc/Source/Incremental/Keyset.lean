import Rustcdc.Lib.Connective
import Rustcdc.Lib.Paging

/-! The query that reads a chunk: its `WHERE` clause is put together as a text, from the key columns
behind which the chunk starts and the operator's condition on the rows. -/
namespace Rustcdc
open List
namespace Keyset
open Connective (Truth truth join)

/-- The words of a clause other than the connectives, with their text. -/
inductive Word
  | column (name text : String)
  | param (index : ℕ) (text : String)
  | eq | gt | comma
  | other (text : String)

abbrev Clause := List (Connective.Tree Word)

def Word.text : Word → String
  | .column _ text | .param _ text | .other text => text
  | .eq => "="
  | .gt => ">"
  | .comma => ","

def isComma : Connective.Tree Word → Bool
  | .word .comma => true
  | _ => false

/-- What is written in front of the rest of a clause. -/
def gap : Clause → String
  | [] => ""
  | tree::_ => if isComma tree then "" else " "

mutual
def treeText : Connective.Tree Word → String
  | .and => "AND"
  | .or => "OR"
  | .word w => w.text
  | .group body => "("++clauseText body++")"
def clauseText : Clause → String
  | [] => ""
  | tree::trees => treeText tree++gap trees++clauseText trees
end
/-- A key column, with the type a text is cast to. -/
structure KeyColumn where
  name : String
  pgType : String

def doubled (quote : Char) (identifier : String) : String :=
  String.ofList (identifier.toList.flatMap fun c => if c = quote then [c,c] else [c])

/-- `condition_clause` of the MySQL and PostgreSQL connectors. -/
def conditionClause (condition : Option String) (leadIn : String) : String :=
  match condition with
  | none => ""
  | some condition => leadIn++"("++condition++")"
end Keyset
namespace Mysql
open Keyset

def quotedMysqlIdentifier (identifier : String) : String := "`"++doubled (Char.ofNat 96) identifier++"`"

def fetchChunkSql (tableRef : String) (key : List KeyColumn) (cursor : Option ℕ) (limit : ℕ)
    (condition : Option String) : String :=
  let orderExpr := ", ".intercalate (key.map fun column => quotedMysqlIdentifier column.name)
  match cursor with
  | some width =>
    let placeholders := ", ".intercalate (List.replicate width "?")
    "SELECT * FROM "++tableRef++" AS t WHERE ("++orderExpr++") > ("++placeholders++")"++
      conditionClause condition " AND "++" ORDER BY "++orderExpr++" LIMIT "++toString limit
  | none => "SELECT * FROM "++tableRef++" AS t"++conditionClause condition " WHERE "++
      " ORDER BY "++orderExpr++" LIMIT "++toString limit
end Mysql
namespace Postgres
open Keyset

def quotePgIdentifier (identifier : String) : String := "\""++doubled '"' identifier++"\""

def fetchChunkSql (tableRef rowJson : String) (key : List KeyColumn) (cursor : Bool)
    (condition : Option String) : String :=
  let orderExpr := ", ".intercalate (key.map fun column => "t."++quotePgIdentifier column.name)
  let keyValueExpr := ", ".intercalate (key.map fun column => "t."++quotePgIdentifier column.name++"::text")
  let selected := "SELECT ARRAY["++keyValueExpr++"], "++rowJson++" FROM "++tableRef++" t"
  if cursor then
    let predicateExpr := ", ".intercalate (key.zipIdx.map fun (column,index) =>
      "$"++toString (index+1)++"::text::"++column.pgType)
    selected++" WHERE ("++orderExpr++") > ("++predicateExpr++")"++conditionClause condition " AND "++
      " ORDER BY "++orderExpr++" LIMIT $"++toString (key.length+1)
  else selected++conditionClause condition " WHERE "++" ORDER BY "++orderExpr++" LIMIT $1"
end Postgres
namespace Sqlserver
open Keyset

def quotedIdentifier (identifier : String) : String := "["++doubled ']' identifier++"]"

def buildSeekWhereClause (key : List KeyColumn) : String :=
  "WHERE "++" OR ".intercalate (key.zipIdx.map fun (column,index) =>
    let earlier := (key.zipIdx.take index).map fun (previous,prev) =>
      "t."++quotedIdentifier previous.name++" = @P"++toString (prev+1)
    let current := "t."++quotedIdentifier column.name++" > @P"++toString (index+1)
    if earlier.isEmpty then "("++current++")"
    else "("++" AND ".intercalate earlier++" AND "++current++")")

def buildPrefixedColumnProjection (columns : List String) (table : String) : String :=
  ", ".intercalate (columns.map fun column => table++"."++quotedIdentifier column)

def whereClause (key : List KeyColumn) (includeSeekWhereClause : Bool) (condition : Option String) : String :=
  match includeSeekWhereClause, condition with
  | true, some condition => buildSeekWhereClause key++" AND ("++condition++")"
  | true, none => buildSeekWhereClause key
  | false, some condition => "WHERE ("++condition++")"
  | false, none => ""

def buildSnapshotFetchSql (tableRef : String) (key : List KeyColumn) (columnNames : List String)
    (limitParamIndex : ℕ) (includeSeekWhereClause : Bool) (condition : Option String) : String :=
  let orderBy := ", ".intercalate (key.map fun column => quotedIdentifier column.name)
  let cursorProjection := buildPrefixedColumnProjection (key.map KeyColumn.name) "t"
  let rowProjection := buildPrefixedColumnProjection columnNames "t"
  "SELECT TOP (@P"++toString limitParamIndex++") (SELECT "++cursorProjection++
    " FOR JSON PATH, WITHOUT_ARRAY_WRAPPER) AS cursor_json, (SELECT "++rowProjection++
    " FOR JSON PATH, WITHOUT_ARRAY_WRAPPER) AS row_json FROM "++tableRef++" AS t "++
    whereClause key includeSeekWhereClause condition++" ORDER BY "++orderBy
end Sqlserver
namespace Keyset
open Connective (Truth truth join)
section
inductive Dialect
  | postgres | mysql | sqlserver
  deriving DecidableEq

def Dialect.columnText (d : Dialect) (column : KeyColumn) : String :=
  match d with
  | .postgres => "t."++Postgres.quotePgIdentifier column.name
  | .mysql => Mysql.quotedMysqlIdentifier column.name
  | .sqlserver => "t."++Sqlserver.quotedIdentifier column.name

def Dialect.paramText (d : Dialect) (column : KeyColumn × ℕ) : String :=
  match d with
  | .postgres => "$"++toString (column.2+1)++"::text::"++column.1.pgType
  | .mysql => "?"
  | .sqlserver => "@P"++toString (column.2+1)

def Dialect.column (d : Dialect) (column : KeyColumn) : Connective.Tree Word :=
  .word (.column column.name (d.columnText column))
def Dialect.param (d : Dialect) (column : KeyColumn × ℕ) : Connective.Tree Word :=
  .word (.param column.2 (d.paramText column))

def commas : List (Connective.Tree Word) → Clause
  | [] => []
  | [tree] => [tree]
  | tree::next::trees => tree::.word .comma::commas (next::trees)

/-- The columns before one are as the cursor has them and the column itself is past it. -/
def Dialect.alternative (d : Dialect) (earlier : List (KeyColumn × ℕ)) (column : KeyColumn × ℕ) : List Clause :=
  earlier.map (fun previous => [d.column previous.1,.word .eq,d.param previous])++
    [[d.column column.1,.word .gt,d.param column]]

/-- The comparison of the key with the cursor. -/
def Dialect.seek (d : Dialect) (key : List KeyColumn) : Clause :=
  match d with
  | .sqlserver => join .or (key.zipIdx.map fun column =>
      [.group (join .and (d.alternative (key.zipIdx.take column.2) column))])
  | _ => [.group (commas (key.map d.column)),.word .gt,.group (commas (key.zipIdx.map d.param))]

def Dialect.reading (d : Dialect) (key : List KeyColumn) (cursor : Bool) (condition : Option Clause) :
    Option Clause :=
  match cursor, condition with
  | true, some condition => some (d.seek key++[.and,.group condition])
  | true, none => some (d.seek key)
  | false, some condition => some [.group condition]
  | false, none => none

def whereText : Option Clause → String
  | none => ""
  | some clause => "WHERE "++clauseText clause

/-- The clause starts with something other than a comma. -/
def opens : Clause → Bool
  | [] => false
  | tree::_ => !isComma tree

variable {cl : Clause} {cla : List Clause} {co : Connective.Tree Word}

lemma gap_of_opens (h : opens cl = true) : gap cl = " " := by
  cases cl with
  | nil => simp [opens] at h
  | cons tree =>
    have hc : isComma tree = false := by simpa [opens] using h
    rw [gap,hc,if_neg (by simp)]

lemma clauseText_singleton (tree : Connective.Tree Word) : clauseText [tree] = treeText tree := by
  rw [clauseText,clauseText,gap,String.append_empty,String.append_empty]

lemma clauseText_append {xs ys : Clause} (hx : xs ≠ []) (hy : opens ys = true) :
    clauseText (xs++ys) = clauseText xs++" "++clauseText ys := by
  induction xs with
  | nil => exact absurd rfl hx
  | cons tree xs ih =>
    cases xs with
    | nil =>
      rw [clauseText_singleton,singleton_append,clauseText,gap_of_opens hy]
    | cons n xs =>
      have hg : gap (n::xs++ys) = gap (n::xs) := rfl
      rw [cons_append,clauseText,ih (by simp),hg]
      rw [clauseText.eq_2 tree]
      simp only [String.append_assoc]

lemma opens_join (h : opens cl = true) : opens (join co (cl::cla)) = true := by
  cases cl with
  | nil => simp [opens] at h
  | cons =>
    cases cla with
    | nil | cons => exact h

lemma clauseText_join (hc : isComma co = false) (h : ∀ cl ∈ cla, opens cl = true) :
    clauseText (join co cla) = (" "++treeText co++" ").intercalate (cla.map clauseText) := by
  fun_induction join co cla with
  | case1 => rw [clauseText,map_nil,String.intercalate_nil]
  | case2 => rw [map_singleton,String.intercalate_singleton]
  | case3 cl n cla ih =>
    have hr := ih fun other ho => h other (mem_cons_of_mem _ ho)
    have hcl : cl ≠ [] := by
      rintro rfl
      exact absurd (h [] (by simp)) (by simp [opens])
    have hn : opens (join co (n::cla)) = true := opens_join (h n (by simp))
    rw [clauseText_append hcl (by rw [opens,hc]; rfl),clauseText,gap_of_opens hn,
      hr,map_cons (a := cl),String.intercalate_cons_of_ne_nil (by simp)]
    simp only [String.append_assoc]

lemma clauseText_commas {trees : List (Connective.Tree Word)} (h : ∀ tree ∈ trees, isComma tree = false) :
    clauseText (commas trees) = ", ".intercalate (trees.map treeText) := by
  fun_induction commas trees with
  | case1 => rw [clauseText,map_nil,String.intercalate_nil]
  | case2 => rw [clauseText_singleton,map_singleton,String.intercalate_singleton]
  | case3 tree n trees ih =>
    have hr := ih fun other ho => h other (mem_cons_of_mem _ ho)
    have hop : opens (commas (n::trees)) = true := by
      cases trees <;> simp [commas,opens,h n]
    rw [clauseText,clauseText,gap_of_opens hop,hr,map_cons (a := tree),
      String.intercalate_cons_of_ne_nil (by simp),gap,isComma,if_pos rfl,String.append_empty,
      ← String.append_assoc]
    rfl

lemma intercalate_concat (sep : String) (texts : List String) (last : String) : sep.intercalate (texts++[last]) =
      if texts.isEmpty then last else sep.intercalate texts++sep++last := by
  induction texts with
  | nil => rw [nil_append,String.intercalate_singleton]; rfl
  | cons t texts ih =>
    rw [cons_append,String.intercalate_cons_of_ne_nil (by simp),ih]
    cases texts with
    | nil => simp [String.intercalate_singleton]
    | cons =>
      rw [String.intercalate_cons_cons]
      simp [String.append_assoc]

structure ChunkQuery where
  tableRef : String
  rowJson : String
  columnNames : List String
  key : List KeyColumn
  cursor : Bool
  limit : ℕ
  condition : Option String
section
variable (d : Dialect) (q : ChunkQuery)

def Dialect.sql : String :=
  match d with
  | .postgres => Postgres.fetchChunkSql q.tableRef q.rowJson q.key q.cursor q.condition
  | .mysql => Mysql.fetchChunkSql q.tableRef q.key (if q.cursor then some q.key.length else none) q.limit q.condition
  | .sqlserver => Sqlserver.buildSnapshotFetchSql q.tableRef q.key q.columnNames
      ((if q.cursor then q.key.length else 0)+1) q.cursor q.condition

/-- What stands before the clause, with the blank it leaves for it. -/
def Dialect.select : String :=
  match d with
  | .postgres => "SELECT ARRAY["++", ".intercalate (q.key.map fun column =>
      "t."++Postgres.quotePgIdentifier column.name++"::text")++"], "++q.rowJson++" FROM "++
      q.tableRef++" t"++(if q.cursor || q.condition.isSome then " " else "")
  | .mysql => "SELECT * FROM "++q.tableRef++" AS t"++ (if q.cursor || q.condition.isSome then " " else "")
  | .sqlserver => "SELECT TOP (@P"++toString ((if q.cursor then q.key.length else 0)+1)++
      ") (SELECT "++Sqlserver.buildPrefixedColumnProjection (q.key.map KeyColumn.name) "t"++
      " FOR JSON PATH, WITHOUT_ARRAY_WRAPPER) AS cursor_json, (SELECT "++
      Sqlserver.buildPrefixedColumnProjection q.columnNames "t"++
      " FOR JSON PATH, WITHOUT_ARRAY_WRAPPER) AS row_json FROM "++q.tableRef++" AS t "

/-- What stands behind the clause. -/
def Dialect.order : String :=
  match d with
  | .postgres => " ORDER BY "++", ".intercalate (q.key.map fun column =>
      "t."++Postgres.quotePgIdentifier column.name)++
      " LIMIT $"++toString ((if q.cursor then q.key.length else 0)+1)
  | .mysql => " ORDER BY "++", ".intercalate (q.key.map fun column =>
      Mysql.quotedMysqlIdentifier column.name)++" LIMIT "++toString q.limit
  | .sqlserver => " ORDER BY "++", ".intercalate (q.key.map fun column =>
      Sqlserver.quotedIdentifier column.name)
end
lemma isComma_column (d : Dialect) (cs : List KeyColumn) : ∀ tree ∈ cs.map d.column, isComma tree = false := by
  intro tree ht
  obtain ⟨column,_,rfl⟩ := mem_map.mp ht
  rfl

lemma isComma_param (d : Dialect) (cs : List (KeyColumn × ℕ)) : ∀ tree ∈ cs.map d.param, isComma tree = false := by
  intro tree ht
  obtain ⟨column,_,rfl⟩ := mem_map.mp ht
  rfl

lemma clauseText_three {a b c : Connective.Tree Word} (hb : isComma b = false) (hc : isComma c = false) :
    clauseText [a,b,c] = treeText a++" "++treeText b++" "++treeText c := by
  rw [clauseText,clauseText,clauseText_singleton,gap_of_opens (by rw [opens,hb]; rfl),
    gap_of_opens (by rw [opens,hc]; rfl),← String.append_assoc,← String.append_assoc]

variable {d : Dialect} {key : List KeyColumn}

lemma seek_row (hd : d ≠ .sqlserver) :
    d.seek key = [.group (commas (key.map d.column)),.word .gt,.group (commas (key.zipIdx.map d.param))] := by
  cases d with
  | sqlserver => exact absurd rfl hd
  | postgres | mysql => rfl

lemma seek_text_row (hd : d ≠ .sqlserver) (key : List KeyColumn) :
    clauseText (d.seek key) = "("++", ".intercalate (key.map fun column => treeText (d.column column))++
      ") > ("++", ".intercalate (key.zipIdx.map fun column => treeText (d.param column))++")" := by
  rw [seek_row hd,clauseText_three rfl rfl,treeText,treeText,treeText,
    clauseText_commas (isComma_column d key),clauseText_commas (isComma_param d key.zipIdx),
    map_map,map_map,Word.text]
  simp only [String.append_assoc]
  rfl

lemma alternative_text (ea : List (KeyColumn × ℕ)) (column : KeyColumn × ℕ) :
    clauseText (join .and (Dialect.sqlserver.alternative ea column)) =
      let before := ea.map fun (pv,prev) =>
        "t."++Sqlserver.quotedIdentifier pv.name++" = @P"++toString (prev+1)
      let current := "t."++Sqlserver.quotedIdentifier column.1.name++" > @P"++toString (column.2+1)
      if before.isEmpty then current else " AND ".intercalate before++" AND "++current := by
  have ho : ∀ cl ∈ Dialect.sqlserver.alternative ea column, opens cl = true := by
    intro cl hc
    simp only [Dialect.alternative,mem_append,mem_map,mem_singleton] at hc
    rcases hc with ⟨pv,_,rfl⟩ | rfl <;> rfl
  have he : ea.map (fun pv => clauseText [Dialect.sqlserver.column pv.1,
      .word .eq,Dialect.sqlserver.param pv]) = ea.map fun (pv,prev) =>
        "t."++Sqlserver.quotedIdentifier pv.name++" = @P"++toString (prev+1) := by
    refine map_congr_left fun pv _ => ?_
    rw [clauseText_three rfl rfl]
    simp only [String.append_assoc]
    rfl
  have hcu : clauseText [Dialect.sqlserver.column column.1,.word .gt,Dialect.sqlserver.param column] =
        "t."++Sqlserver.quotedIdentifier column.1.name++" > @P"++toString (column.2+1) := by
    rw [clauseText_three rfl rfl]
    simp only [String.append_assoc]
    rfl
  rw [clauseText_join rfl ho,Dialect.alternative,map_append,map_map,map_singleton,hcu,intercalate_concat]
  have hco : (clauseText ∘ fun pv : KeyColumn × ℕ => [Dialect.sqlserver.column pv.1,
      Connective.Tree.word Word.eq,Dialect.sqlserver.param pv]) = fun pv => clauseText
        [Dialect.sqlserver.column pv.1,.word .eq,Dialect.sqlserver.param pv] := rfl
  rw [hco,he]
  rfl

lemma seek_text_chain (key : List KeyColumn) :
    "WHERE "++clauseText (Dialect.sqlserver.seek key) = Sqlserver.buildSeekWhereClause key := by
  have ho : ∀ cl ∈ key.zipIdx.map (fun column => ([.group (join .and
      (Dialect.sqlserver.alternative (key.zipIdx.take column.2) column))] : Clause)),
      opens cl = true := by
    intro cl hc
    obtain ⟨column,_,rfl⟩ := mem_map.mp hc
    rfl
  rw [Dialect.seek,clauseText_join rfl ho,map_map,Sqlserver.buildSeekWhereClause]
  refine congrArg ("WHERE "++·) (congrArg (" OR ".intercalate) (map_congr_left fun column _ => ?_))
  rw [Function.comp_apply,clauseText_singleton,treeText,alternative_text]
  dsimp only
  split <;> simp only [String.append_assoc]

lemma seek_ne_nil (hk : key ≠ []) : d.seek key ≠ [] := by
  cases d with
  | postgres | mysql => simp [Dialect.seek]
  | sqlserver =>
    cases key with
    | nil => exact absurd rfl hk
    | cons column key =>
      rw [Dialect.seek,zipIdx_cons,map_cons]
      cases key <;> simp [join]

/-- What the server reads of a condition that is one opaque piece of text. -/
def given (condition : Option String) : Option Clause := condition.map fun text => [.word (.other text)]

lemma conditionClause_text (hk : key ≠ []) (cd : Option String) : whereText (d.reading key true (given cd)) =
      "WHERE "++clauseText (d.seek key)++conditionClause cd " AND " := by
  cases cd with
  | none => rw [given,Option.map_none,Dialect.reading,whereText,conditionClause,String.append_empty]
  | some =>
    rw [given,Option.map_some,Dialect.reading,whereText,clauseText_append (seek_ne_nil hk) rfl,
      clauseText,clauseText_singleton,treeText,treeText,clauseText_singleton,treeText,conditionClause]
    simp only [gap,isComma,Word.text,String.append_assoc]
    rfl

lemma whereText_first (d : Dialect) (key : List KeyColumn) (cd : Option String) :
    whereText (d.reading key false (given cd)) = conditionClause cd "WHERE " := by
  cases cd with
  | none => rfl
  | some =>
    rw [given,Option.map_some,Dialect.reading,whereText,clauseText_singleton,treeText,
      clauseText_singleton,treeText,Word.text,conditionClause]
    simp only [String.append_assoc]

lemma conditionClause_lead (cd : Option String) : conditionClause cd " WHERE " =
    (if cd.isSome then " " else "")++conditionClause cd "WHERE " := by
  cases cd with
  | none => rfl
  | some =>
    rw [conditionClause,conditionClause,Option.isSome_some,if_pos rfl]
    simp only [← String.append_assoc]
    rfl

lemma postgres_sql (q : ChunkQuery) (hk : q.key ≠ []) : Dialect.postgres.sql q =
    Dialect.postgres.select q++whereText (Dialect.postgres.reading q.key q.cursor (given q.condition))++
      Dialect.postgres.order q := by
  have hl : " WHERE (" = " "++("WHERE "++"(") := rfl
  have hp : q.key.zipIdx.map (fun column => treeText (Dialect.postgres.param column)) =
      q.key.zipIdx.map fun (column,i) =>
        "$"++toString (i+1)++"::text::"++column.pgType := rfl
  unfold Dialect.sql Dialect.select Dialect.order Postgres.fetchChunkSql
  cases q.cursor with
  | true =>
    rw [conditionClause_text hk,seek_text_row (by simp),hp]
    simp only [Bool.true_or,if_true,hl,String.append_assoc]
    rfl
  | false =>
    rw [whereText_first,Bool.false_or]
    simp only [Bool.false_eq_true,if_false,conditionClause_lead,String.append_assoc]
    rfl

lemma mysql_sql (q : ChunkQuery) (hk : q.key ≠ []) : Dialect.mysql.sql q =
    Dialect.mysql.select q++whereText (Dialect.mysql.reading q.key q.cursor (given q.condition))++
      Dialect.mysql.order q := by
  have hp : q.key.zipIdx.map (fun column => treeText (Dialect.mysql.param column)) =
      List.replicate q.key.length "?" := by
    rw [eq_replicate_iff]
    refine ⟨by simp,fun t ht => ?_⟩
    obtain ⟨column,_,rfl⟩ := mem_map.mp ht
    rfl
  have hl : " AS t WHERE (" = " AS t"++(" "++("WHERE "++"(")) := rfl
  unfold Dialect.sql Dialect.select Dialect.order Mysql.fetchChunkSql
  cases q.cursor with
  | true =>
    rw [conditionClause_text hk,seek_text_row (by simp),hp]
    simp only [Bool.true_or,if_true,hl,String.append_assoc]
    rfl
  | false =>
    rw [whereText_first,Bool.false_or]
    simp [conditionClause_lead,String.append_assoc]

lemma sqlserver_whereClause (hk : key ≠ []) (cursor : Bool) (cd : Option String) :
    Sqlserver.whereClause key cursor cd = whereText (Dialect.sqlserver.reading key cursor (given cd)) := by
  cases cursor with
  | true =>
    rw [conditionClause_text hk,seek_text_chain]
    cases cd with
    | none => exact (String.append_empty).symm
    | some =>
      have hl : " AND (" = " AND "++"(" := rfl
      simp only [Sqlserver.whereClause,conditionClause,hl,String.append_assoc]
  | false =>
    rw [whereText_first]
    cases cd <;> rfl

lemma sql_eq (d : Dialect) (q : ChunkQuery) (hk : q.key ≠ []) :
    d.sql q = d.select q++whereText (d.reading q.key q.cursor (given q.condition))++d.order q := by
  cases d with
  | postgres => exact postgres_sql q hk
  | mysql => exact mysql_sql q hk
  | sqlserver =>
    unfold Dialect.sql Dialect.select Dialect.order Sqlserver.buildSnapshotFetchSql
    rw [← sqlserver_whereClause hk]
    simp only [String.append_assoc]
end
section
variable {V : Type} [LinearOrder V]

def columnsOf : Clause → Option (List String)
  | [.word (.column name _)] => some [name]
  | .word (.column name _)::.word .comma::rest => (columnsOf rest).map (name::·)
  | _ => none

def paramsOf : Clause → Option (List ℕ)
  | [.word (.param index _)] => some [index]
  | .word (.param index _)::.word .comma::rest => (paramsOf rest).map (index::·)
  | _ => none
section
variable (row : String → V) (cursor : List V) (other : Clause → Truth)

/-- What the server makes of a comparison of a row with the parameters it is given.  Anything else is
part of the operator's condition, of which it makes what it will. -/
def comparison : Clause → Truth
  | [.word (.column name _),.word .eq,.word (.param index _)] =>
    cursor[index]?.map fun value => row name = value
  | [.word (.column name _),.word .gt,.word (.param index _)] =>
    cursor[index]?.map fun value => value < row name
  | [.group columns,.word .gt,.group params] =>
    match columnsOf columns, paramsOf params with
    | some columns, some params =>
      (params.mapM (cursor[·]?)).map fun values => values < columns.map row
    | _, _ => other [.group columns,.word .gt,.group params]
  | clause => other clause

def passes : Option Clause → Truth
  | none => some true
  | some clause => truth (comparison row cursor other) clause
end
def keyOf (key : List KeyColumn) (row : String → V) : List V := key.map fun column => row column.name

variable {row : String → V} {cursor : List V} {o : Clause → Truth} (d : Dialect)

lemma columnsOf_commas {key : List KeyColumn} (hk : key ≠ []) :
    columnsOf (commas (key.map d.column)) = some (key.map KeyColumn.name) := by
  induction key with
  | nil => exact absurd rfl hk
  | cons column key ih =>
    cases key with
    | nil => rfl
    | cons =>
      have hr := ih (by simp)
      rw [map_cons,map_cons,commas,Dialect.column,columnsOf]
      rw [map_cons] at hr
      rw [hr]
      rfl

lemma paramsOf_commas {cs : List (KeyColumn × ℕ)} (hn : cs ≠ []) :
    paramsOf (commas (cs.map d.param)) = some (cs.map Prod.snd) := by
  induction cs with
  | nil => exact absurd rfl hn
  | cons column cs ih =>
    cases cs with
    | nil => rfl
    | cons =>
      have hr := ih (by simp)
      rw [map_cons,map_cons,commas,Dialect.param,paramsOf]
      rw [map_cons] at hr
      rw [hr]
      rfl

lemma mapM_indices {W : Type} {cs : List KeyColumn} {don : List W} (rest : List W) (h : rest.length = cs.length) :
    ((cs.zipIdx don.length).map Prod.snd).mapM ((don++rest)[·]?) = some rest := by
  induction cs generalizing don rest with
  | nil =>
    rw [eq_nil_of_length_eq_zero h]
    rfl
  | cons column cs ih =>
    cases rest with
    | nil => simp at h
    | cons v rest =>
      have hr := @ih (don++[v]) rest (by simpa using h)
      rw [length_append,length_singleton,append_assoc,singleton_append] at hr
      rw [zipIdx_cons,map_cons,mapM_cons,hr]
      simp

lemma truth_rowComparison {d : Dialect} (hd : d ≠ .sqlserver) {key : List KeyColumn}
    (hk : key ≠ []) (hc : cursor.length = key.length) :
    truth (comparison row cursor o) (d.seek key) = some (decide (cursor < keyOf key row)) := by
  have hi := @mapM_indices V key [] cursor hc
  rw [nil_append,length_nil] at hi
  rw [seek_row hd,Connective.truth_leaf _ (by simp [Connective.NoOr,Connective.Tree.isOr])
    (by simp [Connective.NoAnd,Connective.Tree.isAnd]) (by simp),comparison,columnsOf_commas d hk,
    paramsOf_commas d (by simpa using hk)]
  dsimp only
  rw [hi,Option.map_some,map_map]
  rfl

lemma truth_comparison {n t t' : String} {i : ℕ} {v : V} (hv : cursor[i]? = some v) :
    truth (comparison row cursor o) [.word (.column n t),.word .eq,.word (.param i t')] = some (decide (row n = v)) ∧
    truth (comparison row cursor o) [.word (.column n t),.word .gt,.word (.param i t')] =
      some (decide (v < row n)) := by
  constructor
  · rw [Connective.truth_leaf _ (by simp [Connective.NoOr,Connective.Tree.isOr])
      (by simp [Connective.NoAnd,Connective.Tree.isAnd]) (by simp),comparison,hv,Option.map_some]
  · rw [Connective.truth_leaf _ (by simp [Connective.NoOr,Connective.Tree.isOr])
      (by simp [Connective.NoAnd,Connective.Tree.isAnd]) (by simp),comparison,hv,Option.map_some]
section
variable (row : String → V) (cursor : List V) (column : KeyColumn × ℕ)

def agrees : Bool := cursor[column.2]? = some (row column.1.name)
def exceeds : Bool := cursor[column.2]?.any (· < row column.1.name)
end
variable {c : KeyColumn × ℕ}

lemma truth_agrees (h : c.2 < cursor.length) : truth (comparison row cursor o) [d.column c.1,.word .eq,d.param c] =
      some (agrees row cursor c) := by
  have hv := List.getElem?_eq_getElem h
  rw [Dialect.column,Dialect.param,(truth_comparison hv).1,agrees,hv]
  simp [eq_comm]

lemma truth_exceeds (h : c.2 < cursor.length) : truth (comparison row cursor o) [d.column c.1,.word .gt,d.param c] =
      some (exceeds row cursor c) := by
  have hv := List.getElem?_eq_getElem h
  rw [Dialect.column,Dialect.param,(truth_comparison hv).2,exceeds,hv]
  simp

lemma truth_alternative {ea : List (KeyColumn × ℕ)} (he : ∀ pv ∈ ea, pv.2 < cursor.length) (h : c.2 < cursor.length) :
    truth (comparison row cursor o) (join .and (d.alternative ea c)) =
      some (ea.all (agrees row cursor) && exceeds row cursor c) := by
  have hn : ∀ clause ∈ d.alternative ea c, Connective.NoOr clause := by
    intro clause hc
    simp only [Dialect.alternative,mem_append,mem_map,mem_singleton] at hc
    rcases hc with ⟨pv,_,rfl⟩ | rfl <;>
      simp [Connective.NoOr,Connective.Tree.isOr,Dialect.column,Dialect.param]
  have hv : (d.alternative ea c).map (truth (comparison row cursor o)) =
      (ea.map (agrees row cursor)++[exceeds row cursor c]).map some := by
    rw [Dialect.alternative,map_append,map_append,map_map,map_map,map_singleton,map_singleton,truth_exceeds d h]
    refine congrArg (·++_) (map_congr_left fun pv hp => ?_)
    exact truth_agrees d (he pv hp)
  rw [Connective.truth_join_and _ (by simp [Dialect.alternative]) hn,hv,Truth.all_some]
  simp [all_append,all_map]

/-- Some column is past the cursor and those before it agree with it: the lexicographic order. -/
theorem any_exceeds {don r : List V} {cs : List KeyColumn} (h : r.length = cs.length) :
    ((cs.zipIdx don.length).any fun c =>
      ((cs.zipIdx don.length).take (c.2-don.length)).all (agrees row (don++r)) &&
        exceeds row (don++r) c) = decide (r < keyOf cs row) := by
  induction cs generalizing don r with
  | nil =>
    rw [eq_nil_of_length_eq_zero h]
    rfl
  | cons c cs ih =>
    cases r with
    | nil => simp at h
    | cons v r =>
      have hr := @ih (don++[v]) r (by simpa using h)
      rw [length_append,length_singleton,append_assoc,singleton_append] at hr
      have ha : agrees row (don++v::r) (c,don.length) =
          decide (v = row c.name) := by simp [agrees]
      have he : exceeds row (don++v::r) (c,don.length) =
          decide (v < row c.name) := by simp [exceeds]
      -- for a later column the first one is among those before it
      have hl : ((cs.zipIdx (don.length+1)).any fun o =>
          (((c,don.length)::cs.zipIdx (don.length+1)).take (o.2-don.length)).all
            (agrees row (don++v::r)) && exceeds row (don++v::r) o) =
          (decide (v = row c.name) && decide (r < keyOf cs row)) := by
        rw [← hr,← ha,and_any_distrib_left]
        rw [Bool.eq_iff_iff,any_eq_true,any_eq_true]
        refine exists_congr fun o => and_congr_right fun ho => ?_
        have hi : o.2-don.length = o.2-(don.length+1)+1 := by
          have := le_snd_of_mem_zipIdx ho
          omega
        rw [hi,take_succ_cons,all_cons,Bool.and_assoc]
      rw [zipIdx_cons,any_cons,hl,Nat.sub_self,take_zero,all_nil,Bool.true_and,he,Bool.eq_iff_iff]
      change _ ↔ decide (v::r < row c.name::keyOf cs row) = true
      rw [decide_eq_true_iff,cons_lt_cons_iff,Bool.or_eq_true,Bool.and_eq_true,
        decide_eq_true_iff,decide_eq_true_iff,decide_eq_true_iff]

lemma truth_chain {key : List KeyColumn} (hk : key ≠ []) (hcu : cursor.length = key.length) :
    truth (comparison row cursor o) (Dialect.sqlserver.seek key) = some (decide (cursor < keyOf key row)) := by
  have hi : ∀ c ∈ key.zipIdx, c.2 < cursor.length := by
    intro c hc
    have := snd_lt_of_mem_zipIdx hc
    omega
  have hv : (key.zipIdx.map fun c => ([.group (join .and
      (Dialect.sqlserver.alternative (key.zipIdx.take c.2) c))] : Clause)).map
        (truth (comparison row cursor o)) = (key.zipIdx.map fun c =>
      (key.zipIdx.take c.2).all (agrees row cursor) && exceeds row cursor c).map some := by
    rw [map_map,map_map]
    refine map_congr_left fun c hc => ?_
    rw [Function.comp_apply,Connective.truth_group]
    exact truth_alternative _ (fun pv hp => hi pv (mem_of_mem_take hp)) (hi c hc)
  have ha := @any_exceeds V _ row [] cursor key hcu
  rw [Dialect.seek,Connective.truth_join_or _ (by simpa using hk),hv,Truth.any_some,any_map]
  exact congrArg some ha

/-- The comparison of each dialect is the lexicographic one. -/
theorem truth_seek {key : List KeyColumn} (hk : key ≠ []) (hc : cursor.length = key.length) :
    truth (comparison row cursor o) (d.seek key) = some (decide (cursor < keyOf key row)) := by
  cases d with
  | sqlserver => exact truth_chain hk hc
  | postgres | mysql => exact truth_rowComparison (by simp) hk hc

lemma join_concat (co : Connective.Tree Word) (cls : List Clause) (x y : Clause) :
    join co (cls++[x])++y = join co (cls++[x++y]) := by
  induction cls with
  | nil => rfl
  | cons z cls ih =>
    cases cls with
    | nil => simp [join]
    | cons w cls =>
      simp only [cons_append,join,append_assoc] at ih ⊢
      rw [ih]

lemma any_congr_left {α : Type} {xs : List α} {p q : α → Bool} (h : ∀ x ∈ xs, p x = q x) : xs.any p = xs.any q := by
  have hm := congrArg (List.any · id) (map_congr_left h)
  simpa only [any_map,Function.id_comp] using hm

lemma all_congr_left {α : Type} {xs : List α} {p q : α → Bool} (h : ∀ x ∈ xs, p x = q x) : xs.all p = xs.all q := by
  have hm := congrArg (List.all · id) (map_congr_left h)
  simpa only [all_map,Function.id_comp] using hm

lemma agrees_append {vi : List V} (vl : V) (h : c.2 < vi.length) : agrees row (vi++[vl]) c = agrees row vi c := by
  rw [agrees,agrees,List.getElem?_append_left h]

lemma exceeds_append {vi : List V} (vl : V) (h : c.2 < vi.length) : exceeds row (vi++[vl]) c = exceeds row vi c := by
  rw [exceeds,exceeds,List.getElem?_append_left h]

/-- On SQL Server a condition narrows the alternative of the last column only. -/
theorem truth_narrowed {init : List KeyColumn} {column : KeyColumn} {vi : List V} {vl : V} (hl : vi.length = init.length)
    (condition : Clause) : ∃ last : Bool,
      truth (comparison row (vi++[vl]) o) (Dialect.sqlserver.seek (init++[column])++[.and,.group condition]) =
        Truth.or (some (decide (vi < keyOf init row)))
          (Truth.and (some last) (truth (comparison row (vi++[vl]) o) condition)) ∧
      decide (vi++[vl] < keyOf (init++[column]) row) = (decide (vi < keyOf init row) || last) := by
  have hz : (init++[column]).zipIdx = init.zipIdx++[(column,init.length)] := by simp [zipIdx_append]
  have hi : ∀ c ∈ (init++[column]).zipIdx, c.2 < (vi++[vl]).length := by
    intro c hc
    have := snd_lt_of_mem_zipIdx hc
    simp only [length_append,length_singleton] at this ⊢
    omega
  let alternative := fun c : KeyColumn × ℕ =>
    ((init++[column]).zipIdx.take c.2).all (agrees row (vi++[vl])) && exceeds row (vi++[vl]) c
  have ha : ∀ c ∈ (init++[column]).zipIdx, truth (comparison row (vi++[vl]) o) [.group (join .and
      (Dialect.sqlserver.alternative ((init++[column]).zipIdx.take c.2) c))] = some (alternative c) := by
    intro c hc
    rw [Connective.truth_group]
    exact truth_alternative _ (fun pv hp => hi pv (mem_of_mem_take hp)) (hi c hc)
  -- the earlier columns compare as a key of their own
  have hb : init.zipIdx.any alternative = decide (vi < keyOf init row) := by
    have he := @any_exceeds V _ row [] vi init hl
    rw [length_nil,nil_append] at he
    rw [← he]
    refine any_congr_left fun c hc => ?_
    have hc' : c.2 < init.length := by
      have := snd_lt_of_mem_zipIdx hc
      omega
    have ht : (init++[column]).zipIdx.take c.2 = init.zipIdx.take c.2 := by
      rw [hz,take_append_of_le_length (by rw [length_zipIdx]; omega)]
    simp only [alternative,ht,Nat.sub_zero]
    rw [exceeds_append vl (by omega)]
    refine congrArg (· && _) (all_congr_left fun pv hp => agrees_append vl ?_)
    have := snd_lt_of_mem_zipIdx (mem_of_mem_take hp)
    omega
  have hw := @any_exceeds V _ row [] (vi++[vl]) (init++[column]) (by simp [hl])
  refine ⟨alternative (column,init.length),?_,?_⟩
  · rw [Dialect.seek,hz,map_append,map_singleton,join_concat,Connective.truth_join_or _ (by simp),map_append,
      Truth.any_append,map_singleton,map_map]
    have hm : init.zipIdx.map (truth (comparison row (vi++[vl]) o) ∘ fun c => [.group (join .and
        (Dialect.sqlserver.alternative ((init.zipIdx++[(column,init.length)]).take c.2) c))]) =
        (init.zipIdx.map alternative).map some := by
      rw [map_map]
      refine map_congr_left fun c hc => ?_
      rw [← hz]
      exact ha c (hz ▸ mem_append_left _ hc)
    rw [hm,Truth.any_some,any_map,Function.id_comp,hb]
    congr 1
    have hn : Connective.NoOr ([.group (join .and (Dialect.sqlserver.alternative
        ((init.zipIdx++[(column,init.length)]).take init.length) (column,init.length)))] : Clause) := by
      simp [Connective.NoOr,Connective.Tree.isOr]
    change Truth.or _ (some false) = _
    rw [Truth.or_false]
    have hl := ha (column,init.length) (hz ▸ mem_append_right _ (mem_singleton_self _))
    rw [hz] at hl
    have ht := Connective.truth_and (comparison row (vi++[vl]) o) hn
      (show Connective.NoOr ([.group condition] : Clause) by simp [Connective.NoOr,Connective.Tree.isOr])
    rw [hl,Connective.truth_group] at ht
    exact ht
  · rw [← hb,← hw,length_nil,nil_append,hz,any_append,any_cons,any_nil,Bool.or_false]
    simp only [Nat.sub_zero,alternative,hz]

/-- No `OR` of the comparison is left outside parentheses: not so for several key columns on
SQL Server. -/
theorem seek_noOr {d : Dialect} {key : List KeyColumn} (h : d = .sqlserver → key.length ≤ 1) :
    Connective.NoOr (d.seek key) := by
  cases d with
  | postgres | mysql => simp [Connective.NoOr,Dialect.seek,Connective.Tree.isOr]
  | sqlserver =>
    have hl := h rfl
    rcases key with _ | ⟨c,_ | ⟨_,_⟩⟩
    · simp [Connective.NoOr,Dialect.seek,join]
    · simp [Connective.NoOr,Dialect.seek,join,Connective.Tree.isOr]
    · simp at hl
section
variable (key : List KeyColumn) (row : String → V)

/-- What the clause is meant to say: the key is past the cursor, in lexicographic order, and the
condition holds. -/
def intended (cursor : Option (List V)) (condition : Option Truth) : Truth :=
  Truth.and (some (Paging.past (keyOf key) cursor row)) (condition.getD (some true))

lemma past_some (vs : List V) : Paging.past (keyOf key) (some vs) row = decide (vs < keyOf key row) :=
  decide_eq_decide.mpr Iff.rfl
end
lemma passes_reading {key : List KeyColumn} (hk : key ≠ []) {cursor : Option (List V)}
    (hc : ∀ vs ∈ cursor, vs.length = key.length) {cd : Option Clause}
    (hf : d = .sqlserver → key.length ≤ 1 ∨ cursor = none ∨ cd = none) :
    passes row (cursor.getD []) o (d.reading key cursor.isSome cd) = intended key row cursor
        (cd.map (truth (comparison row (cursor.getD []) o))) := by
  cases cursor with
  | none =>
    cases cd with
    | none => rfl
    | some clause => exact Connective.truth_group _ clause
  | some vs =>
    have hs := @truth_seek V _ row vs o d key hk (hc vs rfl)
    cases cd with
    | none =>
      rw [Option.isSome_some,Dialect.reading,passes,Option.getD_some,hs,intended,Option.map_none,
        Option.getD_none,Truth.and_true,past_some]
    | some =>
      have hn := @seek_noOr d key fun hd => (hf hd).resolve_right (by simp)
      rw [Option.isSome_some,Dialect.reading,passes,Option.getD_some,
        Connective.truth_and _ hn (by simp [Connective.NoOr,Connective.Tree.isOr]),hs,
        Connective.truth_group,intended,past_some]
      rfl
end
section
variable {V : Type} [LinearOrder V] (other : (String → V) → Clause → Truth)

/-- A condition on the rows of a table: it reads no parameter of the query. -/
structure RowCondition where
  clause : Clause
  reads_row : ∀ row cursor, truth (comparison row cursor (other row)) clause =
    truth (comparison row [] (other row)) clause

variable {other}

def RowCondition.truth (condition : RowCondition other) (row : String → V) : Truth :=
  Connective.truth (comparison row [] (other row)) condition.clause
def meets (condition : Option (RowCondition other)) (row : String → V) : Bool :=
  (condition.map fun condition => condition.truth row).getD (some true) = some true

/-- A chunk: the first rows in key order that pass the clause. -/
def fetchChunk (d : Dialect) (key : List KeyColumn) (condition : Option (RowCondition other))
    (rows : List (String → V)) (limit : ℕ) (cursor : Option (List V)) : List (String → V) :=
  (rows.filter fun row => passes row (cursor.getD []) (other row)
    (d.reading key cursor.isSome (condition.map RowCondition.clause)) = some true).take limit

lemma condition_truth (cd : Option (RowCondition other)) (row : String → V) (cursor : List V) :
    (cd.map RowCondition.clause).map (truth (comparison row cursor (other row))) = cd.map fun cd => cd.truth row := by
  rw [Option.map_map]
  exact congrArg (Option.map · cd) (funext fun cd => cd.reads_row row cursor)

/-- The clause has another truth value than it is meant to have exactly on SQL Server, for a row that is
past the cursor on a column before the last and of which the condition is not true. -/
theorem passes_reading_iff (d : Dialect) {key : List KeyColumn} (hk : key ≠ [])
    (cd : Option (RowCondition other)) (row : String → V) {cursor : Option (List V)}
    (hc : ∀ vs ∈ cursor, vs.length = key.length) :
    passes row (cursor.getD []) (other row) (d.reading key cursor.isSome (cd.map RowCondition.clause)) =
        intended key row cursor (cd.map fun cd => cd.truth row) ↔
      (d = .sqlserver → ∀ vs ∈ cursor, ∀ c ∈ cd, vs.dropLast < (keyOf key row).dropLast → c.truth row = some true) := by
  by_cases hf : d = .sqlserver → cursor = none ∨ cd = none
  · have hp := @passes_reading V _ row (other row) d key hk cursor hc (cd.map RowCondition.clause)
      fun hd => (hf hd).elim (fun h => .inr (.inl h)) fun h => .inr (.inr (by rw [h,Option.map_none]))
    rw [condition_truth] at hp
    refine iff_of_true hp fun hd vs hv c hcd => ?_
    rcases hf hd with rfl | rfl
    · cases hv
    · cases hcd
  · rw [Classical.not_imp,not_or] at hf
    obtain ⟨rfl,hcu,hcd⟩ := hf
    obtain ⟨vs,rfl⟩ := Option.ne_none_iff_exists'.mp hcu
    obtain ⟨c,rfl⟩ := Option.ne_none_iff_exists'.mp hcd
    have hlen := hc vs rfl
    obtain ⟨init,column,rfl⟩ := (eq_nil_or_concat key).resolve_left hk
    obtain ⟨vi,vl,rfl⟩ := (eq_nil_or_concat vs).resolve_left fun h => by simp [h] at hlen
    rw [List.concat_eq_append,List.concat_eq_append] at *
    obtain ⟨last,ht,hl⟩ := @truth_narrowed V _ row (other row) init column vi vl
      (show vi.length = init.length by simpa using hlen) c.clause
    have hr : keyOf (init++[column]) row = keyOf init row++[row column.name] := by simp [keyOf]
    have hi : intended (init++[column]) row (some (vi++[vl])) (some (c.truth row)) =
        Truth.and (some (decide (vi < keyOf init row) || last)) (c.truth row) := by
      rw [intended,past_some,hl]
      rfl
    simp only [Option.isSome_some,Option.map_some,Option.getD_some,Dialect.reading,passes]
    rw [ht,hi,c.reads_row row (vi++[vl]),← RowCondition.truth]
    simp only [Option.mem_def,Option.some.injEq,forall_eq',forall_true_left,hr,dropLast_concat]
    by_cases hv : vi < keyOf init row
    · simp only [hv,decide_true,Bool.true_or,forall_true_left]
      exact eq_comm
    · simp only [hv,decide_false,Bool.false_or,false_imp_iff,iff_true]
      rfl

lemma fetchChunk_eq {d : Dialect} {key : List KeyColumn} (hk : key ≠ [])
    {cd : Option (RowCondition other)} {cursor : Option (List V)}
    (hc : ∀ vs ∈ cursor, vs.length = key.length)
    (hf : d = .sqlserver → key.length ≤ 1 ∨ cursor = none ∨ cd = none)
    (rs : List (String → V)) (k : ℕ) : fetchChunk d key cd rs k cursor =
      Paging.page (keyOf key) (rs.filter (meets cd)) k cursor := by
  rw [fetchChunk,Paging.page,filter_filter]
  refine congrArg (List.take k) (filter_congr fun row _ => ?_)
  have hf' : d = .sqlserver → key.length ≤ 1 ∨ cursor = none ∨
      cd.map RowCondition.clause = none := fun hd => (hf hd).imp_right
    (Or.imp_right fun hn => by rw [hn,Option.map_none])
  rw [passes_reading d hk hc hf',condition_truth,Bool.eq_iff_iff,decide_eq_true_iff,intended,
    Truth.and_eq_true,Bool.and_eq_true,meets,decide_eq_true_iff]
  exact and_congr_left fun _ => Option.some_inj

/-- The chunk query's clause says what it is meant to say, except on SQL Server for the rows that are past
the cursor on a column before the last and do not meet the condition.  The chunks are the rows that
meet the condition, each once; on SQL Server, if the key has one column or there is no condition. -/
theorem keyset_exact (d : Dialect) {key : List KeyColumn} (hkey : key ≠ [])
    (condition : Option (RowCondition other)) :
    (∀ q : ChunkQuery, q.key = key → d.sql q =
      d.select q++whereText (d.reading key q.cursor (given q.condition))++d.order q) ∧
    (∀ (row : String → V) (cursor : Option (List V)), (∀ values ∈ cursor, values.length = key.length) →
      (passes row (cursor.getD []) (other row) (d.reading key cursor.isSome (condition.map RowCondition.clause)) =
          intended key row cursor (condition.map fun condition => condition.truth row) ↔
        (d = .sqlserver → ∀ values ∈ cursor, ∀ given ∈ condition,
          values.dropLast < (keyOf key row).dropLast → given.truth row = some true))) ∧
    ∀ (rows : List (String → V)), (rows.map (keyOf key)).Pairwise (· < ·) →
      (d = .sqlserver → key.length ≤ 1 ∨ condition = none) → ∀ limit n : ℕ, 0 < limit →
      rows.length ≤ n →
      (Paging.pages (keyOf key) (fetchChunk d key condition rows limit) n none).flatten =
        rows.filter (meets condition) := by
  refine ⟨fun q hq => hq ▸ sql_eq d q (hq ▸ hkey),fun row _ hc => passes_reading_iff d hkey condition row hc,
    fun rows hs hf limit n hl hn => ?_⟩
  · have hch : ∀ cursor : Option (List V), (∀ values ∈ cursor, values.length = key.length) →
        fetchChunk d key condition rows limit cursor =
          Paging.page (keyOf key) (rows.filter (meets condition)) limit cursor := fun cursor hc =>
      fetchChunk_eq hkey hc (fun hd => (hf hd).imp_right .inr) rows limit
    have ha : (rows.filter (meets condition)).filter (Paging.past (keyOf key) none) =
        rows.filter (meets condition) := List.filter_eq_self.mpr fun _ _ => rfl
    rw [Paging.pages_congr (fun row => hch _ (by simp [keyOf])) n (hch none (by simp)),
      Paging.flatten_pages (Paging.pairwise_filter hs _) hl,ha]
    rw [ha]
    exact (List.length_filter_le _ _).trans hn

def sampleKey : List KeyColumn := [⟨"a","bigint"⟩,⟨"b","bigint"⟩]
def sampleRow (a b active : ℕ) : String → ℕ := fun name =>
  if name = "a" then a else if name = "b" then b else active

/-- A server that knows one condition. -/
def sampleServer (row : String → ℕ) : Clause → Truth
  | [.word (.other _)] => some (row "active" = 1)
  | _ => none
def sampleCondition : RowCondition sampleServer := ⟨[.word (.other "active = 1")],fun _ _ => rfl⟩

theorem keyset_exact_sample :
    let rows := [sampleRow 1 1 1,sampleRow 1 2 0,sampleRow 2 0 1]
    (Paging.pages (keyOf sampleKey) (fetchChunk .mysql sampleKey (some sampleCondition) rows 1) 3
      none).flatten = rows.filter (meets (some sampleCondition)) :=
  (keyset_exact .mysql (by simp [sampleKey]) (some sampleCondition)).2.2 _ (by decide) (by simp) 1 3
    (by decide) (by simp)

/-- With two key columns the condition only narrows the last alternative, so that a row against it
comes through with the others. -/
theorem condition_bypassed : Sqlserver.whereClause sampleKey true (some "active = 1") =
      "WHERE (t.[a] > @P1) OR (t.[a] = @P1 AND t.[b] > @P2) AND (active = 1)" ∧
    passes (sampleRow 2 0 0) [1,1] (sampleServer (sampleRow 2 0 0))
      (Dialect.sqlserver.reading sampleKey true (some sampleCondition.clause)) = some true ∧
    sampleCondition.truth (sampleRow 2 0 0) = some false := by
  exact ⟨by rfl,by rfl,by rfl⟩
end
end Keyset
end Rustcdc
