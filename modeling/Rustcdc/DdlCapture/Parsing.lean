import Rustcdc.Core.Event

/-! How a DDL statement is recognised and which table it is taken to name.  Texts are lists of ASCII
characters: on others the source's byte offsets do not fall where the characters do. -/
namespace Rustcdc.Ddl
inductive DdlDialect
  | postgres | mysql | sqlServer
  deriving DecidableEq

def DdlDialect.defaultSchema : DdlDialect → String
  | .postgres => "public"
  | .mysql => "default"
  | .sqlServer => "dbo"

inductive DdlOperation
  | createTable | alterTable | dropTable
  deriving DecidableEq

def DdlOperation.asDdlType : DdlOperation → String
  | .createTable => "CREATE_TABLE"
  | .alterTable => "ALTER_TABLE"
  | .dropTable => "DROP_TABLE"

def toUppercase (cs : List Char) : List Char := cs.map Char.toUpper

/-- `to_uppercase().starts_with(keyword)`. -/
def startsWith (keyword : String) (cs : List Char) : Bool := toUppercase (cs.take keyword.length) = keyword.toList
def trimStart (cs : List Char) : List Char := cs.dropWhile isWhitespace
def trimEndMatches (p : Char → Bool) (cs : List Char) : List Char := cs.rdropWhile p
def backtick : Char := Char.ofNat 96

/-- What is after an optional keyword, which has to be followed by white space or by nothing. -/
def stripOptionalKeyword (input : List Char) (keyword : String) : List Char :=
  let trimmed := trimStart input
  if startsWith keyword trimmed ∧ (trimmed.drop keyword.length).head?.all isWhitespace then
    trimStart (trimmed.drop keyword.length)
  else trimmed

/-- At most as many rounds as there are characters to strip. -/
def stripAlterTargetModifiersWithin : ℕ → List Char → List Char
  | 0, input => input
  | rounds+1, input =>
    let stripped := stripOptionalKeyword (stripOptionalKeyword input "ONLY") "IF EXISTS"
    if stripped = input then input else stripAlterTargetModifiersWithin rounds stripped

def stripAlterTargetModifiers (input : List Char) : List Char :=
  stripAlterTargetModifiersWithin (input.length+1) input

/-- The quote that closes what `opening` opened. -/
def closing (opening : Char) : Char := if opening = '[' then ']' else opening

/-- The parts with the last one, if there is anything of it. -/
def lastPart (current : List Char) (parts : List (List Char)) : List (List Char) :=
  if (trim current).isEmpty then parts else parts++[trim current]

/-- The parts of a dotted name, quotes and all, up to what ends the name. -/
def scanParts : Option Char → List Char → List (List Char) → List Char → List (List Char)
  | _, current, parts, [] => lastPart current parts
  | some quote, current, parts, c::cs =>
    if c = closing quote then
      match cs with
      | [] => lastPart (current++[c]) parts
      | d::ds =>
        -- a doubled quote is a character of the name
        if d = closing quote then scanParts (some quote) (current++[c,d]) parts ds
        else scanParts none (current++[c]) parts (d::ds)
    else scanParts (some quote) (current++[c]) parts cs
  | none, current, parts, c::cs =>
    if c = '"' ∨ c = backtick ∨ c = '[' then scanParts (some c) (current++[c]) parts cs
    else if c = '.' then
      if (trim current).isEmpty then [] else scanParts none [] (parts++[trim current]) cs
    else if (c = '(' ∨ c = ',' ∨ c = ';') ∧ (trim current).isEmpty then lastPart current parts
    else if isWhitespace c then lastPart current parts
    else scanParts none (current++[c]) parts cs

def splitQualifiedIdentifierParts (sql : List Char) : List (List Char) := scanParts none [] [] (trim sql)

/-- `replace` of a doubled character by a single one. -/
def replaceDoubled (q : Char) : List Char → List Char
  | a::b::cs => if a = q ∧ b = q then q::replaceDoubled q cs else a::replaceDoubled q (b::cs)
  | cs => cs

/-- What is between two quotes. -/
def between (first last : Char) (cs : List Char) : Option (List Char) :=
  if cs.head? = some first ∧ cs.getLast? = some last ∧ 2 ≤ cs.length then some (cs.drop 1).dropLast
  else none

def normalizeIdentifier (ident : List Char) : List Char :=
  let trimmed := trimEndMatches (fun c => c = ';' || c = ',') (trim ident)
  match between '"' '"' trimmed with
  | some inner => toAsciiLowercase (replaceDoubled '"' inner)
  | none =>
    match between backtick backtick trimmed with
    | some inner => toAsciiLowercase (replaceDoubled backtick inner)
    | none =>
      match between '[' ']' trimmed with
      | some inner => toAsciiLowercase (replaceDoubled ']' inner)
      | none => toAsciiLowercase trimmed

/-- The last two parts of the name, or its only part in the default schema. -/
def extractQualifiedNameWithDefault (sql : List Char) (defaultSchema : String) : Option (List Char × List Char) :=
  match (splitQualifiedIdentifierParts (trim sql)).reverse with
  | [] => none
  | [table] => some (defaultSchema.toList,normalizeIdentifier table)
  | table::schema::_ =>
    if (normalizeIdentifier schema).isEmpty ∨ (normalizeIdentifier table).isEmpty then none
    else some (normalizeIdentifier schema,normalizeIdentifier table)

/-- Where the name is in a statement.  `CREATE TABLE` has no optional words taken off. -/
def statementTarget (statement : List Char) : Option (DdlOperation × List Char) :=
  if startsWith "CREATE TABLE" statement then
    some (.createTable,trimStart (statement.drop 12))
  else if startsWith "ALTER TABLE" statement then
    some (.alterTable,stripAlterTargetModifiers (trimStart (statement.drop 11)))
  else if startsWith "DROP TABLE" statement then
    let afterDrop := trimStart (statement.drop 10)
    some (.dropTable,if startsWith "IF EXISTS" afterDrop then trimStart (afterDrop.drop 9) else afterDrop)
  else none

def parseSchemaTableForDialect (dialect : DdlDialect) (statement : List Char) : Option (List Char × List Char) :=
  (statementTarget statement).bind fun target =>
    extractQualifiedNameWithDefault target.2 dialect.defaultSchema

/-- The parsers of columns and clauses, by what they give for a statement. -/
structure ColumnParser where
  createTableSchema : DdlDialect → String → Option Json
  alterTableDiff : DdlDialect → String → Option Json

def noColumns : ColumnParser := ⟨fun _ _ => none,fun _ _ => none⟩

structure ParsedDdlStatement where
  dialect : DdlDialect
  operation : DdlOperation
  schema : String
  table : String
  statement : String
  resultSchema : Option Json
  schemaDiff : Option Json

def parseDdlStatement (columns : ColumnParser) (dialect : DdlDialect) (statement : String) :
    Option ParsedDdlStatement :=
  let text := trim statement.toList
  (statementTarget text).bind fun target =>
    (parseSchemaTableForDialect dialect text).map fun names =>
      { dialect := dialect
        operation := target.1
        schema := String.ofList names.1
        table := String.ofList names.2
        statement := String.ofList text
        resultSchema := match target.1 with
          | .createTable => columns.createTableSchema dialect (String.ofList text)
          | _ => none
        schemaDiff := match target.1 with
          | .alterTable => columns.alterTableDiff dialect (String.ofList text)
          | _ => none }

def ParsedDdlStatement.intoCaptured (parsed : ParsedDdlStatement) : CapturedDdl :=
  ⟨parsed.operation.asDdlType,parsed.schema,parsed.table,parsed.statement,parsed.resultSchema,parsed.schemaDiff,0⟩
def extractCapturedDdl (columns : ColumnParser) (dialect : DdlDialect) (message : String) : Option CapturedDdl :=
  (parseDdlStatement columns dialect message).map ParsedDdlStatement.intoCaptured
end Rustcdc.Ddl
