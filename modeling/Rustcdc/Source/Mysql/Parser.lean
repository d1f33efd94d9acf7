import Rustcdc.DdlCapture.Parsing
import Rustcdc.Core.Position

/-! MySQL's own texts: table references, the target of a `TRUNCATE`, the file name of a rotation. -/
namespace Rustcdc.Mysql
open Ddl (backtick trimStart trimEndMatches startsWith)

def invalidTableName (input : List Char) : Error :=
  .configError ("mysql snapshot table name is invalid: "++String.ofList input)

/-- `char::is_control`. -/
def isControl (c : Char) : Bool := c.toNat < 32 || (127 ≤ c.toNat && c.toNat ≤ 159)

/-- The characters of an identifier without quotes. -/
def isPlainChar (c : Char) : Bool := c.isAlphanum || c = '_' || c = '$'

def finalizeMysqlIdentifierSegment (raw : List Char) (quoted : Bool) (fullInput : List Char) :
    Except Error (List Char) :=
  let segment := if quoted then raw else trim raw
  if segment.isEmpty then .error (invalidTableName fullInput)
  else if segment.all (if quoted then fun c => !isControl c else isPlainChar) then .ok segment
  else .error (invalidTableName fullInput)

def lastSegment (input : List Char) (segmentQuoted : Bool) (current : List Char)
    (parts : List (List Char)) : Except Error (List (List Char)) :=
  (finalizeMysqlIdentifierSegment current segmentQuoted input).map fun last => parts++[last]

/-- The segments of a dotted name.  A back quote opens only where nothing but white space has been
read. -/
def identifierSegments (input : List Char) :
    Bool → Bool → List Char → List (List Char) → List Char → Except Error (List (List Char))
  | inQuotes, segmentQuoted, current, parts, [] =>
    if inQuotes then .error (invalidTableName input)
    else lastSegment input segmentQuoted current parts
  | true, segmentQuoted, current, parts, c::cs =>
    if c = backtick then
      match cs with
      | [] => lastSegment input segmentQuoted current parts
      | d::ds =>
        if d = backtick then identifierSegments input true segmentQuoted (current++[backtick]) parts ds
        else identifierSegments input false segmentQuoted current parts (d::ds)
    else identifierSegments input true segmentQuoted (current++[c]) parts cs
  | false, segmentQuoted, current, parts, c::cs =>
    if c = backtick then
      if (trim current).isEmpty then identifierSegments input true true [] parts cs
      else .error (invalidTableName input)
    else if c = '.' then
      match finalizeMysqlIdentifierSegment current segmentQuoted input with
      | .error e => .error e
      | .ok segment => identifierSegments input false false [] (parts++[segment]) cs
    else identifierSegments input false segmentQuoted (current++[c]) parts cs

def parseMysqlIdentifierPath (input : List Char) : Except Error (List (List Char)) :=
  identifierSegments input false false [] [] input

def splitTableReference (table : List Char) : Except Error (Option (List Char) × List Char) :=
  if (trim table).isEmpty then .error (.configError "mysql snapshot table name must not be empty")
  else
    match parseMysqlIdentifierPath (trim table) with
    | .error e => .error e
    | .ok [name] => .ok (none,name)
    | .ok [schema,name] => .ok (some schema,name)
    | .ok _ => .error (invalidTableName (trim table))

def parseTruncateTarget (statement : String) : Option (Option String × String) :=
  let trimmed := trimStart statement.toList
  if startsWith "TRUNCATE" trimmed then
    let afterKeyword := trimStart (trimmed.drop 8)
    let reference := if startsWith "TABLE" afterKeyword then trimStart (afterKeyword.drop 5)
      else afterKeyword
    let cleaned := trim (trimEndMatches (· = ';') (trim reference))
    if cleaned.isEmpty then none
    else (splitTableReference cleaned).toOption.map fun (schema,table) =>
      (schema.map String.ofList,String.ofList table)
  else none

def unusableName (raw detail : String) : Error :=
  .sourceError ("mysql rotate event carried an unusable binlog file name "++raw.quote++": "++detail)

/-- A rotation's file name without the checksum bytes that may follow it. -/
def sanitizeBinlogFileName (raw : String) : Except Error String :=
  match rsplitOnce '.' raw.toList with
  | none => .error (unusableName raw "expected '<base>.<sequence>'")
  | some (base,suffix) =>
    let digits := suffix.takeWhile Char.isDigit
    if digits.isEmpty then
      .error (unusableName raw "the sequence suffix after the final '.' is not numeric")
    else if base.isEmpty || base.any fun c => isControl c || 128 ≤ c.toNat then
      .error (unusableName raw "the base name is empty or contains bytes a binlog file name cannot hold")
    else .ok (String.ofList (base++ '.'::digits))
end Rustcdc.Mysql
