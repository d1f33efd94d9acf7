import Rustcdc.Core.Event
import Rustcdc.Core.Position

/-! The executed GTID set as the text a checkpoint carries, and the merge of one more GTID. -/
namespace Rustcdc.Mysql
/-- `parse::<u64>`. -/
def parseU64 (cs : List Char) : Option ℕ := (fromStrRadix 10 (2^64) cs).toOption
abbrev Intervals := List (ℕ × ℕ)

def extendEntry (uuid : List Char) (intervals : Intervals) :
    List (List Char × Intervals) → List (List Char × Intervals)
  | [] => [(uuid,intervals)]
  | (u,is)::entries =>
    if uuid = u then (u,is++intervals)::entries
    else if uuid < u then (uuid,intervals)::(u,is)::entries
    else (u,is)::extendEntry uuid intervals entries

def parseInterval (part : List Char) : Intervals :=
  match splitOnce '-' part with
  | some (start,stop) =>
    match parseU64 (trim start), parseU64 (trim stop) with
    | some start, some stop => [(start,max stop start)]
    | _, _ => []
  | none =>
    match parseU64 part with
    | some value => [(value,value)]
    | none => []

/-- `parse_gtid_set_intervals`; a fragment that does not parse is skipped. -/
def parseGtidSetIntervals (set : List Char) : List (List Char × Intervals) :=
  ((splitOn ',' set).map trim).foldl (fun parsed uuidSet =>
    match (splitOn ':' uuidSet).map trim with
    | [] | []::_ => parsed
    | uuid::parts => extendEntry (toAsciiLowercase uuid)
        ((parts.filter (!·.isEmpty)).flatMap parseInterval) parsed) []

/-- Coalesce sorted intervals, adjacent ones included. -/
def coalesce : Intervals → Intervals
  | [] => []
  | [i] => [i]
  | (s,e)::(s',e')::is =>
    if s' ≤ min (e+1) (2^64-1) then coalesce ((s,max e e')::is) else (s,e)::coalesce ((s',e')::is)
termination_by is => is.length

def sortIntervals (is : Intervals) : Intervals := is.mergeSort fun a b => decide (a.1 < b.1 ∨ a.1 = b.1 ∧ a.2 ≤ b.2)
def renderInterval (i : ℕ × ℕ) : List Char :=
  if i.1 = i.2 then formatNat 10 i.1 else formatNat 10 i.1++ '-'::formatNat 10 i.2

/-- `join`. -/
def joinWith (sep : Char) : List (List Char) → List Char
  | [] => []
  | [part] => part
  | part::parts => part++sep::joinWith sep parts

def renderGtidSet (parsed : List (List Char × Intervals)) : List Char :=
  joinWith ',' ((parsed.filter (!·.2.isEmpty)).map fun entry =>
    entry.1++ ':'::joinWith ':' ((coalesce (sortIntervals entry.2)).map renderInterval))

def mergeGtidIntoSet (set gtid : String) : String :=
  String.ofList (renderGtidSet ((parseGtidSetIntervals gtid.toList).foldl
    (fun parsed entry => extendEntry entry.1 entry.2 parsed)
    (parseGtidSetIntervals set.toList)))
end Rustcdc.Mysql
