import Rustcdc.Core.Event

/-! What a consumer that keeps its tables by key does with an event. -/
namespace Rustcdc
/-- A row as its reader sees it: the value of each column. -/
abbrev Cells := String → Option Json

/-- What a change does at each key: nothing, or what is there from then on. -/
abbrev KeyedWrite (K : Type) := K → Option (Option Cells)
def keyValues (columns : List String) (row : Cells) : List Json := columns.map fun column => (row column).getD .null
section
variable {K : Type} [DecidableEq K]

def putRow (keyOf : Cells → K) (row : Option Cells) : KeyedWrite K :=
  fun key => row.bind fun row => if keyOf row = key then some (some row) else none
def removeRow (old : Option K) : KeyedWrite K := fun key => if old = some key then some none else none
section
variable (keyOf : Cells → K) (e : Event)

def Event.beforeKey : Option K := e.before.map fun row => keyOf row.get
def Event.afterKey : Option K := e.after.map fun row => keyOf row.get

/-- A row that is read, inserted or updated is put under its key; an update that changes the key also
removes the row under the old one. -/
def Event.write : KeyedWrite K := fun key =>
  match e.op with
  | .insert => putRow keyOf (e.after.map Json.get) key
  | .read => putRow keyOf (e.after.map Json.get) key
  | .update => (putRow keyOf (e.after.map Json.get) key).or (removeRow (e.beforeKey keyOf) key)
  | .delete => removeRow (e.beforeKey keyOf) key
  | .truncate => some none
  | .schemaChange => none
end
variable {k : Cells → K} {key : K}

lemma putRow_isSome {e : Event} : (putRow k (e.after.map Json.get) key).isSome = true ↔ e.afterKey k = some key := by
  rw [Event.afterKey]
  cases e.after with
  | none => simp [putRow]
  | some row => by_cases h : k row.get = key <;> simp [putRow,h]

lemma removeRow_isSome {old : Option K} : (removeRow old key).isSome = true ↔ old = some key := by
  by_cases h : old = some key <;> simp [removeRow,h]
end
end Rustcdc
