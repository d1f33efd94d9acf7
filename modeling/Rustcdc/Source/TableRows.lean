import Rustcdc.Lib.Scan
import Rustcdc.Source.Postgres.Snapshot

/-! The rows of the tables a bulk snapshot reads, in the order of their key, and what the server answers
to a keyset query. -/
namespace Rustcdc
open List
open Postgres (SnapshotRow)

/-- A row as the server has it: the text of its key and its values. -/
abbrev TableRow := String × Json

/-- The cursor that stands behind so many rows. -/
def cursorAt (rows : List TableRow) : ℕ → Option String
  | 0 => none
  | k+1 => rows[k]?.map Prod.fst

/-- The server's answer to a keyset query: the rows behind the cursor, up to the limit. -/
def RowsBehind (rows : List TableRow) (cursor : Option String) (limit : ℕ) (fetched : List TableRow) : Prop :=
  ∀ k ≤ rows.length, cursorAt rows k = cursor → fetched = (rows.drop k).take limit
  deriving Decidable

/-- A row handed out: its table and its values. -/
def rowView (r : SnapshotRow) : ℕ × Json := (r.table,r.event.after.getD .null)
section
variable {r : List TableRow} {f : List TableRow} {k l : ℕ} {c : Option String}

lemma RowsBehind.front (h : RowsBehind r c l f) (hk : k ≤ r.length) (hc : c = cursorAt r k) : f <+: r.drop k := by
  rw [h k hk hc.symm]
  exact take_prefix _ _

/-- The first of the rows behind a place is the next one. -/
lemma front_cons {row : TableRow} (h : row::f <+: r.drop k) : r[k]? = some row ∧ f <+: r.drop (k+1) := by
  obtain ⟨rows,hr,hf⟩ := cons_prefix_iff.mp h
  have hh := congrArg head? hr
  rw [head?_drop] at hh
  rw [← tail_drop,hr]
  exact ⟨hh,hf⟩

lemma RowsBehind.nil (h : RowsBehind r c l []) (hk : k ≤ r.length) (hc : c = cursorAt r k) (hl : 0 < l) :
    k = r.length := by
  have hn := h k hk hc.symm
  rcases take_eq_nil_iff.mp hn.symm with hz | hn
  · omega
  · have := drop_eq_nil_iff.mp hn
    omega

lemma cursorAt_succ {row : TableRow} (h : r[k]? = some row) : cursorAt r (k+1) = some row.1 := by
  rw [cursorAt,h,Option.map_some]
end
section
variable (contents : ℕ → List TableRow)

/-- The values of the rows of each table. -/
def valuesOf (i : ℕ) : List Json := (contents i).map Prod.snd

variable {contents} {ro : List SnapshotRow}

lemma valuesOf_next {i k : ℕ} {row : TableRow} (h : (contents i)[k]? = some row) :
    (valuesOf contents i)[k]? = some row.2 := by
  rw [valuesOf,getElem?_map,h,Option.map_some]

lemma view_markLast (ro : List SnapshotRow) : (Postgres.PostgresSnapshotHandle.markLast ro).map rowView =
      ro.map rowView :=
  Postgres.PostgresSnapshotHandle.map_markLast (fun _ => rfl) ro

lemma took_marked {done done' : ℕ → ℕ} (h : Scan.Took (valuesOf contents) done (ro.map rowView) done') (la : Bool) :
    Scan.Took (valuesOf contents) done ((if la then
      Postgres.PostgresSnapshotHandle.markLast ro else ro).map rowView) done' := by
  cases la with
  | true => rwa [if_pos rfl,view_markLast]
  | false => exact h
section
variable {H : Type} (Stands : H → (ℕ → ℕ) → Prop) (contents : ℕ → List TableRow)

/-- The tables move on by the rows that are read. -/
def MovesOn (done : ℕ → ℕ) (read : H × List SnapshotRow) : Prop :=
  ∃ done', Stands read.1 done' ∧ Scan.Took (valuesOf contents) done (read.2.map rowView) done'

variable {Stands contents} {done : ℕ → ℕ} {h h' : H}

lemma movesOn_nothing (hs : Stands h done) : MovesOn Stands contents done (h,[]) := ⟨done,hs,Scan.Took.refl _ _⟩

/-- The next row of a table, then the rest. -/
lemma MovesOn.cons {i : ℕ} {row : SnapshotRow} {v : Json} {rest : H × List SnapshotRow}
    (hm : MovesOn Stands contents (Function.update done i (done i+1)) rest)
    (hv : (valuesOf contents i)[done i]? = some v) (hr : rowView row = (i,v)) :
    MovesOn Stands contents done (rest.1,row::rest.2) := by
  obtain ⟨done',hs,ht⟩ := hm
  refine ⟨done',hs,?_⟩
  rw [map_cons,hr]
  exact (Scan.Took.one hv).trans ht

/-- A call on a handle that is not complete leaves the tables where its chunk left them. -/
lemma MovesOn.call {read : H × List SnapshotRow} (hm : MovesOn Stands contents done read) {full last : Bool}
    (hs : full = true → Stands h' done) (hr : full = false → ∀ done', Stands read.1 done' → Stands h' done') :
    MovesOn Stands contents done (h',if full then [] else
      if last then Postgres.PostgresSnapshotHandle.markLast read.2 else read.2) := by
  obtain ⟨done',hd,ht⟩ := hm
  cases full with
  | true => exact movesOn_nothing (hs rfl)
  | false => exact ⟨done',hr rfl done' hd,took_marked ht last⟩
end
end
end Rustcdc
