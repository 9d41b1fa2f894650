import Telemetry.Breakdown.Tree
import Telemetry.Profile.Basic

/-!
# Call graphs

The samples of a profile are folded into a breakdown: each sample adds the value of one column to
the node at the end of its path, and the value of another column to the sample count of that node.
Samples with no value leave no trace.

Folding stops at the first sample that lacks one of the columns, and what was folded before it stays
folded. So the outcome is a pair, an error or the number of samples folded, and the tree.
-/

namespace Telemetry.CallGraph

variable {α : Type} [Quantity α]

/-- The two columns of a profile that make up a call graph. -/
structure Columns where
  /-- the column that is measured -/
  value : Nat
  /-- the column that is counted -/
  count : Nat
  deriving DecidableEq, Repr

/-- Find the columns by their kinds. The measured column is looked for first. -/
def columns (p : Profile) (valueKind countKind : String) : Except ProfileError Columns :=
  match p.column? valueKind with
  | none => .error (.missingSampleType valueKind)
  | some value =>
    match p.column? countKind with
    | none => .error (.missingSampleType countKind)
    | some count => .ok { value, count }

/-- The least number of values in a sample that has both columns. -/
def Columns.needed (c : Columns) : Nat := max c.value c.count + 1

/-- The two values of a sample. -/
def Columns.read? (c : Columns) (s : Sample) : Option (Int64 × Int64) :=
  match s.values[c.value]?, s.values[c.count]? with
  | some value, some count => some (value, count)
  | _, _ => none

/-- Add a sample to a tree. -/
def addSample (s : Sample) (value count : Int64) (t : Tree α) : Tree α :=
  t.incrementAt s.path (Quantity.ofInt value.toInt) count

/-- Fold samples into a tree. `index` is the place of the first one in the profile. -/
def foldSamples (c : Columns) :
    List Sample → Nat → Tree α → Except ProfileError Nat × Tree α
  | [], _, t => (.ok 0, t)
  | s :: rest, index, t =>
    match c.read? s with
    | none => (.error (.malformedSample index s.values.length c.needed), t)
    | some (value, count) =>
      if value = 0 then foldSamples c rest (index + 1) t
      else
        let (folded, t) := foldSamples c rest (index + 1) (addSample s value count t)
        (folded.map (· + 1), t)

/-- Fold the samples of a profile into a tree. Returns the number of samples folded. -/
def fold (p : Profile) (valueKind countKind : String) (t : Tree α) :
    Except ProfileError Nat × Tree α :=
  match columns p valueKind countKind with
  | .error e => (.error e, t)
  | .ok c => foldSamples c p.samples 0 t

/-- The call graph of a profile on its own, if every sample can be folded. -/
def ofProfile (p : Profile) (valueKind countKind : String) : Except ProfileError (Tree α) :=
  match fold p valueKind countKind Tree.root with
  | (.ok _, t) => .ok t
  | (.error e, _) => .error e

/-! ## Small laws -/

theorem columns_eq_ok_iff {p : Profile} {valueKind countKind : String} {c : Columns} :
    columns p valueKind countKind = .ok c
      ↔ p.column? valueKind = some c.value ∧ p.column? countKind = some c.count := by
  cases c
  unfold columns
  split <;> simp_all
  split <;> simp_all

end Telemetry.CallGraph
