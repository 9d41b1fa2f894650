import Telemetry.Breakdown.Entry
import Telemetry.Record
import Telemetry.Sorted

/-!
# Breakdown trees

A breakdown splits a measurement into named parts, which are split in turn. The children of a node
are kept in the order of their names, and a child is known by the name of its own entry.

* `amendAt` walks down a path of names, makes the nodes that are missing, and changes the last one.
* `map`, `prune` and `rollup` are the three kinds of pass over a tree: change every entry on its
  own, remove subtrees, and add children to their parents from the leaves up.
* `merge` adds one tree to another.
* `toRecord` is the picture of a tree that goes out on the wire.

A tree is a value. Nodes that several owners hold and change are in `Breakdown.Store`.
-/

namespace Telemetry

/-- A named measurement and its parts. -/
inductive Tree (α : Type) where
  /-- an entry with the nodes below it -/
  | node (entry : Entry α) (children : List (Tree α))

namespace Tree

variable {α : Type}

/-- The entry at the top. -/
def entry : Tree α → Entry α
  | node entry _ => entry

/-- The nodes right below the top. -/
def children : Tree α → List (Tree α)
  | node _ children => children

/-- The name of the top. -/
def name (t : Tree α) : String := t.entry.name

/-- The measurement of the top. -/
def measurement (t : Tree α) : α := t.entry.measurement

/-- The sample count of the top. -/
def sampleCount (t : Tree α) : Int64 := t.entry.sampleCount

/-- The name of the node that reported trees hang from. -/
def rootName : String := "root"

/-- Change the entry at the top. -/
def mapTop (f : Entry α → Entry α) : Tree α → Tree α
  | node entry children => node (f entry) children

/-- The child with a name. -/
def find? (name : String) (t : Tree α) : Option (Tree α) :=
  Sorted.find? Tree.name name t.children

/-- The node at the end of a path of names. -/
def at? : List String → Tree α → Option (Tree α)
  | [], t => some t
  | name :: path, t => (t.find? name).bind (at? path)

/-- Put a tree among the children, instead of one with the same name. -/
def put : Tree α → Tree α → Tree α
  | node entry children, child => node entry (Sorted.put Tree.name child children)

section Growing

variable [Quantity α]

/-- A node without children of which nothing is known but its name. -/
def leaf (name : String) : Tree α := node (Entry.fresh name) []

/-- An empty tree to be reported. -/
def root : Tree α := leaf rootName

instance : Inhabited (Tree α) := ⟨root⟩

/-- Change the child with a name, which is made if it is missing. -/
def amendChild (name : String) (f : Tree α → Tree α) : Tree α → Tree α
  | node entry children =>
    node entry (Sorted.amend Tree.name name (fun child => f (child.getD (leaf name))) children)

/-- Change the entry at the end of a path of names. Nodes that are missing are made. -/
def amendAt : List String → (Entry α → Entry α) → Tree α → Tree α
  | [], f, t => t.mapTop f
  | name :: path, f, t => t.amendChild name (amendAt path f)

/-- Add a value and a count to the node at the end of a path. -/
def incrementAt (path : List String) (value : α) (count : Int64) (t : Tree α) : Tree α :=
  t.amendAt path (·.increment value count)

end Growing

/-! ## Passes -/

mutual

/-- Change every entry. -/
def map (f : Entry α → Entry α) : Tree α → Tree α
  | node entry children => node (f entry) (mapAll f children)

/-- Change every entry of each tree. -/
def mapAll (f : Entry α → Entry α) : List (Tree α) → List (Tree α)
  | [] => []
  | child :: rest => map f child :: mapAll f rest

end

mutual

/-- Remove the nodes that are not kept, each with all that is below it. `keep` is given the level of
a node, counted from `level` for the children of the top. -/
def prune (keep : Nat → Entry α → Bool) (level : Nat) : Tree α → Tree α
  | node entry children => node entry (pruneAll keep level children)

/-- The trees whose tops are kept, pruned below. -/
def pruneAll (keep : Nat → Entry α → Bool) (level : Nat) : List (Tree α) → List (Tree α)
  | [] => []
  | child :: rest =>
    if keep level child.entry then prune keep (level + 1) child :: pruneAll keep level rest
    else pruneAll keep level rest

end

/-- Whether nodes of a name are kept, whatever their level and measurement. -/
def keepName (keep : String → Bool) (_level : Nat) (entry : Entry α) : Bool :=
  keep entry.name

/-- Remove the nodes whose name is not accepted. -/
def filterNames (keep : String → Bool) (t : Tree α) : Tree α :=
  t.prune (keepName keep) 1

section Measuring

variable [Quantity α]

/-- Add the entries at the top of trees to an entry. -/
def addAll (entry : Entry α) (children : List (Tree α)) : Entry α :=
  children.foldl (fun entry child => entry.increment child.measurement child.sampleCount) entry

mutual

/-- Add children to their parents from the leaves up. Each node ends up with what the whole tree
below it held. -/
def rollup : Tree α → Tree α
  | node entry children =>
    let children := rollupAll children
    node (addAll entry children) children

/-- Roll up each tree. -/
def rollupAll : List (Tree α) → List (Tree α)
  | [] => []
  | child :: rest => rollup child :: rollupAll rest

end

/-- Take the percentile of every reservoir. -/
def evaluate (t : Tree α) : Tree α := t.map Entry.evaluate

/-- Express every measurement as a percentage of a total. -/
def percentOf (total : α) (t : Tree α) : Tree α := t.map (Entry.percentOf total)

/-- Multiply every measurement by a factor. -/
def scale (factor : α) (t : Tree α) : Tree α := t.map (Entry.scale factor)

/-- Average every node over a number of windows. -/
def average (windows : α) (t : Tree α) : Tree α := t.map (Entry.average windows)

mutual

/-- Add a tree to another node by node. Only measurements and counts are added. -/
def merge (into : Tree α) : Tree α → Tree α
  | node entry children =>
    mergeAll (into.mapTop (·.increment entry.measurement entry.sampleCount)) children

/-- Add each of the trees to the child with its name. -/
def mergeAll (into : Tree α) : List (Tree α) → Tree α
  | [] => into
  | child :: rest => mergeAll (into.amendChild child.name (merge · child)) rest

end

end Measuring

/-! ## Looking at a tree -/

mutual

/-- The number of levels. -/
def depth : Tree α → Nat
  | node _ children => depthAll children + 1

/-- The number of levels of the deepest tree. -/
def depthAll : List (Tree α) → Nat
  | [] => 0
  | child :: rest => max child.depth (depthAll rest)

end

mutual

/-- Each entry with its level, parents before their children, and `after` behind them. -/
def levelsBefore (after : List (Nat × Entry α)) (level : Nat) : Tree α → List (Nat × Entry α)
  | node entry children => (level, entry) :: levelsAllBefore after (level + 1) children

/-- The entries of trees that are on one level, and `after` behind them. -/
def levelsAllBefore (after : List (Nat × Entry α)) (level : Nat) :
    List (Tree α) → List (Nat × Entry α)
  | [] => after
  | child :: rest => levelsBefore (levelsAllBefore after level rest) level child

end

/-- Each entry with its level, parents before their children. -/
def levels (t : Tree α) : List (Nat × Entry α) := levelsBefore [] 0 t

/-- A tree as text: a line for each node, indented by its level. -/
def outline (number : α → String) (t : Tree α) : String :=
  String.join (t.levels.map fun (level, entry) =>
    String.ofList (List.replicate (2 * level) ' ') ++ entry.name ++ " - "
      ++ number entry.measurement ++ " (" ++ toString entry.sampleCount.toInt ++ ")\n")

mutual

/-- The picture of a tree that goes out. -/
def toRecord : Tree α → BreakdownRecord α
  | node entry children =>
    { name := entry.name, measurement := entry.measurement, sampleCount := entry.sampleCount
      children := toRecords children }

/-- The picture of each tree. -/
def toRecords : List (Tree α) → List (BreakdownRecord α)
  | [] => []
  | child :: rest => child.toRecord :: toRecords rest

end

section Extremes

variable [Quantity α]

/-- The child with the largest measurement in the total order, the last one by name of several. -/
def maxChild? (t : Tree α) : Option (Tree α) :=
  t.children.foldl (fun best child =>
    match best with
    | some b => if Quantity.precedes b.measurement child.measurement then some child else best
    | none => some child) none

/-- The child with the smallest measurement in the total order, the first one by name of several. -/
def minChild? (t : Tree α) : Option (Tree α) :=
  t.children.foldl (fun best child =>
    match best with
    | some b => if Quantity.precedes b.measurement child.measurement then best else some child
    | none => some child) none

end Extremes

/-! ## Small laws -/

@[simp] theorem name_node (entry : Entry α) (children : List (Tree α)) :
    (node entry children).name = entry.name := rfl

@[simp] theorem mapAll_eq (f : Entry α → Entry α) (ts : List (Tree α)) :
    mapAll f ts = ts.map (Tree.map f) := by
  induction ts with
  | nil => rfl
  | cons t ts ih => simp [mapAll, ih]

theorem pruneAll_eq (keep : Nat → Entry α → Bool) (level : Nat) (ts : List (Tree α)) :
    pruneAll keep level ts
      = (ts.filter fun t => keep level t.entry).map (prune keep (level + 1)) := by
  induction ts with
  | nil => rfl
  | cons t ts ih =>
    unfold pruneAll
    split <;> rename_i h <;> simp [h, ih]

@[simp] theorem rollupAll_eq [Quantity α] (ts : List (Tree α)) :
    rollupAll ts = ts.map rollup := by
  induction ts with
  | nil => rfl
  | cons t ts ih => simp [rollupAll, ih]

@[simp] theorem toRecords_eq (ts : List (Tree α)) : toRecords ts = ts.map toRecord := by
  induction ts with
  | nil => rfl
  | cons t ts ih => simp [toRecords, ih]

end Tree

/-! ## Filters by value -/

/-- A range that the measurements from some level on have to lie in. -/
structure ValueFilter (α : Type) where
  /-- the level of the first nodes looked at; the top has level zero -/
  fromDepth : Nat
  /-- the least measurement kept -/
  least : α
  /-- the greatest measurement kept -/
  greatest : α

/-- Whether a node is kept. A measurement that is not a number lies in no range. -/
def ValueFilter.keeps {α : Type} [Quantity α] (f : ValueFilter α) (level : Nat) (entry : Entry α) :
    Bool :=
  level < f.fromDepth || Quantity.within f.least f.greatest entry.measurement

/-- Remove the nodes whose measurement is out of range. -/
def Tree.filterValues {α : Type} [Quantity α] (f : ValueFilter α) (t : Tree α) : Tree α :=
  t.prune f.keeps 1

end Telemetry
