import Telemetry.Breakdown.Tree

/-!
# Shared nodes

A breakdown that is still growing is held by several owners at once: whoever has a handle to a node
can change it, and everyone who reaches the node sees the change, whatever became of the tree around
it. The nodes live in a `Store`, an array of cells that only grows; a handle is the index of a cell.

Cells refer to their children by handle, so a node can hang below several others, and even below
itself. The passes walk along the handles as they find them, and a node met twice is treated twice.
Walks are bounded by the number of cells, which is enough for every store without a cycle; the
filters also come to an end where what they remove cuts every cycle.

`tree?` is the view of a node as a tree; `clone` makes fresh cells for what the view shows.
-/

namespace Telemetry

/-- A handle to a node. -/
structure Handle where
  /-- the place of its cell -/
  index : Nat
  deriving DecidableEq, Repr, Inhabited

/-- A node with the handles of its children, in the order of their names. -/
structure Cell (α : Type) where
  entry : Entry α
  /-- the children under their names -/
  children : List (String × Handle)

/-- All nodes there are. -/
structure Store (α : Type) where
  /-- the cell of each handle -/
  cells : Array (Cell α) := #[]

namespace Store

variable {α : Type}

instance : Inhabited (Store α) := ⟨{}⟩

/-- The number of nodes. -/
def size (s : Store α) : Nat := s.cells.size

/-- The cell of a handle. -/
def cell? (s : Store α) (h : Handle) : Option (Cell α) := s.cells[h.index]?

/-- The entry of a handle. -/
def entry? (s : Store α) (h : Handle) : Option (Entry α) := (s.cell? h).map (·.entry)

/-- Replace a cell. -/
def put (s : Store α) (h : Handle) (cell : Cell α) : Store α :=
  { cells := s.cells.setIfInBounds h.index cell }

/-- Change a cell. -/
def modify (s : Store α) (h : Handle) (f : Cell α → Cell α) : Store α :=
  { cells := s.cells.modify h.index f }

/-- Change an entry. -/
def modifyEntry (s : Store α) (h : Handle) (f : Entry α → Entry α) : Store α :=
  s.modify h fun cell => { cell with entry := f cell.entry }

/-- A new cell for a node. -/
def allocate (s : Store α) (cell : Cell α) : Handle × Store α :=
  (⟨s.size⟩, { cells := s.cells.push cell })

section Growing

variable [Quantity α]

/-- A new node that belongs to no other. -/
def create (s : Store α) (name : String) : Handle × Store α :=
  s.allocate { entry := Entry.fresh name, children := [] }

/-- The child with a name. -/
def child? (s : Store α) (h : Handle) (name : String) : Option Handle :=
  (s.cell? h).bind fun cell => (Sorted.find? Prod.fst name cell.children).map (·.2)

/-- Hang a node below another, instead of a child with the same name. -/
def attach (s : Store α) (h child : Handle) : Store α :=
  match s.entry? child with
  | some entry =>
    s.modify h fun cell =>
      { cell with children := Sorted.put Prod.fst (entry.name, child) cell.children }
  | none => s

/-- The child with a name, which is made if it is missing. -/
def childOrNew (s : Store α) (h : Handle) (name : String) : Handle × Store α :=
  match s.child? h name with
  | some child => (child, s)
  | none =>
    let (child, s) := s.create name
    (child, s.attach h child)

/-- The node at the end of a path, on which all missing nodes are made. -/
def grow (s : Store α) (h : Handle) : List String → Handle × Store α
  | [] => (h, s)
  | name :: path =>
    let (child, s) := s.childOrNew h name
    s.grow child path

end Growing

/-- The node at the end of a path of names. -/
def at? (s : Store α) (h : Handle) : List String → Option Handle
  | [] => if h.index < s.size then some h else none
  | name :: path =>
    match s.cell? h with
    | some cell =>
      match Sorted.find? Prod.fst name cell.children with
      | some (_, child) => s.at? child path
      | none => none
    | none => none

/-! ## Passes -/

/-- Change the cell of a node and then the cells below it. `edit` is given the store as it is when
the walk comes to the node, and the level of the node. -/
def walk (edit : Store α → Nat → Cell α → Cell α) : Nat → Nat → Handle → Store α → Store α
  | 0, _, _, s => s
  | fuel + 1, level, h, s =>
    match s.cell? h with
    | some cell =>
      let cell := edit s level cell
      cell.children.foldl (fun s (_, child) => walk edit fuel (level + 1) child s) (s.put h cell)
    | none => s

/-- Change the entry of a node and every entry below it. -/
def map (f : Entry α → Entry α) (h : Handle) (s : Store α) : Store α :=
  walk (fun _ _ cell => { cell with entry := f cell.entry }) s.size 0 h s

/-- Remove the nodes that are not kept from the children of those that are, on so many levels. -/
def pruneWithin (keep : Nat → Entry α → Bool) (levels : Nat) (h : Handle) (s : Store α) :
    Store α :=
  walk (fun s level cell =>
    { cell with
      children := cell.children.filter fun (_, child) =>
        match s.entry? child with
        | some entry => keep (level + 1) entry
        | none => false }) levels 0 h s

/-- Keep a node, and look below it, only if its name is accepted. No walk among the nodes that are
kept has more levels than there are nodes, unless it never ends. -/
def filterNames (keep : String → Bool) (h : Handle) (s : Store α) : Store α :=
  pruneWithin (Tree.keepName keep) s.size h s

section Measuring

variable [Quantity α]

/-- Remove the nodes with a measurement out of bounds, from a level on. Above that level a walk can
come to a node again and again, so these levels are counted apart. -/
def filterValues (f : ValueFilter α) (h : Handle) (s : Store α) : Store α :=
  pruneWithin f.keeps (f.fromDepth + s.size) h s

/-- Add children to their parents from the leaves up, with a bound on the depth. -/
def rollupWithin : Nat → Handle → Store α → Store α
  | 0, _, s => s
  | fuel + 1, h, s =>
    match s.cell? h with
    | some cell =>
      cell.children.foldl (fun s (_, child) =>
        let s := rollupWithin fuel child s
        match s.entry? child with
        | some entry => s.modifyEntry h (·.increment entry.measurement entry.sampleCount)
        | none => s) s
    | none => s

/-- Add children to their parents from the leaves up. -/
def rollup (h : Handle) (s : Store α) : Store α :=
  rollupWithin s.size h s

end Measuring

/-! ## Views and copies -/

/-- A node with its children, and without what is below these. -/
def family? (s : Store α) (h : Handle) : Option (Tree α) :=
  (s.cell? h).map fun cell =>
    .node cell.entry (cell.children.filterMap fun (_, child) =>
      (s.entry? child).map (.node · []))

/-- The tree below a handle, if it has at most the given number of levels. -/
def treeWithin? (s : Store α) : Nat → Handle → Option (Tree α)
  | 0, _ => none
  | fuel + 1, h => do
    let cell ← s.cell? h
    let children ← cell.children.mapM fun (_, child) => s.treeWithin? fuel child
    return .node cell.entry children

/-- The tree below a handle. There is none if the handle is stale or the nodes below it form a
cycle. -/
def tree? (s : Store α) (h : Handle) : Option (Tree α) :=
  s.treeWithin? s.size h

mutual

/-- New cells for all nodes of a tree. -/
def plant (s : Store α) : Tree α → Handle × Store α
  | .node entry children =>
    let (children, s) := s.plantAll children
    s.allocate { entry, children }

/-- New cells for all nodes of several trees, each under the name of its top. -/
def plantAll (s : Store α) : List (Tree α) → List (String × Handle) × Store α
  | [] => ([], s)
  | child :: rest =>
    let (h, s) := s.plant child
    let (others, s) := s.plantAll rest
    ((child.name, h) :: others, s)

end

/-- A copy of a node and of all that is below it, which shares no cell with it. -/
def clone? (s : Store α) (h : Handle) : Option (Handle × Store α) :=
  (s.tree? h).map s.plant

/-! ## Small laws -/

theorem cell?_modify_of_ne (s : Store α) {h other : Handle} (f : Cell α → Cell α)
    (hne : h ≠ other) : (s.modify h f).cell? other = s.cell? other := by
  have : h.index ≠ other.index := fun heq => hne (by cases h; cases other; simp_all)
  simp [cell?, modify, Array.getElem?_modify, this]

theorem cell?_modify_self (s : Store α) (h : Handle) (f : Cell α → Cell α) :
    (s.modify h f).cell? h = (s.cell? h).map f := by
  simp [cell?, modify, Array.getElem?_modify]

@[simp] theorem size_modify (s : Store α) (h : Handle) (f : Cell α → Cell α) :
    (s.modify h f).size = s.size := by
  simp [size, modify]

theorem cell?_allocate_self (s : Store α) (cell : Cell α) :
    (s.allocate cell).2.cell? (s.allocate cell).1 = some cell := by
  simp [allocate, cell?, size]

theorem cell?_allocate_of_lt (s : Store α) (cell : Cell α) {h : Handle} (hlt : h.index < s.size) :
    (s.allocate cell).2.cell? h = s.cell? h := by
  have hne : h.index ≠ s.cells.size := Nat.ne_of_lt hlt
  simp [allocate, cell?, Array.getElem?_push, hne]

end Store

end Telemetry
