import Mathlib.Data.List.Flatten
import Mathlib.Data.List.Nodup
import Mathlib.Data.List.Perm.Subperm
import Telemetry.Breakdown.Store
import Telemetry.Proofs.Breakdown.Path

/-!
# Trees in a store

A store knows cells that refer to each other by handle, and nothing of trees. `Shows` says that there
is a tree below a handle, and of which nodes it is made: it looks at no other cells (`Shows.frame`),
and there is no more than one tree to be seen (`Shows.unique`). A node may be seen at several places
of a tree. If it is not, the list of nodes has no duplicates, and the subtrees of two siblings have no
cell in common.

Paths of names lead to the same places in the tree and in the store (`Shows.at?_cases`). No tree has
more levels than the store has cells, as no node hangs below itself (`Shows.depth_le_size`), so walks
that are bounded by the number of cells come to all of its nodes.
-/

namespace Telemetry

variable {α : Type}

/-! ## Depth -/

namespace Tree

theorem depth_node (entry : Entry α) (children : List (Tree α)) :
    (node entry children).depth = depthAll children + 1 := by
  rw [depth]

theorem depth_pos (t : Tree α) : 0 < t.depth := by
  cases t with
  | node entry children =>
    rw [depth_node]
    exact Nat.succ_pos _

theorem depthAll_cons (child : Tree α) (rest : List (Tree α)) :
    depthAll (child :: rest) = max child.depth (depthAll rest) := by
  rw [depthAll]

/-- No child is deeper than all of them together. -/
theorem depth_le_depthAll {child : Tree α} {children : List (Tree α)} (h : child ∈ children) :
    child.depth ≤ depthAll children := by
  induction children with
  | nil => cases h
  | cons first rest ih =>
    rw [depthAll_cons]
    rcases List.mem_cons.mp h with rfl | h
    · exact Nat.le_max_left _ _
    · exact Nat.le_trans (ih h) (Nat.le_max_right _ _)

/-- Some child is as deep as there is anything below a node. -/
theorem exists_depth_eq {children : List (Tree α)} (h : children ≠ []) :
    ∃ child ∈ children, child.depth = depthAll children := by
  induction children with
  | nil => exact absurd rfl h
  | cons first rest ih =>
    rw [depthAll_cons]
    rcases Nat.le_total (depthAll rest) first.depth with hle | hle
    · exact ⟨first, List.mem_cons_self, (Nat.max_eq_left hle).symm⟩
    · cases rest with
      | nil =>
        rw [depthAll] at hle ⊢
        exact absurd (depth_pos first) (Nat.not_lt.mpr hle)
      | cons second rest =>
        obtain ⟨child, hmem, hdepth⟩ := ih (List.cons_ne_nil _ _)
        refine ⟨child, List.mem_cons_of_mem _ hmem, ?_⟩
        rw [hdepth, Nat.max_eq_right hle]

end Tree

namespace Store

/-! ## Cells -/

/-- A handle that leads somewhere is one that was given out. -/
theorem lt_size_of_cell? {s : Store α} {h : Handle} {cell : Cell α} (hcell : s.cell? h = some cell) :
    h.index < s.size := by
  obtain ⟨hlt, -⟩ := Array.getElem?_eq_some_iff.mp hcell
  exact hlt

theorem entry?_eq (s : Store α) (h : Handle) : s.entry? h = (s.cell? h).map Cell.entry := rfl

theorem entry?_of_cell? {s : Store α} {h : Handle} {cell : Cell α} (hcell : s.cell? h = some cell) :
    s.entry? h = some cell.entry := by
  rw [entry?_eq, hcell, Option.map_some]

theorem cell?_put_self {s : Store α} {h : Handle} {old : Cell α} (hcell : s.cell? h = some old)
    (cell : Cell α) : (s.put h cell).cell? h = some cell :=
  Array.getElem?_setIfInBounds_self_of_lt (lt_size_of_cell? hcell)

/-- Writing one cell leaves the others. -/
theorem cell?_put_of_ne (s : Store α) (cell : Cell α) {h other : Handle} (hne : other ≠ h) :
    (s.put h cell).cell? other = s.cell? other := by
  refine Array.getElem?_setIfInBounds_ne fun hindex => hne ?_
  cases h
  cases other
  rw [Handle.mk.injEq]
  exact hindex.symm

@[simp] theorem size_put (s : Store α) (h : Handle) (cell : Cell α) : (s.put h cell).size = s.size :=
  Array.size_setIfInBounds

theorem size_allocate (s : Store α) (cell : Cell α) : (s.allocate cell).2.size = s.size + 1 := by
  rw [allocate, size, Array.size_push, size]

/-- A store is known by its cells. -/
theorem ext {s s' : Store α} (h : ∀ n, s'.cell? n = s.cell? n) : s' = s := by
  obtain ⟨cells⟩ := s
  obtain ⟨cells'⟩ := s'
  congr 1
  refine Array.ext_getElem? fun i => ?_
  exact h ⟨i⟩

theorem at?_nil_of_cell? {s : Store α} {h : Handle} {cell : Cell α} (hcell : s.cell? h = some cell) :
    s.at? h [] = some h := by
  rw [at?, if_pos (lt_size_of_cell? hcell)]

/-- A path goes down by the names under which children are filed. -/
theorem at?_cons_of_cell? {s : Store α} {h : Handle} {cell : Cell α} (hcell : s.cell? h = some cell)
    (name : String) (path : List String) :
    s.at? h (name :: path)
      = (Sorted.find? Prod.fst name cell.children).bind fun link => s.at? link.2 path := by
  simp only [at?, hcell]
  cases Sorted.find? Prod.fst name cell.children <;> rfl

/-! ## Views -/

/-- A subtree where it hangs in a store. -/
structure Part (α : Type) where
  /-- the node at its top -/
  handle : Handle
  tree : Tree α
  /-- the nodes that it is made of -/
  nodes : List Handle

namespace Part

/-- The name of a part. -/
def name (p : Part α) : String := p.tree.name

/-- What the node above refers to a part by. -/
def link (p : Part α) : String × Handle := (p.name, p.handle)

end Part

/-- The nodes that several parts are made of. -/
def nodesOf (parts : List (Part α)) : List Handle := parts.flatMap Part.nodes

/-- There is a tree below a handle, and it is made of these nodes, parents before their children. -/
inductive Shows (s : Store α) : Handle → Tree α → List Handle → Prop where
  | node {h : Handle} {entry : Entry α} {parts : List (Part α)}
      (cell : s.cell? h = some { entry, children := parts.map Part.link })
      (below : ∀ p ∈ parts, Shows s p.handle p.tree p.nodes) :
      Shows s h (.node entry (parts.map Part.tree)) (h :: nodesOf parts)

/-- The parts of a list can be seen where they are. -/
def ShowsAll (s : Store α) (parts : List (Part α)) : Prop :=
  ∀ p ∈ parts, s.Shows p.handle p.tree p.nodes

theorem mem_nodesOf {parts : List (Part α)} {p : Part α} (hp : p ∈ parts) {n : Handle}
    (hn : n ∈ p.nodes) : n ∈ nodesOf parts :=
  List.mem_flatMap.mpr ⟨p, hp, hn⟩

theorem not_mem_nodesOf_cons {p : Part α} {rest : List (Part α)} {n : Handle} :
    n ∉ nodesOf (p :: rest) ↔ n ∉ p.nodes ∧ n ∉ nodesOf rest := by
  simp only [nodesOf, List.flatMap_cons, List.mem_append, not_or]

/-- No node is met twice in several parts if it is not met twice in the first, nor in the others, nor
in the first and in another. -/
theorem nodup_nodesOf_cons {p : Part α} {rest : List (Part α)} :
    (nodesOf (p :: rest)).Nodup ↔
      p.nodes.Nodup ∧ (nodesOf rest).Nodup ∧ ∀ n ∈ p.nodes, n ∉ nodesOf rest := by
  rw [nodesOf, List.flatMap_cons, List.nodup_append]
  refine and_congr_right fun _ => and_congr_right fun _ => ?_
  exact ⟨fun h n hn hmem => h n hn n hmem rfl, fun h n hn m hm hnm => h n hn (hnm ▸ hm)⟩

namespace Shows

variable {s s' : Store α} {h : Handle} {t : Tree α} {nodes : List Handle}

/-- The top of what is shown is the entry at the handle. -/
theorem entry_eq (view : s.Shows h t nodes) : s.entry? h = some t.entry := by
  cases view with
  | node cell _ => exact entry?_of_cell? cell

/-- What a view of a tree with these children consists of. -/
theorem inv {entry : Entry α} {children : List (Tree α)}
    (view : s.Shows h (.node entry children) nodes) :
    ∃ parts : List (Part α), children = parts.map Part.tree ∧ nodes = h :: nodesOf parts ∧
      s.cell? h = some { entry, children := parts.map Part.link } ∧ s.ShowsAll parts := by
  cases view with
  | @node _ _ parts cell below => exact ⟨parts, rfl, rfl, cell, below⟩

theorem mem_self (view : s.Shows h t nodes) : h ∈ nodes := by
  cases view with
  | node _ _ => exact List.mem_cons_self

/-- A view depends on no other cells than those of its nodes. -/
theorem frame (view : s.Shows h t nodes) (hsame : ∀ n ∈ nodes, s'.cell? n = s.cell? n) :
    s'.Shows h t nodes := by
  induction view with
  | @node h entry parts cell _ ih =>
    refine .node ((hsame h List.mem_cons_self).trans cell) fun p hp => ih p hp fun n hn => ?_
    exact hsame n (List.mem_cons_of_mem h (mem_nodesOf hp hn))

/-- All nodes of a view have cells. -/
theorem isSome_cell? (view : s.Shows h t nodes) {n : Handle} (hn : n ∈ nodes) :
    (s.cell? n).isSome := by
  induction view with
  | node cell _ ih =>
    rcases List.mem_cons.mp hn with rfl | hn
    · rw [cell]
      rfl
    · obtain ⟨p, hp, hn⟩ := List.mem_flatMap.mp hn
      exact ih p hp hn

/-- All nodes of a tree that is shown are there. -/
theorem lt_size (view : s.Shows h t nodes) {n : Handle} (hn : n ∈ nodes) : n.index < s.size := by
  obtain ⟨cell, hcell⟩ := Option.isSome_iff_exists.mp (view.isSome_cell? hn)
  exact lt_size_of_cell? hcell

/-- Children that can each be shown in one way only can be shown together in one way only. -/
theorem parts_unique {parts parts' : List (Part α)}
    (hlinks : parts'.map Part.link = parts.map Part.link)
    (hunique : ∀ p ∈ parts, ∀ t nodes, s.Shows p.handle t nodes → t = p.tree ∧ nodes = p.nodes)
    (views : s.ShowsAll parts') : parts' = parts := by
  induction parts generalizing parts' with
  | nil => exact List.map_eq_nil_iff.mp hlinks
  | cons p rest ih =>
    obtain ⟨p', rest', rfl, hlink, hrest⟩ := List.map_eq_cons_iff.mp hlinks
    obtain ⟨hview, hviews⟩ := List.forall_mem_cons.mp views
    obtain ⟨hfirst, hothers⟩ := List.forall_mem_cons.mp hunique
    have hhandle : p'.handle = p.handle := congrArg Prod.snd hlink
    obtain ⟨htree, hnodes⟩ := hfirst p'.tree p'.nodes (hhandle ▸ hview)
    rw [ih hrest hothers hviews]
    congr 1
    obtain ⟨handle, tree, nodes⟩ := p
    obtain ⟨handle', tree', nodes'⟩ := p'
    simp only at hhandle htree hnodes
    rw [hhandle, htree, hnodes]

/-- There is one tree to be seen, made of the same nodes. -/
theorem unique (view : s.Shows h t nodes) {t' : Tree α} {nodes' : List Handle}
    (view' : s.Shows h t' nodes') : t' = t ∧ nodes' = nodes := by
  induction view generalizing t' nodes' with
  | @node h entry parts cell _ ih =>
    cases view' with
    | @node _ entry' parts' cell' below' =>
      have hcell := Option.some.inj (cell'.symm.trans cell)
      simp only [Cell.mk.injEq] at hcell
      obtain ⟨rfl, hlinks⟩ := hcell
      have hparts := parts_unique hlinks (fun p hp t nodes view => ih p hp view) below'
      rw [hparts]
      exact ⟨rfl, rfl⟩

/-! ## Levels -/

/-- As deep as a tree is, there are nodes one below the other, and they show smaller and smaller
trees. -/
theorem exists_chain (view : s.Shows h t nodes) :
    ∃ chain : List Handle, chain.length = t.depth ∧ chain.Nodup ∧
      ∀ n ∈ chain, ∃ sub below, s.Shows n sub below ∧ sub.depth ≤ t.depth := by
  induction view with
  | @node h entry parts cell below ih =>
    have hself := Shows.node cell below
    rw [Tree.depth_node]
    by_cases hnone : parts.map Part.tree = []
    · refine ⟨[h], ?_, List.pairwise_singleton _ h, fun n hn => ?_⟩
      · rw [hnone, Tree.depthAll, List.length_singleton]
      · rw [List.mem_singleton.mp hn]
        exact ⟨_, _, hself, Nat.le_of_eq (Tree.depth_node entry _)⟩
    · obtain ⟨child, hchild, hdepth⟩ := Tree.exists_depth_eq hnone
      obtain ⟨p, hp, rfl⟩ := List.mem_map.mp hchild
      obtain ⟨chain, hlength, hnodup, hshown⟩ := ih p hp
      refine ⟨h :: chain, ?_, List.nodup_cons.mpr ⟨fun hmem => ?_, hnodup⟩, fun n hn => ?_⟩
      · rw [List.length_cons, hlength, hdepth]
      · -- the node would show a tree that is less deep than the one it shows
        obtain ⟨sub, _, hsub, hle⟩ := hshown h hmem
        rw [(hself.unique hsub).1, Tree.depth_node, hdepth] at hle
        exact Nat.lt_irrefl _ hle
      · rcases List.mem_cons.mp hn with rfl | hn
        · exact ⟨_, _, hself, Nat.le_of_eq (Tree.depth_node entry _)⟩
        · obtain ⟨sub, below, hsub, hle⟩ := hshown n hn
          exact ⟨sub, below, hsub, by omega⟩

/-- A tree has no more levels than there are cells. -/
theorem depth_le_size (view : s.Shows h t nodes) : t.depth ≤ s.size := by
  obtain ⟨chain, hlength, hnodup, hshown⟩ := view.exists_chain
  have hindices : (chain.map Handle.index).Nodup := by
    refine hnodup.map ?_
    rintro ⟨a⟩ ⟨b⟩ hab
    exact congrArg Handle.mk hab
  have hbelow : chain.map Handle.index ⊆ List.range s.size := by
    intro i hi
    obtain ⟨n, hn, rfl⟩ := List.mem_map.mp hi
    obtain ⟨sub, below, hsub, -⟩ := hshown n hn
    exact List.mem_range.mpr (hsub.lt_size hsub.mem_self)
  have hle := (hindices.subperm hbelow).length_le
  rw [List.length_map, hlength, List.length_range] at hle
  exact hle

theorem mapM_links {parts : List (Part α)} {levels : Nat}
    (h : ∀ p ∈ parts, s.treeWithin? levels p.handle = some p.tree) :
    (parts.map Part.link).mapM (fun link => s.treeWithin? levels link.2)
      = some (parts.map Part.tree) := by
  induction parts with
  | nil => rfl
  | cons p rest ih =>
    obtain ⟨hp, hrest⟩ := List.forall_mem_cons.mp h
    rw [List.map_cons, List.mapM_cons, Part.link, hp, ih hrest]
    rfl

/-- Reading a tree off takes as many levels as it is deep, and more do no harm. -/
theorem treeWithin?_eq (view : s.Shows h t nodes) {levels : Nat} (hlevels : t.depth ≤ levels) :
    s.treeWithin? levels h = some t := by
  induction view generalizing levels with
  | @node h entry parts cell _ ih =>
    rw [Tree.depth_node] at hlevels
    obtain ⟨more, rfl⟩ := Nat.exists_eq_add_of_lt hlevels
    have hparts : ∀ p ∈ parts, s.treeWithin? (Tree.depthAll (parts.map Part.tree) + more) p.handle
        = some p.tree := by
      intro p hp
      have hle := Tree.depth_le_depthAll (List.mem_map_of_mem (f := Part.tree) hp)
      exact ih p hp (by omega)
    rw [treeWithin?, cell]
    simp only [Option.bind_eq_bind, Option.bind_some, mapM_links hparts]
    rfl

/-- The view of the store is the tree that is to be seen. -/
theorem tree?_eq (view : s.Shows h t nodes) : s.tree? h = some t :=
  view.treeWithin?_eq view.depth_le_size

/-! ## Paths -/

/-- Looking for a child among the edges is looking for it among the parts. -/
theorem find?_links (parts : List (Part α)) (name : String) :
    Sorted.find? Prod.fst name (parts.map Part.link)
      = (Sorted.find? Part.name name parts).map Part.link :=
  Sorted.find?_map fun _ => rfl

theorem find?_trees (entry : Entry α) (parts : List (Part α)) (name : String) :
    (Tree.node entry (parts.map Part.tree)).find? name
      = (Sorted.find? Part.name name parts).map Part.tree :=
  Sorted.find?_map fun _ => rfl

/-- A path leads nowhere in the store and in the tree, or it leads to a node that shows the subtree
to which it leads. -/
theorem at?_cases (view : s.Shows h t nodes) (path : List String) :
    (s.at? h path = none ∧ t.at? path = none) ∨
      ∃ n sub below, s.at? h path = some n ∧ t.at? path = some sub ∧ s.Shows n sub below ∧
        below ⊆ nodes := by
  induction path generalizing h t nodes with
  | nil =>
    cases view with
    | node cell below =>
      exact .inr ⟨_, _, _, at?_nil_of_cell? cell, rfl, .node cell below, fun _ hn => hn⟩
  | cons name path ih =>
    cases view with
    | @node _ entry parts cell below =>
      rw [at?_cons_of_cell? cell, find?_links, Tree.at?_cons, find?_trees]
      cases hfind : Sorted.find? Part.name name parts with
      | none => exact .inl ⟨rfl, rfl⟩
      | some p =>
        obtain ⟨hp, -⟩ := Sorted.mem_of_find?_eq_some hfind
        rcases ih (below p hp) with hnone | ⟨n, sub, inner, hn, hsub, hview, hinner⟩
        · exact .inl hnone
        · refine .inr ⟨n, sub, inner, hn, hsub, hview, fun m hm => ?_⟩
          exact List.mem_cons_of_mem h (mem_nodesOf hp (hinner hm))

/-- The same paths lead down a store and the tree that it shows. -/
theorem isSome_at?_iff (view : s.Shows h t nodes) (path : List String) :
    (s.at? h path).isSome ↔ (t.at? path).isSome := by
  rcases view.at?_cases path with ⟨hn, hsub⟩ | ⟨n, sub, below, hn, hsub, -⟩
  · rw [hn, hsub]
    rfl
  · rw [hn, hsub]
    rfl

theorem ascending_parts {entry : Entry α} {parts : List (Part α)}
    (ordered : (Tree.node entry (parts.map Part.tree)).Ordered) :
    Sorted.Ascending Part.name parts := by
  have ascending := ordered.ascending
  rw [Tree.children, Sorted.Ascending, List.pairwise_map] at ascending
  exact ascending

/-- The nodes of a tree are those to which paths lead. -/
theorem mem_nodes_iff (view : s.Shows h t nodes) (ordered : t.Ordered) (n : Handle) :
    n ∈ nodes ↔ ∃ path, s.at? h path = some n := by
  constructor
  · intro hn
    induction view with
    | @node h entry parts cell below ih =>
      rcases List.mem_cons.mp hn with rfl | hn
      · exact ⟨[], at?_nil_of_cell? cell⟩
      · obtain ⟨p, hp, hn⟩ := List.mem_flatMap.mp hn
        obtain ⟨path, hpath⟩ := ih p hp (ordered.of_mem (List.mem_map_of_mem hp)) hn
        refine ⟨p.name :: path, ?_⟩
        rw [at?_cons_of_cell? cell, find?_links, Sorted.find?_of_mem (ascending_parts ordered) hp]
        exact hpath
  · rintro ⟨path, hpath⟩
    rcases view.at?_cases path with ⟨hn, -⟩ | ⟨m, sub, below, hm, -, hview, hbelow⟩
    · rw [hn] at hpath
      cases hpath
    · rw [hm] at hpath
      cases hpath
      exact hbelow hview.mem_self

end Shows

/-- Views of several parts depend on no other cells than those of their nodes. -/
theorem ShowsAll.frame {s s' : Store α} {parts : List (Part α)} (views : s.ShowsAll parts)
    (hsame : ∀ n ∈ nodesOf parts, s'.cell? n = s.cell? n) : s'.ShowsAll parts := by
  intro p hp
  exact (views p hp).frame fun n hn => hsame n (mem_nodesOf hp hn)

end Store

end Telemetry
