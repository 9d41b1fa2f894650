import Telemetry.Proofs.Breakdown.View

/-!
# Children under their names

A node is to be found among the children of another under its own name, and these names ascend. A
cell for which this is so is filed (`FiledCell`), and stays filed when a child is lost or put at its
place.

In a store all of whose cells are filed there is no more to a tree than what is to be seen: what the
store returns as a tree is shown by it (`Filed.exists_shows`), and the children of all its nodes
ascend (`Filed.ordered`).
-/

namespace Telemetry.Store

variable {α : Type} {s s' : Store α}

/-! ## Names -/

/-- The name of a node. -/
def name? (s : Store α) (h : Handle) : Option String := (s.entry? h).map Entry.name

theorem name?_of_cell? {n : Handle} {cell : Cell α} (hcell : s.cell? n = some cell) :
    s.name? n = some cell.entry.name := by
  rw [name?, entry?_of_cell? hcell, Option.map_some]

theorem lt_size_of_name? {n : Handle} {name : String} (h : s.name? n = some name) :
    n.index < s.size := by
  obtain ⟨entry, hentry, -⟩ := Option.map_eq_some_iff.mp h
  obtain ⟨cell, hcell, -⟩ := Option.map_eq_some_iff.mp hentry
  exact lt_size_of_cell? hcell

/-- Writing a cell over one of the same name renames no node, itself included. -/
theorem name?_put {h : Handle} {cell cell' : Cell α} (hcell : s.cell? h = some cell)
    (hname : cell'.entry.name = cell.entry.name) (n : Handle) :
    (s.put h cell').name? n = s.name? n := by
  by_cases hn : n = h
  · rw [hn, name?_of_cell? (cell?_put_self hcell cell'), name?_of_cell? hcell, hname]
  · rw [name?, name?, entry?_eq, entry?_eq, cell?_put_of_ne s cell' hn]

/-! ## Filed cells -/

/-- The children of a cell are stored under their own names, in the order of these. -/
structure FiledCell (s : Store α) (cell : Cell α) : Prop where
  ascending : Sorted.Ascending Prod.fst cell.children
  named : ∀ link ∈ cell.children, s.name? link.2 = some link.1

/-- All children are stored under their own names. -/
def Filed (s : Store α) : Prop := ∀ n cell, s.cell? n = some cell → s.FiledCell cell

/-- What is filed stays filed as long as no child is renamed. -/
theorem FiledCell.mono {cell : Cell α} (h : s.FiledCell cell)
    (hname : ∀ n name, s.name? n = some name → s'.name? n = some name) : s'.FiledCell cell where
  ascending := h.ascending
  named link hmem := hname _ _ (h.named link hmem)

/-- A filter unfiles nothing. -/
theorem FiledCell.sublist {cell cell' : Cell α} (h : s.FiledCell cell)
    (fewer : cell'.children.Sublist cell.children) : s.FiledCell cell' where
  ascending := h.ascending.sublist fewer
  named link hmem := h.named link (fewer.subset hmem)

/-- A child that is put in may take the place of another of its name, but brings in no second one.
-/
theorem mem_put_links {links : List (String × Handle)} {name : String} {child : Handle}
    {link : String × Handle} (hmem : link ∈ Sorted.put Prod.fst (name, child) links) :
    link ∈ links ∨ link = (name, child) := by
  rcases Sorted.mem_amend hmem with hold | rfl | ⟨_, -, -, rfl⟩
  · exact .inl hold
  · exact .inr rfl
  · exact .inr rfl

/-- A node that is put under its name is filed there. -/
theorem FiledCell.put {cell : Cell α} (h : s.FiledCell cell) {child : Handle} {name : String}
    (hchild : s.name? child = some name) :
    s.FiledCell { cell with children := Sorted.put Prod.fst (name, child) cell.children } where
  ascending := Sorted.ascending_amend ⟨rfl, fun _ _ => rfl⟩ h.ascending
  named := by
    intro link hmem
    rcases mem_put_links hmem with hold | rfl
    · exact h.named link hold
    · exact hchild

/-! ## Trees in a filed store -/

/-- If every child of a node can be shown, all of them can be shown together. -/
theorem exists_parts_of_mapM {levels : Nat} {links : List (String × Handle)}
    {trees : List (Tree α)} (named : ∀ link ∈ links, s.name? link.2 = some link.1)
    (hshows : ∀ (link : String × Handle) t, s.treeWithin? levels link.2 = some t →
      ∃ nodes, s.Shows link.2 t nodes)
    (htrees : links.mapM (fun link => s.treeWithin? levels link.2) = some trees) :
    ∃ parts : List (Part α), parts.map Part.link = links ∧ parts.map Part.tree = trees ∧
      s.ShowsAll parts := by
  induction links generalizing trees with
  | nil =>
    obtain rfl := Option.some.inj htrees
    exact ⟨[], rfl, rfl, List.forall_mem_nil _⟩
  | cons link rest ih =>
    obtain ⟨hlink, hrest⟩ := List.forall_mem_cons.mp named
    rw [List.mapM_cons] at htrees
    obtain ⟨t, ht, htrees⟩ := Option.bind_eq_some_iff.mp htrees
    obtain ⟨others, hothers, htrees⟩ := Option.bind_eq_some_iff.mp htrees
    obtain rfl := Option.some.inj htrees
    obtain ⟨nodes, view⟩ := hshows link t ht
    obtain ⟨parts, rfl, rfl, views⟩ := ih hrest hothers
    refine ⟨⟨link.2, t, nodes⟩ :: parts, ?_, rfl, List.forall_mem_cons.mpr ⟨view, views⟩⟩
    have hname : t.name = link.1 := by
      rw [name?, view.entry_eq] at hlink
      exact Option.some.inj hlink
    rw [List.map_cons, Part.link, Part.name, hname]

/-- By induction on the levels: a tree that is read off is one the store shows. -/
theorem Filed.exists_shows_of_treeWithin? (filed : s.Filed) {levels : Nat} {h : Handle}
    {t : Tree α} (ht : s.treeWithin? levels h = some t) : ∃ nodes, s.Shows h t nodes := by
  induction levels generalizing h t with
  | zero => cases ht
  | succ levels ih =>
    rw [treeWithin?] at ht
    obtain ⟨⟨entry, links⟩, hcell, ht⟩ := Option.bind_eq_some_iff.mp ht
    obtain ⟨trees, htrees, ht⟩ := Option.bind_eq_some_iff.mp ht
    obtain rfl := Option.some.inj ht
    obtain ⟨parts, rfl, rfl, views⟩ :=
      exists_parts_of_mapM (filed h _ hcell).named (fun link t ht => ih ht) htrees
    exact ⟨_, .node hcell views⟩

/-- What a store returns as a tree is to be seen in it. -/
theorem Filed.exists_shows (filed : s.Filed) {h : Handle} {t : Tree α} (ht : s.tree? h = some t) :
    ∃ nodes, s.Shows h t nodes :=
  filed.exists_shows_of_treeWithin? ht

/-- The children of a tree that is to be seen ascend. -/
theorem Filed.ordered (filed : s.Filed) {h : Handle} {t : Tree α} {nodes : List Handle}
    (view : s.Shows h t nodes) : t.Ordered := by
  induction view with
  | @node h entry parts cell _ ih =>
    refine .node ?_ fun child hchild => ?_
    · have hascending := (filed h _ cell).ascending
      rw [Sorted.Ascending, List.pairwise_map] at hascending ⊢
      exact hascending
    · obtain ⟨p, hp, rfl⟩ := List.mem_map.mp hchild
      exact ih p hp

end Telemetry.Store
