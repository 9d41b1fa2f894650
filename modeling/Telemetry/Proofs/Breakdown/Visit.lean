import Mathlib.Data.List.Forall2
import Telemetry.Proofs.Breakdown.View

/-!
# Walks along handles

A walk comes to a node, changes its cell, and goes on with the children that the cell has then. What
is kept whenever a cell is changed is kept by the whole walk (`walk_induction`).

What becomes of a tree is told by its parts. If these have no node in common, they are visited as if
each was alone, since a visit touches the cells of its own part only (`foldl_parts`).
-/

namespace Telemetry.Store

variable {α : Type}

/-! ## Walks -/

section Walking

variable {edit : Store α → Nat → Cell α → Cell α}

theorem walk_succ_of_cell? {s : Store α} {h : Handle} {cell : Cell α} (hcell : s.cell? h = some cell)
    (levels level : Nat) :
    walk edit (levels + 1) level h s
      = (edit s level cell).children.foldl
          (fun s link => walk edit levels (level + 1) link.2 s) (s.put h (edit s level cell)) := by
  rw [walk, hcell]

/-- What is kept whenever a cell is changed is kept by a walk. -/
theorem walk_induction {motive : Store α → Store α → Prop} (refl : ∀ s, motive s s)
    (trans : ∀ {s s' s''}, motive s s' → motive s' s'' → motive s s'')
    (step : ∀ s level h cell, s.cell? h = some cell → motive s (s.put h (edit s level cell)))
    (levels level : Nat) (h : Handle) (s : Store α) : motive s (walk edit levels level h s) := by
  induction levels generalizing level h s with
  | zero => exact refl s
  | succ levels ih =>
    cases hcell : s.cell? h with
    | none =>
      rw [walk, hcell]
      exact refl s
    | some cell =>
      rw [walk_succ_of_cell? hcell]
      refine trans (step s level h cell hcell) ?_
      generalize s.put h (edit s level cell) = s'
      induction (edit s level cell).children generalizing s' with
      | nil => exact refl s'
      | cons link rest ihrest => exact trans (ih (level + 1) link.2 s') (ihrest _)

theorem entry?_put {s : Store α} {h : Handle} {cell cell' : Cell α} (hcell : s.cell? h = some cell)
    (hentry : cell'.entry = cell.entry) (n : Handle) :
    Store.entry? (s.put h cell') n = s.entry? n := by
  by_cases hn : n = h
  · rw [hn, entry?_of_cell? (cell?_put_self hcell cell'), entry?_of_cell? hcell, hentry]
  · rw [entry?_eq, entry?_eq, cell?_put_of_ne s cell' hn]

end Walking

/-- To change a node is not to be noticed in parts that it does not belong to. -/
theorem ShowsAll.put {s : Store α} {parts : List (Part α)} (views : s.ShowsAll parts) {h : Handle}
    (fresh : h ∉ nodesOf parts) (cell : Cell α) : (s.put h cell).ShowsAll parts := by
  refine views.frame fun n hn => cell?_put_of_ne s cell ?_
  rintro rfl
  exact fresh hn

/-! ## Parts one after the other -/

/-- A tree has come to be seen below a handle that is made of nodes seen there before, and no other
cell has been touched. -/
def Shrinks (s s' : Store α) (h : Handle) (t : Tree α) (nodes : List Handle) : Prop :=
  ∃ nodes', s'.Shows h t nodes' ∧ nodes'.Sublist nodes ∧
    ∀ n, n ∉ nodes' → s'.cell? n = s.cell? n

/-- A part of which something has become that hangs at the same place and has no new nodes. -/
structure Part.Follows (f : Tree α → Tree α) (p p' : Part α) : Prop where
  handle : p'.handle = p.handle
  tree : p'.tree = f p.tree
  nodes : p'.nodes.Sublist p.nodes

section Following

variable {f : Tree α → Tree α} {parts parts' : List (Part α)}

theorem map_link_of_follows (hf : ∀ t, (f t).name = t.name)
    (h : List.Forall₂ (Part.Follows f) parts parts') :
    parts'.map Part.link = parts.map Part.link := by
  induction h with
  | nil => rfl
  | cons hp _ ih =>
    rw [List.map_cons, List.map_cons, ih, Part.link, Part.name, hp.handle, hp.tree, hf]
    rfl

theorem map_tree_of_follows (h : List.Forall₂ (Part.Follows f) parts parts') :
    parts'.map Part.tree = (parts.map Part.tree).map f := by
  induction h with
  | nil => rfl
  | cons hp _ ih => rw [List.map_cons, List.map_cons, List.map_cons, ih, hp.tree]

theorem nodesOf_sublist_of_follows (h : List.Forall₂ (Part.Follows f) parts parts') :
    (nodesOf parts').Sublist (nodesOf parts) := by
  induction h with
  | nil => exact List.Sublist.refl _
  | cons hp _ ih =>
    simp only [nodesOf, List.flatMap_cons]
    exact hp.nodes.append ih

/-- Parts that have no node in common can be visited one after the other, if a visit of one of them
touches its own nodes only. -/
theorem foldl_parts (f : Tree α → Tree α) (visit : Store α → String × Handle → Store α)
    {s : Store α}
    (hvisit : ∀ p ∈ parts, ∀ s : Store α, s.Shows p.handle p.tree p.nodes →
      s.Shrinks (visit s p.link) p.handle (f p.tree) p.nodes)
    (views : s.ShowsAll parts) (hnodup : (nodesOf parts).Nodup) :
    ∃ parts', List.Forall₂ (Part.Follows f) parts parts' ∧
      ((parts.map Part.link).foldl visit s).ShowsAll parts' ∧
      ∀ n, n ∉ nodesOf parts' → ((parts.map Part.link).foldl visit s).cell? n = s.cell? n := by
  induction parts generalizing s with
  | nil => exact ⟨[], .nil, fun _ hp => (nomatch hp), fun _ _ => rfl⟩
  | cons p rest ih =>
    obtain ⟨hvisitp, hvisits⟩ := List.forall_mem_cons.mp hvisit
    obtain ⟨view, views⟩ := List.forall_mem_cons.mp views
    obtain ⟨-, hrest, hdisjoint⟩ := nodup_nodesOf_cons.mp hnodup
    obtain ⟨nodes', hview', hsub, hframe⟩ := hvisitp s view
    have views' : (visit s p.link).ShowsAll rest :=
      ShowsAll.frame views fun n hn => hframe n fun hmem => hdisjoint n (hsub.subset hmem) hn
    obtain ⟨rest', hfollows, hviews, hframes⟩ := ih hvisits views' hrest
    have hsubs := nodesOf_sublist_of_follows hfollows
    refine ⟨⟨p.handle, f p.tree, nodes'⟩ :: rest', .cons ⟨rfl, rfl, hsub⟩ hfollows, ?_, ?_⟩
    · refine List.forall_mem_cons.mpr ⟨hview'.frame fun n hn => hframes n fun hmem => ?_, hviews⟩
      exact hdisjoint n (hsub.subset hn) (hsubs.subset hmem)
    · intro n hn
      obtain ⟨hfirst, hothers⟩ := not_mem_nodesOf_cons.mp hn
      exact (hframes n hothers).trans (hframe n hfirst)

end Following

end Telemetry.Store
