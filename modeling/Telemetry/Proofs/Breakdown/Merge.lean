import Telemetry.Proofs.Breakdown.Growth

/-!
# Merging and growing

To merge a tree into another is to visit its nodes in their order, while a tree grows along the
paths of its samples in whatever order they come. The two meet in one law: a value added to a tree
before it is merged might as well be added to the outcome (`merge_incrementAt`).

The law rests on the changes of different children not getting into each other's way
(`amendChild_comm`), so that a change of one child can be moved past all others. As a node that is
made for a merge starts with nothing, nothing must be neutral, and sums must not depend on how they
are formed.
-/

namespace Telemetry.Tree

variable {α : Type} [Quantity α]

/-! ## Moving changes past each other -/

/-- A child amended twice is one that was amended once with both. -/
theorem amendChild_amendChild {f g : Tree α → Tree α} (hf : ∀ t, (f t).name = t.name)
    (name : String) (t : Tree α) :
    (t.amendChild name f).amendChild name g = t.amendChild name fun child => g (f child) := by
  cases t with
  | node entry children =>
    exact congrArg (node entry) (Sorted.amend_amend (faithful_amendChild hf name) _)

/-- Children of different names are amended in any order. -/
theorem amendChild_comm {f g : Tree α → Tree α} (hf : ∀ t, (f t).name = t.name)
    (hg : ∀ t, (g t).name = t.name) {name other : String} (hne : name ≠ other) (t : Tree α) :
    (t.amendChild other g).amendChild name f = (t.amendChild name f).amendChild other g := by
  cases t with
  | node entry children =>
    exact congrArg (node entry)
      (Sorted.amend_comm hne (faithful_amendChild hf name) (faithful_amendChild hg other))

/-- What is done to a node and to one of its children is done in any order. -/
theorem mapTop_amendChild (f : Entry α → Entry α) (name : String) (g : Tree α → Tree α)
    (t : Tree α) : (t.amendChild name g).mapTop f = (t.mapTop f).amendChild name g := by
  cases t
  rfl

/-! ## Merging -/

theorem mergeAll_cons (into child : Tree α) (rest : List (Tree α)) :
    mergeAll into (child :: rest)
      = mergeAll (into.amendChild child.name (merge · child)) rest := by
  rw [mergeAll]

/-- Merging counts the top in, and then merges the children one after the other. -/
theorem merge_node (into : Tree α) (entry : Entry α) (children : List (Tree α)) :
    into.merge (node entry children)
      = mergeAll (into.mapTop (·.increment entry.measurement entry.sampleCount)) children := by
  rw [merge]

theorem name_mergeAll (into : Tree α) (children : List (Tree α)) :
    (mergeAll into children).name = into.name := by
  induction children generalizing into with
  | nil => rw [mergeAll]
  | cons child rest ih => rw [mergeAll_cons, ih, name, entry_amendChild, name]

@[simp] theorem name_merge (into t : Tree α) : (into.merge t).name = into.name := by
  cases t with
  | node entry children =>
    rw [merge_node, name_mergeAll]
    cases into
    rfl

/-- Merging children leaves the top alone. -/
theorem mergeAll_mapTop (f : Entry α → Entry α) (into : Tree α) (children : List (Tree α)) :
    mergeAll (into.mapTop f) children = (mergeAll into children).mapTop f := by
  induction children generalizing into with
  | nil => rw [mergeAll, mergeAll]
  | cons child rest ih => rw [mergeAll_cons, mergeAll_cons, ← mapTop_amendChild, ih]

/-- A child that is not among those merged may be changed before or after. -/
theorem mergeAll_amendChild {f : Tree α → Tree α} (hf : ∀ t, (f t).name = t.name) {name : String}
    {children : List (Tree α)} (hne : ∀ child ∈ children, name ≠ child.name) (into : Tree α) :
    mergeAll (into.amendChild name f) children = (mergeAll into children).amendChild name f := by
  induction children generalizing into with
  | nil => rw [mergeAll, mergeAll]
  | cons child rest ih =>
    have hfirst : name ≠ child.name := hne child List.mem_cons_self
    have hrest : ∀ other ∈ rest, name ≠ other.name := fun other hmem =>
      hne other (List.mem_cons_of_mem child hmem)
    rw [mergeAll_cons, mergeAll_cons,
      ← amendChild_comm hf (fun t => name_merge t child) hfirst, ih hrest]

section Exact

variable [Quantity.Exact α]

/-- Nothing comes of merging a node of which only the name is known. -/
theorem merge_leaf (into : Tree α) (name : String) : into.merge (leaf name) = into := by
  cases into with
  | node entry children =>
    rw [leaf, merge_node, mergeAll]
    exact congrArg (node · children) (increment_zero entry)

/-- The children of a node grow, and what they are merged into grows with them. -/
theorem mergeAll_amend {f : Tree α → Tree α} (hf : ∀ t, (f t).name = t.name)
    (hmerge : ∀ {t : Tree α}, t.Ordered → ∀ into : Tree α,
      into.merge (f t) = f (into.merge t))
    {name : String} {children : List (Tree α)} (ascending : Sorted.Ascending Tree.name children)
    (deeper : ∀ child ∈ children, child.Ordered) (into : Tree α) :
    mergeAll into
        (Sorted.amend Tree.name name (fun child => f (child.getD (leaf name))) children)
      = (mergeAll into children).amendChild name f := by
  have hmade : ∀ into : Tree α,
      into.amendChild name (merge · (f (leaf name))) = into.amendChild name f := by
    intro into
    congr 1
    funext t
    rw [hmerge (ordered_leaf name), merge_leaf]
  induction children generalizing into with
  | nil =>
    rw [Sorted.amend, mergeAll_cons, mergeAll, mergeAll, Option.getD_none, hf]
    exact hmade into
  | cons child rest ih =>
    obtain ⟨hfirst, ascending⟩ := List.pairwise_cons.mp ascending
    have hdeeper : ∀ other ∈ rest, other.Ordered := fun other hmem =>
      deeper other (List.mem_cons_of_mem child hmem)
    rcases Sorted.lt_or_eq_or_gt child.name name with hlt | heq | hgt
    · rw [Sorted.amend_cons_of_lt hlt, mergeAll_cons, mergeAll_cons]
      exact ih ascending hdeeper _
    · -- the child is changed when its turn comes, and those that follow have other names
      have hchanged : into.amendChild name (merge · (f child))
          = (into.amendChild name (merge · child)).amendChild name f := by
        rw [amendChild_amendChild fun t => name_merge t child]
        congr 1
        funext t
        exact hmerge (deeper child List.mem_cons_self) t
      have hne : ∀ other ∈ rest, name ≠ other.name := fun other hmem =>
        heq ▸ Sorted.ne_of_lt (hfirst other hmem)
      rw [Sorted.amend_cons_of_eq heq, Option.getD_some, mergeAll_cons, mergeAll_cons, hf, heq,
        hchanged, mergeAll_amendChild hf hne]
    · have hne : ∀ other ∈ child :: rest, name ≠ other.name := by
        intro other hmem
        rcases List.mem_cons.mp hmem with rfl | hmem
        · exact Sorted.ne_of_lt hgt
        · exact Sorted.ne_of_lt (String.lt_trans hgt (hfirst other hmem))
      have hname : (leaf name : Tree α).name = name := rfl
      rw [Sorted.amend_cons_of_gt hgt, Option.getD_none, mergeAll_cons, hf, hname, hmade,
        mergeAll_amendChild hf hne]

/-- A value may be added to a tree that is merged, or to the outcome. -/
theorem Ordered.merge_incrementAt {t : Tree α} (h : t.Ordered) (path : List String) (v : α)
    (c : Int64) (into : Tree α) :
    into.merge (t.incrementAt path v c) = (into.merge t).incrementAt path v c := by
  induction path generalizing t into with
  | nil =>
    cases t with
    | node entry children =>
      change into.merge (Tree.node (entry.increment v c) children) = _
      rw [merge_node, merge_node, Tree.incrementAt, Tree.amendAt, ← mergeAll_mapTop]
      congr 1
      cases into with
      | node top below =>
        exact congrArg (Tree.node · below) (increment_increment top _ _ _ _).symm
  | cons name path ih =>
    cases h with
    | @node entry children ascending deeper =>
      change into.merge (Tree.node entry (Sorted.amend Tree.name name
        (fun child => Tree.incrementAt path v c (child.getD (leaf name))) children)) = _
      rw [merge_node, merge_node]
      exact mergeAll_amend (name_incrementAt path v c) (fun ht into => ih ht into) ascending
        deeper _

end Exact

end Telemetry.Tree
