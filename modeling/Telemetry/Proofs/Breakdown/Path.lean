import Telemetry.Breakdown.Tree

/-!
# Nodes by their paths

A node of a tree is known by the names on the way down to it. This module says what each operation
does to the node at a path: a pass works on it as on the whole tree (`at?_of_pass`), a filter leaves
it unless something on the way is removed (`Ordered.at?_filterNames`,
`Ordered.at?_prune_eq_some_iff`), and a picture has a node where the tree has one
(`Ordered.nodesAt_toRecord`).

A filter may only be followed along paths if no two children share a name: else it could remove the
first of two and bring the second to light. `Ordered` says that all children ascend, and is kept by
everything that is done to a tree.
-/

namespace Telemetry

variable {α : Type}

namespace Tree

/-- Trees are taken apart into their top and the trees right below it. -/
theorem induction {motive : Tree α → Prop}
    (node : ∀ entry children, (∀ child ∈ children, motive child) → motive (.node entry children)) :
    ∀ t, motive t
  | .node entry children => node entry children fun child _ => induction node child

/-- The children of every node ascend. -/
inductive Ordered : Tree α → Prop where
  | node {entry : Entry α} {children : List (Tree α)}
      (ascending : Sorted.Ascending Tree.name children)
      (deeper : ∀ child ∈ children, Ordered child) : Ordered (.node entry children)

theorem Ordered.ascending {t : Tree α} (h : Ordered t) :
    Sorted.Ascending Tree.name t.children := by
  cases h with
  | node ascending _ => exact ascending

/-- Order goes down: what hangs below an ordered tree is ordered itself. -/
theorem Ordered.of_mem {t : Tree α} (h : Ordered t) {child : Tree α} (hmem : child ∈ t.children) :
    Ordered child := by
  cases h with
  | node _ deeper => exact deeper child hmem

theorem Ordered.of_find? {t child : Tree α} {name : String} (h : Ordered t)
    (hfind : t.find? name = some child) : Ordered child :=
  h.of_mem (Sorted.mem_of_find?_eq_some hfind).1

/-- Children that keep their names keep their order. -/
theorem ordered_node_map {β : Type} (entry : Entry α) {children : List (Tree β)}
    {f : Tree β → Tree α} (hname : ∀ t, (f t).name = t.name)
    (ascending : Sorted.Ascending Tree.name children)
    (deeper : ∀ child ∈ children, Ordered (f child)) :
    Ordered (.node entry (children.map f)) := by
  refine .node ?_ fun child hmem => ?_
  · rw [Sorted.Ascending, List.pairwise_map]
    simp only [hname]
    exact ascending
  · obtain ⟨old, hold, rfl⟩ := List.mem_map.mp hmem
    exact deeper old hold

/-- The child found under a name bears that name. -/
theorem name_of_find? {t child : Tree α} {name : String} (hfind : t.find? name = some child) :
    child.name = name :=
  (Sorted.mem_of_find?_eq_some hfind).2

/-! ## Walking down -/

@[simp] theorem at?_nil (t : Tree α) : t.at? [] = some t := rfl

theorem at?_cons (name : String) (path : List String) (t : Tree α) :
    t.at? (name :: path) = (t.find? name).bind (at? path) := rfl

/-- A path can be walked in two parts, the second from where the first has led. -/
theorem at?_append (path rest : List String) (t : Tree α) :
    t.at? (path ++ rest) = (t.at? path).bind (at? rest) := by
  induction path generalizing t with
  | nil => rfl
  | cons name path ih =>
    rw [List.cons_append, at?_cons, at?_cons, Option.bind_assoc]
    congr 1
    funext child
    exact ih child

/-! ## Passes -/

/-- A pass rewrites the entry of a tree and goes on with all its children. -/
theorem map_node (f : Entry α → Entry α) (entry : Entry α) (children : List (Tree α)) :
    (node entry children).map f = node (f entry) (children.map (Tree.map f)) := by
  rw [Tree.map, mapAll_eq]

theorem name_map {f : Entry α → Entry α} (hf : ∀ entry, (f entry).name = entry.name)
    (t : Tree α) : (t.map f).name = t.name := by
  cases t with
  | node entry children => exact hf entry

/-- What works on all children alike and keeps their names works on the node at a path as on the
whole tree: no other node has a part in it. -/
theorem at?_of_pass {pass : Tree α → Tree α} (hname : ∀ t, (pass t).name = t.name)
    (hchildren : ∀ t, (pass t).children = t.children.map pass) (path : List String) (t : Tree α) :
    (pass t).at? path = (t.at? path).map pass := by
  induction path generalizing t with
  | nil => rfl
  | cons name path ih =>
    rw [at?_cons, at?_cons, find?, find?, hchildren, Sorted.find?_map hname, Option.bind_map,
      Option.map_bind]
    congr 1
    funext child
    exact ih child

section Rolling

variable [Quantity α]

/-- Counting the children in leaves an entry under its own name, whatever they are called. -/
@[simp] theorem name_addAll (entry : Entry α) (children : List (Tree α)) :
    (addAll entry children).name = entry.name := by
  rw [addAll]
  induction children generalizing entry with
  | nil => rfl
  | cons child rest ih => rw [List.foldl_cons, ih, Entry.name_increment]

/-- What a tree counts in from its children is what they are after their own passes: the pass goes
from the leaves up. -/
theorem rollup_node (entry : Entry α) (children : List (Tree α)) :
    rollup (node entry children)
      = node (addAll entry (children.map rollup)) (children.map rollup) := by
  rw [rollup, rollupAll_eq]

@[simp] theorem name_rollup (t : Tree α) : t.rollup.name = t.name := by
  cases t with
  | node entry children =>
    rw [rollup_node]
    exact name_addAll entry _

/-- A node of a tree that was rolled up is that node rolled up by itself. -/
theorem at?_rollup (path : List String) (t : Tree α) :
    t.rollup.at? path = (t.at? path).map rollup := by
  refine at?_of_pass name_rollup (fun t => ?_) path t
  cases t with
  | node entry children =>
    rw [rollup_node]
    rfl

/-- Rolling a tree up moves no child. -/
theorem Ordered.rollup {t : Tree α} (h : t.Ordered) : t.rollup.Ordered := by
  induction t using induction with
  | node entry children ih =>
    rw [rollup_node]
    exact ordered_node_map _ name_rollup h.ascending fun child hmem => ih child hmem (h.of_mem hmem)

end Rolling

/-! ## Filters -/

/-- A filter decides about the children of a node as they are before the pass, and then works on
those it has kept, one level further down. -/
theorem prune_node (keep : Nat → Entry α → Bool) (level : Nat) (entry : Entry α)
    (children : List (Tree α)) :
    prune keep level (node entry children)
      = node entry
          ((children.filter fun child => keep level child.entry).map (prune keep (level + 1))) := by
  rw [prune, pruneAll_eq]

/-- The root is never removed, and keeps its entry. -/
@[simp] theorem entry_prune (keep : Nat → Entry α → Bool) (level : Nat) (t : Tree α) :
    (t.prune keep level).entry = t.entry := by
  cases t
  rfl

@[simp] theorem name_prune (keep : Nat → Entry α → Bool) (level : Nat) (t : Tree α) :
    (t.prune keep level).name = t.name := by
  rw [name, name, entry_prune]

/-- A child is still there after a pass if it was there before and is kept. Order is needed: a
second child of the name would take the place of the first. -/
theorem Ordered.find?_prune {t : Tree α} (h : t.Ordered) (keep : Nat → Entry α → Bool)
    (level : Nat) (name : String) :
    (t.prune keep level).find? name
      = ((t.find? name).filter fun child => keep level child.entry).map
          (prune keep (level + 1)) := by
  cases h with
  | @node entry children ascending _ =>
    rw [prune_node]
    simp only [find?, Tree.children]
    rw [Sorted.find?_map fun t => name_prune keep (level + 1) t, Sorted.find?_filter ascending]

/-- A filter moves no child. -/
theorem Ordered.prune {t : Tree α} (h : t.Ordered) (keep : Nat → Entry α → Bool) (level : Nat) :
    (t.prune keep level).Ordered := by
  induction t using induction generalizing level with
  | node entry children ih =>
    rw [prune_node]
    refine ordered_node_map entry (name_prune keep (level + 1)) (h.ascending.filter _) ?_
    intro child hmem
    have hmem : child ∈ children := (List.mem_filter.mp hmem).1
    exact ih child hmem (h.of_mem hmem) (level + 1)

/-- What is found below a filtered tree is kept on its first level, and filtered from there on. -/
theorem Ordered.at?_prune_cons {t : Tree α} (h : t.Ordered) (keep : Nat → Entry α → Bool)
    (level : Nat) (name : String) (path : List String) :
    (t.prune keep level).at? (name :: path)
      = (t.find? name).bind fun child =>
          if keep level child.entry then (child.prune keep (level + 1)).at? path else none := by
  rw [at?_cons, h.find?_prune]
  cases t.find? name with
  | none => rfl
  | some child => cases hkeep : keep level child.entry <;> simp [Option.filter, hkeep]

/-- A filter by name is the same on every level. -/
theorem prune_keepName (keep : String → Bool) (level : Nat) (t : Tree α) :
    t.prune (keepName keep) level = t.filterNames keep := by
  induction t using induction generalizing level with
  | node entry children ih =>
    rw [filterNames, prune_node, prune_node]
    congr 1
    refine List.map_congr_left fun child hmem => ?_
    have hmem : child ∈ children := (List.mem_filter.mp hmem).1
    rw [ih child hmem (level + 1), ih child hmem (1 + 1)]

/-- A filter by name works on every child that it keeps as on the whole tree, as it minds no levels.
-/
theorem filterNames_node (keep : String → Bool) (entry : Entry α) (children : List (Tree α)) :
    (node entry children).filterNames keep
      = node entry ((children.filter fun child => keep child.name).map (filterNames keep)) := by
  rw [filterNames, prune_node]
  congr 1
  exact List.map_congr_left fun child _ => prune_keepName keep (1 + 1) child

theorem Ordered.filterNames {t : Tree α} (h : t.Ordered) (keep : String → Bool) :
    (t.filterNames keep).Ordered :=
  h.prune _ 1

/-- A node is left by a filter by name if every name on its path is accepted. -/
theorem Ordered.at?_filterNames {t : Tree α} (h : t.Ordered) (keep : String → Bool)
    (path : List String) :
    (t.filterNames keep).at? path
      = if path.all keep then (t.at? path).map (Tree.filterNames keep) else none := by
  induction path generalizing t with
  | nil => rfl
  | cons name path ih =>
    rw [Tree.filterNames, h.at?_prune_cons, at?_cons]
    cases hfind : t.find? name with
    | none => simp
    | some child =>
      have hname : child.entry.name = name := name_of_find? hfind
      simp only [Option.bind_some, keepName, hname, List.all_cons, Bool.and_eq_true]
      rw [prune_keepName, ih (h.of_find? hfind)]
      by_cases hkeep : keep name <;> simp [hkeep]

/-- Every node on a path is kept, the one at its end included, if it is there. -/
def KeptAlong (keep : Nat → Entry α → Bool) (level : Nat) (path : List String) (t : Tree α) :
    Prop :=
  ∀ upper above, upper ≠ [] → upper <+: path → t.at? upper = some above →
    keep (level + upper.length) above.entry

/-- The root is on no path, so a filter asks nothing about it. -/
theorem keptAlong_nil (keep : Nat → Entry α → Bool) (level : Nat) (t : Tree α) :
    KeptAlong keep level [] t :=
  fun _ _ hne hle _ => absurd (List.prefix_nil.mp hle) hne

/-- The first node on a path is the child that it starts with, and the others are below that. -/
theorem keptAlong_cons_iff {t child : Tree α} {name : String} (hfind : t.find? name = some child)
    (keep : Nat → Entry α → Bool) (level : Nat) (path : List String) :
    KeptAlong keep level (name :: path) t ↔
      keep (level + 1) child.entry ∧ KeptAlong keep (level + 1) path child := by
  have hat : ∀ rest, t.at? (name :: rest) = child.at? rest := by
    intro rest
    rw [at?_cons, hfind, Option.bind_some]
  constructor
  · intro hkept
    refine ⟨?_, fun upper above hne hle hupper => ?_⟩
    · exact hkept [name] child (List.cons_ne_nil _ _)
        (List.cons_prefix_cons.mpr ⟨rfl, List.nil_prefix⟩) (hat [])
    · rw [Nat.add_right_comm, Nat.add_assoc]
      exact hkept (name :: upper) above (List.cons_ne_nil _ _)
        (List.cons_prefix_cons.mpr ⟨rfl, hle⟩) ((hat upper).trans hupper)
  · rintro ⟨hchild, hbelow⟩ upper above hne hle hupper
    cases upper with
    | nil => exact absurd rfl hne
    | cons first upper =>
      obtain ⟨rfl, hrest⟩ := List.cons_prefix_cons.mp hle
      rw [hat] at hupper
      cases upper with
      | nil =>
        rw [← Option.some.inj hupper]
        exact hchild
      | cons second upper =>
        have hkept := hbelow (second :: upper) above (List.cons_ne_nil _ _) hrest hupper
        rw [Nat.add_right_comm, Nat.add_assoc] at hkept
        exact hkept

/-- A node is left by a filter if it and every node on its path is kept. -/
theorem Ordered.at?_prune_eq_some_iff {t : Tree α} (h : t.Ordered) (keep : Nat → Entry α → Bool)
    (level : Nat) (path : List String) (sub : Tree α) :
    (t.prune keep (level + 1)).at? path = some sub ↔
      ∃ whole, t.at? path = some whole ∧ whole.prune keep (level + path.length + 1) = sub ∧
        KeptAlong keep level path t := by
  induction path generalizing t level with
  | nil =>
    constructor
    · intro hat
      exact ⟨t, rfl, Option.some.inj hat, keptAlong_nil keep level t⟩
    · rintro ⟨whole, hat, hsub, -⟩
      rw [← hsub, ← Option.some.inj hat]
      rfl
  | cons name path ih =>
    rw [h.at?_prune_cons, at?_cons]
    cases hfind : t.find? name with
    | none => simp
    | some child =>
      have hlevel : level + 1 + path.length = level + (name :: path).length := by
        rw [List.length_cons, Nat.add_right_comm, Nat.add_assoc]
      have hchild := ih (h.of_find? hfind) (level + 1)
      rw [hlevel] at hchild
      simp only [Option.bind_some, keptAlong_cons_iff hfind]
      by_cases hkeep : keep (level + 1) child.entry
      · rw [if_pos hkeep, hchild]
        simp only [hkeep, true_and]
      · rw [if_neg hkeep]
        simp [hkeep]

/-! ## Pictures -/

/-- The picture of a tree has the fields of its entry and the pictures of its children. -/
theorem toRecord_node (entry : Entry α) (children : List (Tree α)) :
    (node entry children).toRecord
      = { name := entry.name, measurement := entry.measurement, sampleCount := entry.sampleCount
          children := children.map toRecord } := by
  rw [toRecord, toRecords_eq]

@[simp] theorem name_toRecord (t : Tree α) : t.toRecord.name = t.name := by
  cases t
  rw [toRecord_node]
  rfl

@[simp] theorem measurement_toRecord (t : Tree α) : t.toRecord.measurement = t.measurement := by
  cases t
  rw [toRecord_node]
  rfl

@[simp] theorem sampleCount_toRecord (t : Tree α) : t.toRecord.sampleCount = t.sampleCount := by
  cases t
  rw [toRecord_node]
  rfl

end Tree

/-- All nodes of a picture to which a path of names leads. -/
def BreakdownRecord.nodesAt {α : Type} :
    List String → BreakdownRecord α → List (BreakdownRecord α)
  | [], record => [record]
  | name :: path, record =>
    (record.children.filter fun child => child.name == name).flatMap (nodesAt path)

namespace Tree

/-- A picture has what the tree has, and nothing twice. -/
theorem Ordered.nodesAt_toRecord {t : Tree α} (h : t.Ordered) (path : List String) :
    t.toRecord.nodesAt path = ((t.at? path).map toRecord).toList := by
  induction path generalizing t with
  | nil => rfl
  | cons name path ih =>
    cases h with
    | @node entry children ascending deeper =>
      have hnames : (children.map toRecord).filter (fun child => child.name == name)
          = ((Sorted.find? Tree.name name children).map toRecord).toList := by
        rw [List.filter_map, Option.toList_map, ← Sorted.filter_name (Sorted.nodup_names ascending)]
        simp only [Function.comp_def, name_toRecord]
      rw [toRecord_node, BreakdownRecord.nodesAt, hnames, at?_cons, find?, Tree.children]
      cases hfind : Sorted.find? Tree.name name children with
      | none => rfl
      | some child =>
        -- of several children with one name there is only this one, so there is one way on
        simp only [Option.map_some, Option.toList_some, List.flatMap_singleton, Option.bind_some]
        exact ih (deeper child (Sorted.mem_of_find?_eq_some hfind).1)

end Tree

end Telemetry
