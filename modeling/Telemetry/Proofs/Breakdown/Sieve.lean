import Telemetry.Proofs.Breakdown.Visit
import Telemetry.Proofs.Quantity.Order

/-!
# Filters over shared nodes

A filter walks along the handles and cuts off the children that it refuses, each with all that hangs
below it. Where no node is met twice this is to prune the tree that is to be seen (`Shows.sift`): what
is left consists of nodes that were there before, and no other cell is touched, not even those that
were cut off.

So a path leads, after a filter, to the node to which it led before, or nowhere
(`Thinner.at?_eq_some`). This makes the filters sieves: each is told by the paths that it lets
through, two of them let through what both would, in either order, and nothing is left to do for one
that is used again (`Store.Shows.sieves`).
-/

namespace Telemetry

variable {α : Type}

/-! ## Pruning twice -/

namespace Tree

/-- To prune twice is to keep what both would keep. -/
theorem prune_prune (keep keep' : Nat → Entry α → Bool) (level : Nat) (t : Tree α) :
    (t.prune keep level).prune keep' level
      = t.prune (fun level entry => keep level entry && keep' level entry) level := by
  induction t using induction generalizing level with
  | node entry children ih =>
    rw [prune_node, prune_node, prune_node, List.filter_map, List.filter_filter, List.map_map]
    congr 1
    have hboth : (fun child : Tree α =>
          ((fun child => keep' level child.entry) ∘ prune keep (level + 1)) child
            && keep level child.entry)
        = fun child => keep level child.entry && keep' level child.entry := by
      funext child
      rw [Function.comp, entry_prune, Bool.and_comm]
    rw [hboth]
    refine List.map_congr_left fun child hmem => ?_
    exact ih child (List.mem_filter.mp hmem).1 (level + 1)

theorem prune_idem (keep : Nat → Entry α → Bool) (level : Nat) (t : Tree α) :
    (t.prune keep level).prune keep level = t.prune keep level := by
  rw [prune_prune]
  simp only [Bool.and_self]

theorem prune_comm (keep keep' : Nat → Entry α → Bool) (level : Nat) (t : Tree α) :
    (t.prune keep level).prune keep' level = (t.prune keep' level).prune keep level := by
  rw [prune_prune, prune_prune]
  simp only [Bool.and_comm]

/-- Along a path that leads somewhere, a filter by name looks at the names of the path. -/
theorem Ordered.keptAlong_keepName_iff {t : Tree α} (h : t.Ordered) (keep : String → Bool)
    {path : List String} (hsome : (t.at? path).isSome) :
    KeptAlong (keepName keep) 0 path t ↔ path.all keep := by
  obtain ⟨whole, hwhole⟩ := Option.isSome_iff_exists.mp hsome
  have hleft := h.at?_filterNames keep path
  rw [hwhole, Option.map_some] at hleft
  constructor
  · intro hkept
    have hsub := (h.at?_prune_eq_some_iff (keepName keep) 0 path _).mpr ⟨whole, hwhole, rfl, hkept⟩
    by_contra hall
    rw [if_neg hall, Tree.filterNames, hsub] at hleft
    cases hleft
  · intro hall
    rw [if_pos hall] at hleft
    obtain ⟨-, -, -, hkept⟩ := (h.at?_prune_eq_some_iff (keepName keep) 0 path _).mp hleft
    exact hkept

end Tree

namespace Store

/-! ## Thinner stores -/

/-- The same nodes with the same entries, some of which have lost children. -/
def Thinner (s s' : Store α) : Prop :=
  ∀ n cell', s'.cell? n = some cell' → ∃ cell, s.cell? n = some cell ∧
    cell'.entry = cell.entry ∧ cell'.children.Sublist cell.children

theorem Thinner.refl (s : Store α) : Thinner s s :=
  fun _ cell hcell => ⟨cell, hcell, rfl, List.Sublist.refl _⟩

theorem Thinner.trans {s s' s'' : Store α} (h : Thinner s s') (h' : Thinner s' s'') :
    Thinner s s'' := by
  intro n cell'' hcell''
  obtain ⟨cell', hcell', hentry', hchildren'⟩ := h' n cell'' hcell''
  obtain ⟨cell, hcell, hentry, hchildren⟩ := h n cell' hcell'
  exact ⟨cell, hcell, hentry'.trans hentry, hchildren'.trans hchildren⟩

theorem thinner_put {s : Store α} {h : Handle} {cell cell' : Cell α} (hcell : s.cell? h = some cell)
    (hentry : cell'.entry = cell.entry) (hchildren : cell'.children.Sublist cell.children) :
    Thinner s (s.put h cell') := by
  intro n found hfound
  by_cases hn : n = h
  · rw [hn, cell?_put_self hcell] at hfound
    obtain rfl := Option.some.inj hfound
    exact ⟨cell, hn ▸ hcell, hentry, hchildren⟩
  · rw [cell?_put_of_ne s cell' hn] at hfound
    exact ⟨found, hfound, rfl, List.Sublist.refl _⟩

/-- In a thinner store a path leads where it led before, or nowhere. -/
theorem Thinner.at?_eq_some {s s' : Store α} (hthin : Thinner s s') {h : Handle} {t : Tree α}
    {nodes : List Handle} (view : s.Shows h t nodes) (ordered : t.Ordered) {path : List String}
    {n : Handle} (hat : s'.at? h path = some n) : s.at? h path = some n := by
  induction path generalizing h t nodes with
  | nil =>
    cases view with
    | node cell _ =>
      rw [at?_nil_of_cell? cell]
      rw [at?] at hat
      split at hat
      · exact hat
      · cases hat
  | cons name path ih =>
    cases view with
    | @node _ entry parts cell below =>
      cases hcell' : s'.cell? h with
      | none =>
        simp only [at?, hcell'] at hat
        cases hat
      | some cell' =>
        rw [at?_cons_of_cell? hcell'] at hat
        obtain ⟨link, hlink, hat⟩ := Option.bind_eq_some_iff.mp hat
        obtain ⟨hmem, hname⟩ := Sorted.mem_of_find?_eq_some hlink
        obtain ⟨old, hold, -, hchildren⟩ := hthin h cell' hcell'
        obtain rfl := Option.some.inj (hold.symm.trans cell)
        -- the child that is found was there before, and there was no other of its name
        obtain ⟨p, hp, rfl⟩ := List.mem_map.mp (hchildren.subset hmem)
        have hfind : Sorted.find? Part.name name parts = some p := by
          rw [← hname]
          exact Sorted.find?_of_mem (Shows.ascending_parts ordered) hp
        rw [at?_cons_of_cell? cell, Shows.find?_links, hfind]
        exact ih (below p hp) (ordered.of_mem (List.mem_map_of_mem hp)) hat

/-! ## Filters -/

/-- A cell without the children that are refused. -/
def sift (keep : Nat → Entry α → Bool) (s : Store α) (level : Nat) (cell : Cell α) : Cell α :=
  { cell with
    children := cell.children.filter fun (_, child) =>
      match s.entry? child with
      | some entry => keep (level + 1) entry
      | none => false }

theorem entry_sift (keep : Nat → Entry α → Bool) (s : Store α) (level : Nat) (cell : Cell α) :
    (sift keep s level cell).entry = cell.entry := rfl

theorem children_sift (keep : Nat → Entry α → Bool) (s : Store α) (level : Nat) (cell : Cell α) :
    (sift keep s level cell).children.Sublist cell.children := by
  rw [sift]
  exact List.filter_sublist

/-- Among parts that can be seen, those stay whose tops are kept. -/
theorem sift_links (keep : Nat → Entry α → Bool) {s : Store α} {entry : Entry α}
    {parts : List (Part α)} (views : s.ShowsAll parts) (level : Nat) :
    sift keep s level { entry, children := parts.map Part.link }
      = { entry
          children := (parts.filter fun p => keep (level + 1) p.tree.entry).map Part.link } := by
  rw [sift, List.filter_map]
  congr 2
  refine List.filter_congr fun p hp => ?_
  simp only [Function.comp, Part.link, (views p hp).entry_eq]

theorem thinner_walk_sift (keep : Nat → Entry α → Bool) (levels level : Nat) (h : Handle)
    (s : Store α) : Thinner s (walk (sift keep) levels level h s) := by
  refine walk_induction Thinner.refl Thinner.trans ?_ levels level h s
  intro s level h cell hcell
  exact thinner_put hcell (entry_sift keep s level cell) (children_sift keep s level cell)

theorem entry?_walk_sift (keep : Nat → Entry α → Bool) (levels level : Nat) (h : Handle)
    (s : Store α) (n : Handle) :
    Store.entry? (walk (sift keep) levels level h s) n = s.entry? n := by
  refine walk_induction (motive := fun s s' => s'.entry? n = s.entry? n) (fun _ => rfl)
    (fun h h' => h'.trans h) ?_ levels level h s
  intro s level h cell hcell
  exact entry?_put hcell (entry_sift keep s level cell) n

/-- A walk with a sieve prunes the tree that is to be seen, and touches no other cells than those
of the nodes that are left. -/
theorem Shows.sift (keep : Nat → Entry α → Bool) {s : Store α} {h : Handle} {t : Tree α}
    {nodes : List Handle} (view : s.Shows h t nodes) (single : nodes.Nodup) {levels : Nat}
    (hlevels : t.depth ≤ levels) (level : Nat) :
    s.Shrinks (walk (Store.sift keep) levels level h s) h (t.prune keep (level + 1)) nodes := by
  induction t using Tree.induction generalizing s h nodes levels level with
  | node entry children ih =>
    cases view with
    | @node _ _ parts cell below =>
      obtain ⟨fresh, single⟩ := List.nodup_cons.mp single
      rw [Tree.depth_node] at hlevels
      obtain ⟨levels, rfl⟩ : ∃ more, levels = more + 1 := ⟨levels - 1, by omega⟩
      rw [walk_succ_of_cell? cell, sift_links keep below]
      generalize hkept : parts.filter (fun p => keep (level + 1) p.tree.entry) = kept
      have hsub : kept.Sublist parts := hkept ▸ List.filter_sublist
      have hnodes : (nodesOf kept).Sublist (nodesOf parts) := hsub.flatMap Part.nodes
      have hself := cell?_put_self cell { entry, children := kept.map Part.link }
      have hothers (n : Handle) (hn : n ≠ h) :=
        cell?_put_of_ne s { entry, children := kept.map Part.link } hn
      -- the children that are kept are still there when the node has lost the others
      have views : s.ShowsAll kept := fun p hp => below p (hsub.subset hp)
      have views' := views.put (fun hmem => fresh (hnodes.subset hmem))
        { entry, children := kept.map Part.link }
      have hvisit : ∀ p ∈ kept, ∀ s : Store α, s.Shows p.handle p.tree p.nodes →
          s.Shrinks (walk (Store.sift keep) levels (level + 1) p.link.2 s) p.handle
            (p.tree.prune keep (level + 2)) p.nodes := by
        intro p hp s hview
        have hmem := List.mem_map_of_mem (f := Part.tree) (hsub.subset hp)
        have hdepth := Tree.depth_le_depthAll hmem
        have hnodup := (List.nodup_flatMap.mp single).1 p (hsub.subset hp)
        exact ih p.tree hmem hview hnodup (by omega) (level + 1)
      obtain ⟨parts', hfollows, hviews, hframe⟩ :=
        foldl_parts (Tree.prune keep (level + 2))
          (fun s link => walk (Store.sift keep) levels (level + 1) link.2 s) hvisit views'
          (hnodes.nodup single)
      have hsubs := nodesOf_sublist_of_follows hfollows
      have hfresh : h ∉ nodesOf parts' := fun hmem => fresh ((hsubs.trans hnodes).subset hmem)
      refine ⟨h :: nodesOf parts', ?_, (hsubs.trans hnodes).cons_cons h, fun n hn => ?_⟩
      · have hlinks := map_link_of_follows (Tree.name_prune keep (level + 2)) hfollows
        have hcell := (hframe h hfresh).trans hself
        rw [Tree.prune_node, List.filter_map, Function.comp_def, hkept,
          ← map_tree_of_follows hfollows]
        exact .node (hcell.trans (by rw [hlinks])) hviews
      · rw [List.mem_cons, not_or] at hn
        exact (hframe n hn.2).trans (hothers n hn.1)

theorem exists_shows_of_same {s : Store α} {parts parts' : List (Part α)}
    (hlinks : parts'.map Part.link = parts.map Part.link)
    (htrees : parts'.map Part.tree = parts.map Part.tree) (views : s.ShowsAll parts') :
    ∀ p ∈ parts, ∃ nodes, s.Shows p.handle p.tree nodes := by
  induction parts generalizing parts' with
  | nil =>
    intro p hp
    cases hp
  | cons p rest ih =>
    obtain ⟨p', rest', rfl, hlink, hrest⟩ := List.map_eq_cons_iff.mp hlinks
    obtain ⟨htree, htrees⟩ := List.cons.inj htrees
    obtain ⟨view, views⟩ := List.forall_mem_cons.mp views
    refine List.forall_mem_cons.mpr ⟨⟨p'.nodes, ?_⟩, ih hrest htrees views⟩
    have hhandle : p'.handle = p.handle := congrArg Prod.snd hlink
    rw [← hhandle, ← htree]
    exact view

/-- A thinner store that still shows the same tree shows it in the same cells. -/
theorem Thinner.cell?_eq {s s' : Store α} (hthin : Thinner s s') {h : Handle} {t : Tree α}
    {nodes nodes' : List Handle} (view : s.Shows h t nodes) (view' : s'.Shows h t nodes') :
    ∀ n ∈ nodes, s'.cell? n = s.cell? n := by
  induction view generalizing nodes' with
  | @node h entry parts cell below ih =>
    obtain ⟨parts', htrees, -, cell', below'⟩ := view'.inv
    obtain ⟨old, hold, -, hchildren⟩ := hthin h _ cell'
    obtain rfl := Option.some.inj (hold.symm.trans cell)
    -- as many children as before can only be all of them
    have hlength : (parts'.map Part.link).length = (parts.map Part.link).length := by
      rw [List.length_map, List.length_map, ← List.length_map Part.tree, ← htrees,
        List.length_map]
    have hlinks : parts'.map Part.link = parts.map Part.link := hchildren.eq_of_length hlength
    intro n hn
    rcases List.mem_cons.mp hn with rfl | hn
    · rw [cell', cell, hlinks]
    · obtain ⟨p, hp, hn⟩ := List.mem_flatMap.mp hn
      obtain ⟨inner, hview⟩ := exists_shows_of_same hlinks htrees.symm below' p hp
      exact ih p hp hview n hn

/-- A store that is walked through again shows what it showed, so nothing more is cut off. -/
theorem Shows.walk_sift_again (keep : Nat → Entry α → Bool) {s : Store α} {h : Handle} {t : Tree α}
    {nodes : List Handle} (view : s.Shows h t nodes) (single : nodes.Nodup) {levels : Nat}
    (hlevels : t.depth ≤ levels) {level : Nat} (hkept : t.prune keep (level + 1) = t) :
    walk (Store.sift keep) levels level h s = s := by
  obtain ⟨nodes', view', hsub, hframe⟩ := view.sift keep single hlevels level
  rw [hkept] at view'
  have hsame := (thinner_walk_sift keep levels level h s).cell?_eq view view'
  refine ext fun n => ?_
  by_cases hn : n ∈ nodes
  · exact hsame n hn
  · exact hframe n fun hmem => hn (hsub.subset hmem)

/-- The nodes on a path are kept in the tree if they are in the store. -/
theorem Shows.keptAlong_iff {s : Store α} {h : Handle} {t : Tree α} {nodes : List Handle}
    (view : s.Shows h t nodes) (keep : Nat → Entry α → Bool) (path : List String) :
    Tree.KeptAlong keep 0 path t ↔
      ∀ upper above entry, upper ≠ [] → upper <+: path → s.at? h upper = some above →
        s.entry? above = some entry → keep upper.length entry := by
  constructor
  · intro hkept upper above entry hne hle hat hentry
    rcases view.at?_cases upper with ⟨hnone, -⟩ | ⟨n, sub, below, hn, hsub, hview, -⟩
    · rw [hnone] at hat
      cases hat
    · obtain rfl := Option.some.inj (hn.symm.trans hat)
      obtain rfl := Option.some.inj (hview.entry_eq.symm.trans hentry)
      have hkeep := hkept upper sub hne hle hsub
      rw [Nat.zero_add] at hkeep
      exact hkeep
  · intro hkept upper above hne hle hat
    rcases view.at?_cases upper with ⟨-, hnone⟩ | ⟨n, sub, below, hn, hsub, hview, -⟩
    · rw [hnone] at hat
      cases hat
    · obtain rfl := Option.some.inj (hsub.symm.trans hat)
      rw [Nat.zero_add]
      exact hkept upper n sub.entry hne hle hn hview.entry_eq

end Store

/-! ## Filters -/

/-- The filters of a breakdown. -/
inductive Filter (α : Type) where
  /-- by measurement -/
  | values (f : ValueFilter α)
  /-- by name -/
  | names (keep : String → Bool)

namespace Filter

variable [Quantity α]

/-- Filter what is below a node. -/
def run : Filter α → Handle → Store α → Store α
  | values f => Store.filterValues f
  | names keep => Store.filterNames keep

/-- Whether a node on a level is kept. -/
def keeps : Filter α → Nat → Entry α → Bool
  | values f => f.keeps
  | names keep => Tree.keepName keep

/-- A filter is a walk with a sieve that goes as deep as there can be nodes. -/
theorem run_eq (F : Filter α) (h : Handle) (s : Store α) :
    ∃ levels, s.size ≤ levels ∧ F.run h s = Store.walk (Store.sift F.keeps) levels 0 h s := by
  cases F with
  | values f => exact ⟨f.fromDepth + s.size, Nat.le_add_left _ _, rfl⟩
  | names keep => exact ⟨s.size, Nat.le_refl _, rfl⟩

theorem thinner_run (F : Filter α) (h : Handle) (s : Store α) : s.Thinner (F.run h s) := by
  obtain ⟨levels, -, hrun⟩ := F.run_eq h s
  rw [hrun]
  exact Store.thinner_walk_sift F.keeps levels 0 h s

theorem entry?_run (F : Filter α) (h : Handle) (s : Store α) (n : Handle) :
    Store.entry? (F.run h s) n = s.entry? n := by
  obtain ⟨levels, -, hrun⟩ := F.run_eq h s
  rw [hrun]
  exact Store.entry?_walk_sift F.keeps levels 0 h s n

section Viewed

variable {s : Store α} {h : Handle} {t : Tree α} {nodes : List Handle}

/-- A filter prunes the tree that is to be seen, and touches no other cells than those of the nodes
that are left. -/
theorem shows_run (F : Filter α) (view : s.Shows h t nodes) (single : nodes.Nodup) :
    s.Shrinks (F.run h s) h (t.prune F.keeps 1) nodes := by
  obtain ⟨levels, hlevels, hrun⟩ := F.run_eq h s
  rw [hrun]
  exact view.sift F.keeps single (Nat.le_trans view.depth_le_size hlevels) 0

/-- A filter that is used again finds nothing more to remove. -/
theorem run_run (F : Filter α) (view : s.Shows h t nodes) (single : nodes.Nodup) :
    F.run h (F.run h s) = F.run h s := by
  obtain ⟨nodes', view', hsub, -⟩ := F.shows_run view single
  obtain ⟨levels, hlevels, hrun⟩ := F.run_eq h (F.run h s)
  rw [hrun]
  exact view'.walk_sift_again F.keeps (hsub.nodup single)
    (Nat.le_trans view'.depth_le_size hlevels) (Tree.prune_idem F.keeps 1 t)

/-- A path leads after a filter where it led before, if every node on it is kept. -/
theorem at?_run_iff (F : Filter α) (view : s.Shows h t nodes) (single : nodes.Nodup)
    (ordered : t.Ordered) (path : List String) (n : Handle) :
    (F.run h s).at? h path = some n ↔
      s.at? h path = some n ∧ Tree.KeptAlong F.keeps 0 path t := by
  obtain ⟨nodes', view', -⟩ := F.shows_run view single
  constructor
  · intro hat
    refine ⟨(F.thinner_run h s).at?_eq_some view ordered hat, ?_⟩
    have hsome := (view'.isSome_at?_iff path).mp (Option.isSome_of_eq_some hat)
    obtain ⟨sub, hsub⟩ := Option.isSome_iff_exists.mp hsome
    obtain ⟨-, -, -, hkept⟩ := (ordered.at?_prune_eq_some_iff F.keeps 0 path sub).mp hsub
    exact hkept
  · rintro ⟨hat, hkept⟩
    have hsome := (view.isSome_at?_iff path).mp (Option.isSome_of_eq_some hat)
    obtain ⟨whole, hwhole⟩ := Option.isSome_iff_exists.mp hsome
    have hsub := (ordered.at?_prune_eq_some_iff F.keeps 0 path _).mpr ⟨whole, hwhole, rfl, hkept⟩
    have hleft := (view'.isSome_at?_iff path).mpr (Option.isSome_of_eq_some hsub)
    obtain ⟨m, hm⟩ := Option.isSome_iff_exists.mp hleft
    have hsame := (F.thinner_run h s).at?_eq_some view ordered hm
    rw [hm, ← hsame, hat]

/-- Two filters leave the same tree, whichever comes first. -/
theorem tree?_run_comm (F G : Filter α) (view : s.Shows h t nodes) (single : nodes.Nodup) :
    (G.run h (F.run h s)).tree? h = (F.run h (G.run h s)).tree? h := by
  obtain ⟨nodesF, viewF, hsubF, -⟩ := F.shows_run view single
  obtain ⟨nodesG, viewG, hsubG, -⟩ := G.shows_run view single
  obtain ⟨_, viewFG, -⟩ := G.shows_run viewF (hsubF.nodup single)
  obtain ⟨_, viewGF, -⟩ := F.shows_run viewG (hsubG.nodup single)
  rw [viewFG.tree?_eq, viewGF.tree?_eq, Tree.prune_comm]

/-- What has passed two filters passes them in the other order. -/
theorem at?_run_run (F G : Filter α) (view : s.Shows h t nodes) (single : nodes.Nodup)
    (ordered : t.Ordered) {path : List String} {n : Handle}
    (hat : (G.run h (F.run h s)).at? h path = some n) :
    (F.run h (G.run h s)).at? h path = some n := by
  obtain ⟨_, viewF, hsubF, -⟩ := F.shows_run view single
  obtain ⟨_, viewG, hsubG, -⟩ := G.shows_run view single
  obtain ⟨_, viewFG, -⟩ := G.shows_run viewF (hsubF.nodup single)
  obtain ⟨_, viewGF, -⟩ := F.shows_run viewG (hsubG.nodup single)
  have horderF := ordered.prune F.keeps 1
  have horderG := ordered.prune G.keeps 1
  -- the path is there after both, and leads nowhere else than before
  have hsome := (viewFG.isSome_at?_iff path).mp (Option.isSome_of_eq_some hat)
  rw [Tree.prune_comm] at hsome
  obtain ⟨m, hm⟩ := Option.isSome_iff_exists.mp ((viewGF.isSome_at?_iff path).mpr hsome)
  have hn := (F.thinner_run h s).at?_eq_some view ordered
    ((G.thinner_run h _).at?_eq_some viewF horderF hat)
  have hsame := (G.thinner_run h s).at?_eq_some view ordered
    ((F.thinner_run h _).at?_eq_some viewG horderG hm)
  rw [hm, ← hsame, hn]

theorem at?_run_comm (F G : Filter α) (view : s.Shows h t nodes) (single : nodes.Nodup)
    (ordered : t.Ordered) (path : List String) :
    (G.run h (F.run h s)).at? h path = (F.run h (G.run h s)).at? h path := by
  refine Option.ext fun n => ⟨?_, ?_⟩
  · exact F.at?_run_run G view single ordered
  · exact G.at?_run_run F view single ordered

end Viewed

end Filter

/-! ## Filters of doubles -/

theorem Quantity.within_iff (low high x : Float) : within low high x ↔ low ≤ x ∧ x ≤ high := by
  rw [within, Bool.and_eq_true]
  exact Iff.rfl

/-- What filters do to the breakdown below a node. -/
structure Sieves (h : Handle) (s : Store Float) : Prop where
  /-- a filter by value keeps the nodes for which all measurements from its depth on are in range,
  their own and those above them -/
  values : ∀ f path n, (s.filterValues f h).at? h path = some n ↔
    s.at? h path = some n ∧
      ∀ upper above entry, upper ≠ [] → upper <+: path → f.fromDepth ≤ upper.length →
        s.at? h upper = some above → s.entry? above = some entry →
          f.least ≤ entry.measurement ∧ entry.measurement ≤ f.greatest
  /-- a filter by name keeps the nodes for which all names are accepted -/
  names : ∀ keep path n, (s.filterNames keep h).at? h path = some n ↔
    s.at? h path = some n ∧ ∀ name ∈ path, keep name
  /-- what is not a number is in no range, and goes with all that is below it -/
  notNumber : ∀ f path n entry, path ≠ [] → f.fromDepth ≤ path.length → s.at? h path = some n →
    s.entry? n = some entry → entry.measurement.isNaN →
      ∀ below, (s.filterValues f h).at? h (path ++ below) = none
  /-- the node itself always stays -/
  root : ∀ F : Filter Float, (F.run h s).at? h [] = some h
  /-- all entries stay as they are -/
  entries : ∀ (F : Filter Float) n, Store.entry? (F.run h s) n = s.entry? n
  /-- nodes that are not left below the node keep their children too -/
  untouched : ∀ (F : Filter Float) n, (∀ path, (F.run h s).at? h path ≠ some n) →
    (F.run h s).cell? n = s.cell? n
  /-- nothing is left to do for a filter that is used again -/
  again : ∀ F : Filter Float, F.run h (F.run h s) = F.run h s
  /-- of two filters it does not matter which comes first -/
  paths : ∀ (F G : Filter Float) path,
    (G.run h (F.run h s)).at? h path = (F.run h (G.run h s)).at? h path
  trees : ∀ F G : Filter Float,
    (G.run h (F.run h s)).tree? h = (F.run h (G.run h s)).tree? h

namespace Store.Shows

variable {s : Store Float} {h : Handle} {t : Tree Float} {nodes : List Handle}

theorem at?_filterValues_iff (view : s.Shows h t nodes) (single : nodes.Nodup)
    (ordered : t.Ordered) (f : ValueFilter Float) (path : List String) (n : Handle) :
    (s.filterValues f h).at? h path = some n ↔
      s.at? h path = some n ∧
        ∀ upper above entry, upper ≠ [] → upper <+: path → f.fromDepth ≤ upper.length →
          s.at? h upper = some above → s.entry? above = some entry →
            f.least ≤ entry.measurement ∧ entry.measurement ≤ f.greatest := by
  rw [show s.filterValues f h = (Filter.values f).run h s from rfl,
    Filter.at?_run_iff _ view single ordered, view.keptAlong_iff]
  refine and_congr_right fun _ => ?_
  simp only [Filter.keeps, ValueFilter.keeps, Bool.or_eq_true, decide_eq_true_eq,
    Quantity.within_iff]
  constructor
  · intro hkept upper above entry hne hle hdepth hat hentry
    exact (hkept upper above entry hne hle hat hentry).resolve_left (Nat.not_lt.mpr hdepth)
  · intro hkept upper above entry hne hle hat hentry
    refine (Nat.lt_or_ge upper.length f.fromDepth).imp_right fun hdepth => ?_
    exact hkept upper above entry hne hle hdepth hat hentry

theorem at?_filterNames_iff (view : s.Shows h t nodes) (single : nodes.Nodup)
    (ordered : t.Ordered) (keep : String → Bool) (path : List String) (n : Handle) :
    (s.filterNames keep h).at? h path = some n ↔
      s.at? h path = some n ∧ ∀ name ∈ path, keep name := by
  rw [show s.filterNames keep h = (Filter.names keep).run h s from rfl,
    Filter.at?_run_iff _ view single ordered]
  refine and_congr_right fun hat => ?_
  have hsome := (view.isSome_at?_iff path).mp (Option.isSome_of_eq_some hat)
  rw [Filter.keeps, ordered.keptAlong_keepName_iff keep hsome, List.all_eq_true]

/-- Filters are sieves where no node is met twice. -/
theorem sieves (view : s.Shows h t nodes) (single : nodes.Nodup) (ordered : t.Ordered) :
    Sieves h s where
  values := view.at?_filterValues_iff single ordered
  names := view.at?_filterNames_iff single ordered
  notNumber := by
    intro f path n entry hne hdepth hat hentry hnan below
    refine Option.eq_none_iff_forall_ne_some.mpr fun m hm => ?_
    obtain ⟨-, hkept⟩ := (view.at?_filterValues_iff single ordered f _ m).mp hm
    obtain ⟨hleast, -⟩ := hkept path n entry hne (List.prefix_append path below) hdepth hat hentry
    exact Binary64.not_le_of_isNaN hnan f.least hleast
  root := by
    intro F
    obtain ⟨cell, hcell⟩ := Option.isSome_iff_exists.mp (view.isSome_cell? view.mem_self)
    refine (F.at?_run_iff view single ordered [] h).mpr ⟨at?_nil_of_cell? hcell, ?_⟩
    exact Tree.keptAlong_nil F.keeps 0 t
  entries F n := F.entry?_run h s n
  untouched := by
    intro F n hgone
    obtain ⟨nodes', view', -, hframe⟩ := F.shows_run view single
    refine hframe n fun hn => ?_
    obtain ⟨path, hpath⟩ := (view'.mem_nodes_iff (ordered.prune F.keeps 1) n).mp hn
    exact hgone path hpath
  again F := F.run_run view single
  paths F G := F.at?_run_comm G view single ordered
  trees F G := F.tree?_run_comm G view single

end Store.Shows

/-- A page with a call below it whose measurement is not a number. -/
def Store.nested : Store Float where
  cells := #[
    { entry := .fresh "root", children := [("page", ⟨1⟩)] },
    { entry := .fresh "page", children := [("call", ⟨2⟩)] },
    { entry := (Entry.fresh "call").set (0 / 0), children := [] }]

/-- What is to be seen of it. -/
def Tree.nested : Tree Float :=
  .node (.fresh "root") [.node (.fresh "page") [.node ((Entry.fresh "call").set (0 / 0)) []]]

theorem Store.shows_nested : Store.nested.Shows ⟨0⟩ .nested [⟨0⟩, ⟨1⟩, ⟨2⟩] := by
  let call : Part Float := ⟨⟨2⟩, .node ((Entry.fresh "call").set (0 / 0)) [], [⟨2⟩]⟩
  let page : Part Float := ⟨⟨1⟩, .node (.fresh "page") [call.tree], [⟨1⟩, ⟨2⟩]⟩
  have hcall : nested.Shows call.handle call.tree call.nodes :=
    @Shows.node _ _ _ _ [] rfl fun _ hp => (nomatch hp)
  have hpage : nested.Shows page.handle page.tree page.nodes :=
    @Shows.node _ _ _ _ [call] rfl (List.forall_mem_singleton.mpr hcall)
  exact @Shows.node _ _ _ _ [page] rfl (List.forall_mem_singleton.mpr hpage)

theorem Tree.ordered_nested : Tree.nested.Ordered := by
  refine .node (List.pairwise_singleton _ _) (List.forall_mem_singleton.mpr ?_)
  refine .node (List.pairwise_singleton _ _) (List.forall_mem_singleton.mpr ?_)
  exact .node .nil fun _ hmem => (nomatch hmem)

theorem Store.Shows.sieves_nested :
    Store.nested.Shows ⟨0⟩ .nested [⟨0⟩, ⟨1⟩, ⟨2⟩] ∧ Tree.nested.Ordered ∧
      Sieves ⟨0⟩ .nested ∧
      (Store.nested.filterValues (⟨2, 0, 1⟩ : ValueFilter Float) ⟨0⟩).at? ⟨0⟩ ["page", "call"]
        = none := by
  have hsieves := sieves Store.shows_nested (by decide) Tree.ordered_nested
  refine ⟨Store.shows_nested, Tree.ordered_nested, hsieves, ?_⟩
  exact hsieves.notNumber _ ["page", "call"] ⟨2⟩ _ (by decide) (by decide) rfl rfl
    (by decide +kernel) []

end Telemetry
