import Mathlib.Data.List.Perm.Basic
import Telemetry.Proofs.Breakdown.View
import Telemetry.Proofs.Quantity.Exact

/-!
# Totals of subtrees

A rollup adds each child to its parent when nothing is left to be added below the child. In which
order it comes to the children of a node is open: `RollsUp` lets it take any, at every node anew, and
the rollup of a store takes one of these (`Shows.rollsUp_rollup`).

Where no node is met twice every node ends up with the total of the nodes that were below it, its own
value included (`Shows.sumsUp`). Counts wrap around, so their sums do not depend on the order;
measurements are summed up exactly if their addition is exact. A node without children keeps what it
has, and nothing but measurements and counts is changed.
-/

namespace Telemetry

variable {α : Type}

/-! ## Sums over nodes -/

/-- What a sum is does not depend on the order in which it is formed. -/
class OrderFree (β : Type) [Zero β] [Add β] : Prop where
  add_assoc : ∀ a b c : β, a + b + c = a + (b + c)
  add_comm : ∀ a b : β, a + b = b + a
  zero_add : ∀ a : β, 0 + a = a

instance : OrderFree Int64 where
  add_assoc := Int64.add_assoc
  add_comm := Int64.add_comm
  zero_add := Int64.zero_add

instance [Quantity α] [Quantity.Exact α] : OrderFree α where
  add_assoc := Quantity.Exact.add_assoc
  add_comm := Quantity.Exact.add_comm
  zero_add := Quantity.Exact.zero_add

theorem OrderFree.add_left_comm {β : Type} [Zero β] [Add β] [OrderFree β] (a b c : β) :
    a + (b + c) = b + (a + c) := by
  rw [← add_assoc, add_comm a b, add_assoc]

namespace Store

section Sums

variable {β : Type} [Zero β] [Add β]

/-- What the entries of nodes are worth together. -/
def total (value : Entry α → β) (s : Store α) (nodes : List Handle) : β :=
  nodes.foldr (fun n sum => ((s.cell? n).elim 0 fun cell => value cell.entry) + sum) 0

/-- A node that is not there counts for nothing. -/
theorem total_cons (value : Entry α → β) (s : Store α) (n : Handle) (nodes : List Handle) :
    s.total value (n :: nodes)
      = ((s.cell? n).elim 0 fun cell => value cell.entry) + s.total value nodes := rfl

theorem total_cons_of_cell? (value : Entry α → β) {s : Store α} {n : Handle} {cell : Cell α}
    (hcell : s.cell? n = some cell) (nodes : List Handle) :
    s.total value (n :: nodes) = value cell.entry + s.total value nodes := by
  rw [total_cons, hcell]
  rfl

/-- A total depends on the cells it is taken over and on no others. -/
theorem total_congr (value : Entry α → β) {s s' : Store α} {nodes : List Handle}
    (h : ∀ n ∈ nodes, s'.cell? n = s.cell? n) : s'.total value nodes = s.total value nodes := by
  induction nodes with
  | nil => rfl
  | cons n rest ih =>
    obtain ⟨hn, hrest⟩ := List.forall_mem_cons.mp h
    rw [total_cons, total_cons, ih hrest, hn]

variable [OrderFree β]

theorem total_append (value : Entry α → β) (s : Store α) (nodes others : List Handle) :
    s.total value (nodes ++ others) = s.total value nodes + s.total value others := by
  induction nodes with
  | nil => exact (OrderFree.zero_add _).symm
  | cons n rest ih =>
    rw [List.cons_append, total_cons, ih, total_cons, OrderFree.add_assoc]

/-- A total does not depend on the order of its nodes: this takes numbers that add up the same in
any order. -/
theorem total_perm (value : Entry α → β) (s : Store α) {nodes nodes' : List Handle}
    (h : nodes.Perm nodes') : s.total value nodes = s.total value nodes' := by
  refine h.foldr_eq' (fun n _ m _ sum => ?_) 0
  exact OrderFree.add_left_comm _ _ _

end Sums

/-! ## Rollups in any order -/

section Rolling

variable [Quantity α]

/-- Add the entry of a child to its parent. -/
def addTo (h : Handle) (child : Entry α) (s : Store α) : Store α :=
  s.modifyEntry h (·.increment child.measurement child.sampleCount)

mutual

/-- A rollup of a node that comes to its children in some order. -/
inductive RollsUp : Handle → Store α → Store α → Prop where
  | node {h : Handle} {s s' : Store α} {cell : Cell α} {order : List (String × Handle)}
      (found : s.cell? h = some cell) (any : order.Perm cell.children)
      (adds : AddsUp h order s s') : RollsUp h s s'

/-- Children are rolled up and added to a node, one after the other. -/
inductive AddsUp : Handle → List (String × Handle) → Store α → Store α → Prop where
  | nil {h : Handle} {s : Store α} : AddsUp h [] s s
  | cons {h : Handle} {link : String × Handle} {rest : List (String × Handle)}
      {s s' s'' : Store α} {child : Entry α} (down : RollsUp link.2 s s')
      (found : s'.entry? link.2 = some child) (adds : AddsUp h rest (s'.addTo h child) s'') :
      AddsUp h (link :: rest) s s''

end

/-- What an entry is after nodes have been added to it. -/
structure Gathered (s : Store α) (nodes : List Handle) (old new : Entry α) : Prop where
  name : new.name = old.name
  reservoir : new.reservoir = old.reservoir
  sampleCount : new.sampleCount = old.sampleCount + s.total Entry.sampleCount nodes
  measurement [Quantity.Exact α] :
    new.measurement = old.measurement + s.total Entry.measurement nodes

/-- What a cell is when a subtree has been summed up at its top. -/
structure Summed (s : Store α) (below : List Handle) (old new : Cell α) : Prop where
  children : new.children = old.children
  name : new.entry.name = old.entry.name
  reservoir : new.entry.reservoir = old.entry.reservoir
  sampleCount : new.entry.sampleCount = s.total Entry.sampleCount below
  measurement [Quantity.Exact α] : new.entry.measurement = s.total Entry.measurement below
  leaf : old.children = [] → new = old

/-- All of the nodes have the totals of their subtrees, which are made of these nodes too. -/
def AllSummed (s s' : Store α) (nodes : List Handle) : Prop :=
  ∀ n ∈ nodes, ∃ sub below old new, s.Shows n sub below ∧ below ⊆ nodes ∧
    s.cell? n = some old ∧ s'.cell? n = some new ∧ Summed s below old new

/-- All nodes of a tree have the totals of their subtrees, and other nodes are left alone. -/
structure SumsUp (s s' : Store α) (nodes : List Handle) : Prop where
  inside : AllSummed s s' nodes
  outside : ∀ n, n ∉ nodes → s'.cell? n = s.cell? n

/-- A node stays summed up while nothing is written at or below it. -/
theorem Summed.congr {s s' : Store α} {below : List Handle} {old new : Cell α}
    (h : Summed s' below old new) (hsame : ∀ n ∈ below, s'.cell? n = s.cell? n) :
    Summed s below old new where
  children := h.children
  name := h.name
  reservoir := h.reservoir
  sampleCount := by rw [h.sampleCount, total_congr _ hsame]
  measurement := by
    intro
    rw [h.measurement, total_congr _ hsame]
  leaf := h.leaf

/-- Nodes that have been summed up stay so while they are not touched. -/
theorem AllSummed.untouched {s s' s'' : Store α} {nodes : List Handle} (h : AllSummed s s' nodes)
    (hsame : ∀ n ∈ nodes, s''.cell? n = s'.cell? n) : AllSummed s s'' nodes := by
  intro n hn
  obtain ⟨sub, below, old, new, hsub, hbelow, hold, hnew, hsummed⟩ := h n hn
  exact ⟨sub, below, old, new, hsub, hbelow, hold, (hsame n hn).trans hnew, hsummed⟩

/-- Nodes that were not touched before they were summed up have been summed up from the start. -/
theorem AllSummed.unchanged {s s' s'' : Store α} {nodes : List Handle} (h : AllSummed s' s'' nodes)
    (hsame : ∀ n ∈ nodes, s'.cell? n = s.cell? n) : AllSummed s s'' nodes := by
  intro n hn
  obtain ⟨sub, below, old, new, hsub, hbelow, hold, hnew, hsummed⟩ := h n hn
  have hinside : ∀ m ∈ below, s'.cell? m = s.cell? m := fun m hm => hsame m (hbelow hm)
  exact ⟨sub, below, old, new, hsub.frame fun m hm => (hinside m hm).symm, hbelow,
    (hsame n hn).symm.trans hold, hnew, hsummed.congr hinside⟩

theorem AllSummed.subset {s s' : Store α} {nodes nodes' : List Handle} (h : AllSummed s s' nodes)
    (hsub : nodes ⊆ nodes') {n : Handle} (hn : n ∈ nodes) :
    ∃ sub below old new, s.Shows n sub below ∧ below ⊆ nodes' ∧
      s.cell? n = some old ∧ s'.cell? n = some new ∧ Summed s below old new := by
  obtain ⟨sub, below, old, new, hshows, hbelow, hcells⟩ := h n hn
  exact ⟨sub, below, old, new, hshows, fun m hm => hsub (hbelow hm), hcells⟩

/-- Trees beside each other are summed up one by one. -/
theorem AllSummed.append {s s' : Store α} {nodes others : List Handle} (h : AllSummed s s' nodes)
    (hothers : AllSummed s s' others) : AllSummed s s' (nodes ++ others) := by
  intro n hn
  rcases List.mem_append.mp hn with hn | hn
  · exact h.subset (List.subset_append_left nodes others) hn
  · exact hothers.subset (List.subset_append_right nodes others) hn

theorem gathered_nil (s : Store α) (entry : Entry α) : Gathered s [] entry entry where
  name := rfl
  reservoir := rfl
  sampleCount := (Int64.add_zero _).symm
  measurement := (Quantity.Exact.add_zero _).symm

/-- A child that has been summed up stands for all nodes of its subtree. -/
theorem Gathered.cons {s s' : Store α} {nodes rest : List Handle} {old new : Entry α}
    {child child' : Cell α} (hchild : Summed s nodes child child')
    (hsame : ∀ n ∈ rest, s'.cell? n = s.cell? n)
    (h : Gathered s' rest
      (old.increment child'.entry.measurement child'.entry.sampleCount) new) :
    Gathered s (nodes ++ rest) old new where
  name := h.name
  reservoir := h.reservoir
  sampleCount := by
    rw [h.sampleCount, Entry.increment, hchild.sampleCount, total_congr _ hsame, total_append,
      Int64.add_assoc]
  measurement := by
    intro
    rw [h.measurement, Entry.increment, hchild.measurement, total_congr _ hsame, total_append,
      Quantity.Exact.add_assoc]

/-- Adding a child in changes the entry and leaves the edges. -/
theorem cell?_addTo_self {s : Store α} {h : Handle} {cell : Cell α} (hcell : s.cell? h = some cell)
    (child : Entry α) :
    (s.addTo h child).cell? h
      = some { cell with entry := cell.entry.increment child.measurement child.sampleCount } := by
  rw [addTo, modifyEntry, cell?_modify_self, hcell]
  rfl

theorem cell?_addTo_of_ne (s : Store α) (child : Entry α) {h n : Handle} (hne : n ≠ h) :
    (s.addTo h child).cell? n = s.cell? n :=
  cell?_modify_of_ne s _ hne.symm

/-- The parts of a node can be added to it in turn, if each can be rolled up on its own. -/
theorem AddsUp.sums {parts : List (Part α)} {h : Handle} {cell : Cell α} {s s' : Store α}
    (hdown : ∀ p ∈ parts, ∀ s s' : Store α, s.Shows p.handle p.tree p.nodes → p.nodes.Nodup →
      RollsUp p.handle s s' → SumsUp s s' p.nodes)
    (views : s.ShowsAll parts) (single : (nodesOf parts).Nodup) (fresh : h ∉ nodesOf parts)
    (hcell : s.cell? h = some cell) (adds : AddsUp h (parts.map Part.link) s s') :
    (∃ entry', s'.cell? h = some { cell with entry := entry' } ∧
      Gathered s (nodesOf parts) cell.entry entry') ∧
    AllSummed s s' (nodesOf parts) ∧ ∀ n, n ≠ h → n ∉ nodesOf parts → s'.cell? n = s.cell? n := by
  induction parts generalizing s cell with
  | nil =>
    cases adds with
    | nil =>
      refine ⟨⟨cell.entry, hcell, gathered_nil _ cell.entry⟩, ?_, fun _ _ _ => rfl⟩
      intro n hn
      cases hn
  | cons p rest ih =>
    obtain ⟨hdownp, hdowns⟩ := List.forall_mem_cons.mp hdown
    obtain ⟨view, views⟩ := List.forall_mem_cons.mp views
    obtain ⟨hfreshp, hfresh⟩ := not_mem_nodesOf_cons.mp fresh
    obtain ⟨singlep, singles, hdisjoint⟩ := nodup_nodesOf_cons.mp single
    cases adds with
    | @cons _ _ _ s s₁ _ child down found adds =>
      have hsums := hdownp s s₁ view singlep down
      obtain ⟨sub, below, old, new, hsub, -, -, hnew, hsummed⟩ :=
        hsums.inside p.handle view.mem_self
      obtain ⟨rfl, rfl⟩ := view.unique hsub
      obtain rfl : new.entry = child := by
        rw [Part.link, entry?_of_cell? hnew] at found
        exact Option.some.inj found
      -- the other parts are as they were before
      have hrest : ∀ n ∈ nodesOf rest, (s₁.addTo h new.entry).cell? n = s.cell? n := by
        intro n hn
        have hne : n ≠ h := fun heq => hfresh (heq ▸ hn)
        rw [cell?_addTo_of_ne s₁ new.entry hne]
        exact hsums.outside n fun hmem => hdisjoint n hmem hn
      have views' : (s₁.addTo h new.entry).ShowsAll rest := ShowsAll.frame views hrest
      have hcell' := cell?_addTo_self ((hsums.outside h hfreshp).trans hcell) new.entry
      obtain ⟨⟨entry', hentry', hgathered⟩, hinside, houtside⟩ :=
        ih hdowns views' singles hfresh hcell' adds
      -- nor are the nodes of the first part touched again
      have hlater : ∀ n ∈ p.nodes, s'.cell? n = s₁.cell? n := by
        intro n hn
        have hne : n ≠ h := fun heq => hfreshp (heq ▸ hn)
        rw [houtside n hne (hdisjoint n hn), cell?_addTo_of_ne s₁ _ hne]
      refine ⟨⟨entry', hentry', hgathered.cons hsummed hrest⟩,
        (hsums.inside.untouched hlater).append (hinside.unchanged hrest), fun n hne hn => ?_⟩
      obtain ⟨hfirst, hothers⟩ := not_mem_nodesOf_cons.mp hn
      rw [houtside n hne hothers, cell?_addTo_of_ne s₁ _ hne, hsums.outside n hfirst]

/-- A rollup sums up all subtrees, in whatever order it comes to their nodes. -/
theorem RollsUp.sums {h : Handle} {t : Tree α} {nodes : List Handle} {s s' : Store α}
    (rolls : RollsUp h s s') (view : s.Shows h t nodes) (single : nodes.Nodup) :
    SumsUp s s' nodes := by
  induction t using Tree.induction generalizing s s' h nodes with
  | node entry children ih =>
    obtain ⟨parts, rfl, rfl, hcell, views⟩ := view.inv
    obtain ⟨fresh, single⟩ := List.nodup_cons.mp single
    cases rolls with
    | @node _ s _ cell order found any adds =>
      obtain rfl := Option.some.inj (found.symm.trans hcell)
      obtain ⟨turn, rfl, hturn⟩ : ∃ turn : List (Part α), order = turn.map Part.link ∧
          turn.Perm parts := by
        have hsame := congrFun₂ (List.eq_map_comp_perm Part.link) order parts
        exact hsame.mpr any
      have hnodes : (nodesOf turn).Perm (nodesOf parts) := hturn.flatMap_right Part.nodes
      obtain ⟨⟨entry', hentry', hgathered⟩, hinside, houtside⟩ :=
        adds.sums (fun p hp s s' hview hnodup hrolls =>
            ih p.tree (List.mem_map_of_mem (hturn.subset hp)) hrolls hview hnodup)
          (fun p hp => views p (hturn.subset hp)) (hnodes.nodup_iff.mpr single)
          (fun hmem => fresh (hnodes.subset hmem)) hcell
      refine ⟨fun n hn => ?_, fun n hn => ?_⟩
      · rcases List.mem_cons.mp hn with rfl | hn
        · refine ⟨_, _, _, _, view, fun _ hm => hm, hcell, hentry', rfl, hgathered.name,
            hgathered.reservoir, ?_, ?_, fun hnone => ?_⟩
          · rw [hgathered.sampleCount, total_perm _ s hnodes, total_cons_of_cell? _ hcell]
          · intro
            rw [hgathered.measurement, total_perm _ s hnodes, total_cons_of_cell? _ hcell]
          · -- nothing is added where there are no children
            have hleaf : turn.map Part.link = [] := List.Perm.eq_nil (hnone ▸ any)
            rw [hleaf] at adds
            cases adds
            exact Option.some.inj (hentry'.symm.trans hcell)
        · refine hinside.subset (fun m hm => ?_) (hnodes.mem_iff.mpr hn)
          exact List.mem_cons_of_mem h (hnodes.subset hm)
      · rw [List.mem_cons, not_or] at hn
        exact houtside n hn.1 fun hmem => hn.2 (hnodes.subset hmem)

/-- Roll up a child and add it to its parent. -/
def addChild (levels : Nat) (h : Handle) (s : Store α) (link : String × Handle) : Store α :=
  let s := rollupWithin levels link.2 s
  match s.entry? link.2 with
  | some child => s.addTo h child
  | none => s

/-- A node visits its children in the order in which they are filed. -/
theorem rollupWithin_succ_of_cell? {s : Store α} {h : Handle} {cell : Cell α}
    (hcell : s.cell? h = some cell) (levels : Nat) :
    rollupWithin (levels + 1) h s = cell.children.foldl (addChild levels h) s := by
  rw [rollupWithin, hcell]
  rfl

/-- If every child rolls up, in any store that shows it, then visiting them one after the other adds
them all in: none of the visits touches what another one reads. -/
theorem addsUp_foldl {levels : Nat} {parts : List (Part α)} {h : Handle} {s : Store α}
    (hdown : ∀ p ∈ parts, ∀ s : Store α, s.Shows p.handle p.tree p.nodes → p.nodes.Nodup →
      RollsUp p.handle s (rollupWithin levels p.handle s))
    (views : s.ShowsAll parts) (single : (nodesOf parts).Nodup) (fresh : h ∉ nodesOf parts) :
    AddsUp h (parts.map Part.link) s ((parts.map Part.link).foldl (addChild levels h) s) := by
  induction parts generalizing s with
  | nil => exact .nil
  | cons p rest ih =>
    obtain ⟨hdownp, hdowns⟩ := List.forall_mem_cons.mp hdown
    obtain ⟨view, views⟩ := List.forall_mem_cons.mp views
    obtain ⟨-, hfresh⟩ := not_mem_nodesOf_cons.mp fresh
    obtain ⟨singlep, singles, hdisjoint⟩ := nodup_nodesOf_cons.mp single
    have hrolls := hdownp s view singlep
    have hsums := hrolls.sums view singlep
    obtain ⟨-, -, -, new, -, -, -, hnew, -⟩ := hsums.inside p.handle view.mem_self
    have hchild := entry?_of_cell? hnew
    have hstep : addChild levels h s p.link
        = (rollupWithin levels p.handle s).addTo h new.entry := by
      simp only [addChild, Part.link, hchild]
    rw [List.map_cons, List.foldl_cons, hstep]
    refine .cons hrolls hchild (ih hdowns (ShowsAll.frame views fun n hn => ?_) singles hfresh)
    have hne : n ≠ h := fun heq => hfresh (heq ▸ hn)
    rw [cell?_addTo_of_ne _ _ hne]
    exact hsums.outside n fun hmem => hdisjoint n hmem hn

/-- The rollup of a store is one of those that come to the children in some order. -/
theorem Shows.rollsUp_rollupWithin {h : Handle} {t : Tree α} {nodes : List Handle} {s : Store α}
    (view : s.Shows h t nodes) (single : nodes.Nodup) {levels : Nat} (hlevels : t.depth ≤ levels) :
    RollsUp h s (rollupWithin levels h s) := by
  induction t using Tree.induction generalizing s h nodes levels with
  | node entry children ih =>
    obtain ⟨parts, rfl, rfl, hcell, views⟩ := view.inv
    obtain ⟨fresh, single⟩ := List.nodup_cons.mp single
    rw [Tree.depth_node] at hlevels
    obtain ⟨levels, rfl⟩ : ∃ more, levels = more + 1 := ⟨levels - 1, by omega⟩
    rw [rollupWithin_succ_of_cell? hcell]
    refine .node hcell (List.Perm.refl _) (addsUp_foldl (fun p hp s hview hnodup => ?_) views
      single fresh)
    have hmem := List.mem_map_of_mem (f := Part.tree) hp
    have hdepth := Tree.depth_le_depthAll hmem
    exact ih p.tree hmem hview hnodup (by omega)

/-- The rollup of a store sums up all subtrees, and so would any that comes to the children of a
node in another order. -/
theorem Shows.sumsUp {h : Handle} {t : Tree α} {nodes : List Handle} {s : Store α}
    (view : s.Shows h t nodes) (single : nodes.Nodup) :
    RollsUp h s (s.rollup h) ∧ ∀ s', RollsUp h s s' → SumsUp s s' nodes :=
  ⟨view.rollsUp_rollupWithin single view.depth_le_size,
    fun _ rolls => rolls.sums view single⟩

end Rolling

/-- A page with two calls, one of which has made a call. -/
def branched : Store Rat where
  cells := #[
    { entry := (Entry.fresh "page").increment (1 / 2) 3, children := [("get", ⟨1⟩), ("put", ⟨2⟩)] },
    { entry := (Entry.fresh "get").increment (1 / 3) Int64.maxValue, children := [("seek", ⟨3⟩)] },
    { entry := (Entry.fresh "put").increment 2 1, children := [] },
    { entry := (Entry.fresh "seek").increment (1 / 6) 1, children := [] }]

theorem shows_branched :
    ∃ t, branched.Shows ⟨0⟩ t [⟨0⟩, ⟨1⟩, ⟨3⟩, ⟨2⟩] := by
  let seek : Part Rat := ⟨⟨3⟩, .node ((Entry.fresh "seek").increment (1 / 6) 1) [], [⟨3⟩]⟩
  let put : Part Rat := ⟨⟨2⟩, .node ((Entry.fresh "put").increment 2 1) [], [⟨2⟩]⟩
  let get : Part Rat :=
    ⟨⟨1⟩, .node ((Entry.fresh "get").increment (1 / 3) Int64.maxValue) [seek.tree], [⟨1⟩, ⟨3⟩]⟩
  have hseek : branched.Shows seek.handle seek.tree seek.nodes :=
    @Shows.node _ _ _ _ [] rfl fun _ hp => (nomatch hp)
  have hput : branched.Shows put.handle put.tree put.nodes :=
    @Shows.node _ _ _ _ [] rfl fun _ hp => (nomatch hp)
  have hget : branched.Shows get.handle get.tree get.nodes :=
    @Shows.node _ _ _ _ [seek] rfl (List.forall_mem_singleton.mpr hseek)
  refine ⟨_, @Shows.node _ _ _ _ [get, put] rfl ?_⟩
  exact List.forall_mem_cons.mpr ⟨hget, List.forall_mem_singleton.mpr hput⟩

theorem Shows.sumsUp_branched :
    (∃ t, branched.Shows ⟨0⟩ t [⟨0⟩, ⟨1⟩, ⟨3⟩, ⟨2⟩]) ∧
      SumsUp branched (branched.rollup ⟨0⟩) [⟨0⟩, ⟨1⟩, ⟨3⟩, ⟨2⟩] ∧
      branched.total Entry.sampleCount [⟨0⟩, ⟨1⟩, ⟨3⟩, ⟨2⟩] = Int64.minValue + 4 ∧
      branched.total Entry.measurement [⟨0⟩, ⟨1⟩, ⟨3⟩, ⟨2⟩] = 3 := by
  obtain ⟨t, view⟩ := shows_branched
  obtain ⟨hrolls, hevery⟩ := view.sumsUp (by decide)
  exact ⟨⟨t, view⟩, hevery _ hrolls, rfl, by decide +kernel⟩

end Store

end Telemetry
