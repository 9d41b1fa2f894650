import Telemetry.Proofs.Breakdown.Merge
import Telemetry.Proofs.Breakdown.View

/-!
# Growing in a store

To add something at the end of a path is to walk down from child to child, to make the nodes that
are missing, and to change the last one. In a store that is done cell by cell. `Shows.amendAt` says
that it comes to the same as a change of the tree that is to be seen: the tree below the node is then
the tree from before, changed along the path. Its nodes are those from before and new ones, and no
other cell is touched.

So what is added at the ends of paths is added to the tree (`Shows.incrementAll`), in any order if
sums are exact (`Tree.incrementAll_perm`).
-/

namespace Telemetry

variable {α : Type}

/-- A value and a count for the node at the end of a path. -/
structure Increment (α : Type) where
  path : List String
  value : α
  count : Int64

namespace Tree

variable [Quantity α]

/-- Add at the ends of several paths. -/
def incrementAll (t : Tree α) (increments : List (Increment α)) : Tree α :=
  increments.foldl (fun t i => t.incrementAt i.path i.value i.count) t

section Exact

variable [Quantity.Exact α]

/-- Two values can be added in either order, wherever their paths lead. -/
theorem incrementAt_comm (path path' : List String) (v w : α) (m n : Int64) (t : Tree α) :
    (t.incrementAt path v m).incrementAt path' w n
      = (t.incrementAt path' w n).incrementAt path v m := by
  induction path generalizing path' t with
  | nil =>
    cases path' with
    | nil =>
      cases t with
      | node entry children => exact congrArg (node · children) (increment_right_comm entry v w m n)
    | cons name path' => exact (mapTop_amendChild _ name _ t).symm
  | cons name path ih =>
    cases path' with
    | nil => exact mapTop_amendChild _ name _ t
    | cons name' path' =>
      have hname := name_incrementAt (α := α) path v m
      have hname' := name_incrementAt (α := α) path' w n
      by_cases heq : name = name'
      · subst heq
        have hsame : (fun t : Tree α => (t.incrementAt path v m).incrementAt path' w n)
            = fun t => (t.incrementAt path' w n).incrementAt path v m := funext (ih path')
        refine (amendChild_amendChild hname name t).trans ?_
        refine Eq.trans ?_ (amendChild_amendChild hname' name t).symm
        exact congrArg (t.amendChild name) hsame
      · exact amendChild_comm hname' hname (Ne.symm heq) t

/-- It does not matter in which order values are added. -/
theorem incrementAll_perm {increments increments' : List (Increment α)}
    (h : increments.Perm increments') (t : Tree α) :
    t.incrementAll increments = t.incrementAll increments' :=
  h.foldl_eq' (fun i _ i' _ t => incrementAt_comm i.path i'.path i.value i'.value i.count i'.count t)
    t

end Exact

end Tree

namespace Store

/-! ## More nodes -/

/-- Nodes have been joined by new ones, none is there twice, and no other cell has been touched. -/
structure Joins (s s' : Store α) (nodes nodes' : List Handle) : Prop where
  single : nodes'.Nodup
  fresh : ∀ n ∈ nodes', n ∈ nodes ∨ s.size ≤ n.index
  frame : ∀ n, n.index < s.size → n ∉ nodes → s'.cell? n = s.cell? n
  larger : s.size ≤ s'.size

theorem Joins.refl (s : Store α) {nodes : List Handle} (single : nodes.Nodup) :
    Joins s s nodes nodes :=
  ⟨single, fun _ hn => .inl hn, fun _ _ _ => rfl, Nat.le_refl _⟩

theorem Joins.trans {s s' s'' : Store α} {nodes nodes' nodes'' : List Handle}
    (h : Joins s s' nodes nodes') (h' : Joins s' s'' nodes' nodes'') :
    Joins s s'' nodes nodes'' where
  single := h'.single
  fresh := by
    intro n hn
    rcases h'.fresh n hn with hn | hn
    · exact h.fresh n hn
    · exact .inr (Nat.le_trans h.larger hn)
  frame := by
    intro n hlt hn
    have hlater : n ∉ nodes' := fun hmem =>
      (h.fresh n hmem).elim hn fun hle => Nat.not_lt.mpr hle hlt
    exact (h'.frame n (Nat.lt_of_lt_of_le hlt h.larger) hlater).trans (h.frame n hlt hn)
  larger := Nat.le_trans h.larger h'.larger

/-- The order in which the nodes are listed does not matter. -/
theorem Joins.perm {s s' : Store α} {nodes nodes' old new : List Handle}
    (h : Joins s s' nodes nodes') (hold : old.Perm nodes) (hnew : new.Perm nodes') :
    Joins s s' old new where
  single := hnew.nodup_iff.mpr h.single
  fresh n hn := (h.fresh n (hnew.subset hn)).imp_left fun hmem => hold.symm.subset hmem
  frame n hlt hn := h.frame n hlt fun hmem => hn (hold.symm.subset hmem)
  larger := h.larger

/-- Other nodes that are there already stay as they are. -/
theorem Joins.beside {s s' : Store α} {nodes nodes' others : List Handle}
    (h : Joins s s' nodes nodes') (single : (nodes ++ others).Nodup)
    (live : ∀ n ∈ others, n.index < s.size) : Joins s s' (nodes ++ others) (nodes' ++ others) := by
  obtain ⟨-, hothers, hdisjoint⟩ := List.nodup_append.mp single
  refine ⟨List.nodup_append.mpr ⟨h.single, hothers, ?_⟩, fun n hn => ?_, fun n hlt hn => ?_, h.larger⟩
  · rintro n hn m hm rfl
    rcases h.fresh n hn with hold | hnew
    · exact hdisjoint n hold n hm rfl
    · exact Nat.not_lt.mpr hnew (live n hm)
  · rcases List.mem_append.mp hn with hn | hn
    · exact (h.fresh n hn).imp_left fun hold => List.mem_append_left others hold
    · exact .inl (List.mem_append_right nodes hn)
  · exact h.frame n hlt fun hmem => hn (List.mem_append_left others hmem)

/-- To change one of the nodes is to touch no other cell. -/
theorem joins_modify (s : Store α) {h : Handle} (f : Cell α → Cell α) {nodes : List Handle}
    (single : nodes.Nodup) (hmem : h ∈ nodes) : Joins s (s.modify h f) nodes nodes where
  single := single
  fresh _ hn := .inl hn
  frame _ _ hn := cell?_modify_of_ne s f fun heq => hn (heq ▸ hmem)
  larger := Nat.le_of_eq (size_modify s h f).symm

/-- A new cell is at the end. -/
theorem joins_allocate (s : Store α) (cell : Cell α) :
    Joins s (s.allocate cell).2 [] [⟨s.size⟩] where
  single := List.nodup_singleton _
  fresh _ hn := .inr (Nat.le_of_eq (congrArg Handle.index (List.mem_singleton.mp hn)).symm)
  frame _ hlt _ := cell?_allocate_of_lt s cell hlt
  larger := by
    rw [size_allocate]
    exact Nat.le_succ _

/-- The nodes of a part can be taken first. -/
theorem perm_nodesOf (h : Handle) (before after : List (Part α)) (p : Part α) :
    (h :: nodesOf (before ++ p :: after)).Perm (p.nodes ++ h :: nodesOf (before ++ after)) := by
  have hparts : (before ++ p :: after).Perm (p :: (before ++ after)) := List.perm_middle
  have hnodes : (nodesOf (before ++ p :: after)).Perm (nodesOf (p :: (before ++ after))) :=
    hparts.flatMap_right Part.nodes
  exact (hnodes.cons h).trans List.perm_middle.symm

section Descending

variable {s s' : Store α} {h : Handle} {entry : Entry α} {before after : List (Part α)}

/-- A part can be put between others that keep their cells. -/
theorem ShowsAll.insert {p : Part α} (views : s.ShowsAll (before ++ after))
    (hsame : ∀ n ∈ nodesOf (before ++ after), s'.cell? n = s.cell? n)
    (view : s'.Shows p.handle p.tree p.nodes) : s'.ShowsAll (before ++ p :: after) := by
  intro q hq
  rcases List.mem_cons.mp (List.perm_middle.subset hq) with rfl | hq
  · exact view
  · exact views.frame hsame q hq

/-- What becomes of a part becomes of the whole. -/
theorem Joins.up {p : Part α} {t' : Tree α} {nodes' : List Handle}
    (cell : s.cell? h = some { entry, children := (before ++ p :: after).map Part.link })
    (views : s.ShowsAll (before ++ p :: after))
    (single : (h :: nodesOf (before ++ p :: after)).Nodup)
    (joins : Joins s s' p.nodes nodes') (view : s'.Shows p.handle t' nodes')
    (hname : t'.name = p.name) :
    ∃ nodes'', s'.Shows h (.node entry (before.map Part.tree ++ t' :: after.map Part.tree)) nodes'' ∧
      Joins s s' (h :: nodesOf (before ++ p :: after)) nodes'' := by
  have horder := perm_nodesOf h before after p
  have hsingle := horder.nodup_iff.mp single
  have hdisjoint := (List.nodup_append.mp hsingle).2.2
  -- all other nodes are outside the part and are there already
  have hlive : ∀ n ∈ h :: nodesOf (before ++ after), n.index < s.size := fun n hn =>
    (Shows.node cell views).lt_size (horder.symm.subset (List.mem_append_right p.nodes hn))
  have hsame : ∀ n ∈ h :: nodesOf (before ++ after), s'.cell? n = s.cell? n := fun n hn =>
    joins.frame n (hlive n hn) fun hp => hdisjoint n hp n hn rfl
  let p' : Part α := ⟨p.handle, t', nodes'⟩
  have hlink : p'.link = p.link := congrArg (·, p.handle) hname
  have hlinks : (before ++ p :: after).map Part.link = (before ++ p' :: after).map Part.link := by
    rw [List.map_append, List.map_append, List.map_cons, List.map_cons, hlink]
  have hcell := (hsame h List.mem_cons_self).trans cell
  have hothers : s.ShowsAll (before ++ after) := fun q hq =>
    views q (List.perm_middle.symm.subset (List.mem_cons_of_mem p hq))
  have hviews : s'.ShowsAll (before ++ p' :: after) :=
    hothers.insert (fun n hn => hsame n (List.mem_cons_of_mem h hn)) view
  have hshows := Shows.node (hcell.trans (by rw [hlinks])) hviews
  rw [List.map_append, List.map_cons] at hshows
  exact ⟨_, hshows, (joins.beside hsingle hlive).perm horder (perm_nodesOf h before after p')⟩

/-! ## The way down -/

/-- A node has been joined by a child in its place, unless it was there. -/
structure Branches (s s' : Store α) (h : Handle) (entry : Entry α) (before after : List (Part α))
    (nodes : List Handle) (p : Part α) : Prop where
  cell : s'.cell? h = some { entry, children := (before ++ p :: after).map Part.link }
  views : s'.ShowsAll (before ++ p :: after)
  joins : Joins s s' nodes (h :: nodesOf (before ++ p :: after))

variable {name : String} {found : Option (Part α)}

theorem map_place {β : Type} (f : Part α → β) :
    (before ++ (found.toList ++ after)).map f
      = before.map f ++ ((found.map f).toList ++ after.map f) := by
  rw [List.map_append, List.map_append, Option.toList_map]

theorem place_links (place : Sorted.Place Part.name name before found after) :
    Sorted.Place Prod.fst name (before.map Part.link) (found.map Part.link)
      (after.map Part.link) :=
  place.map fun _ => rfl

theorem child?_of_place (place : Sorted.Place Part.name name before found after)
    (cell : s.cell? h = some { entry, children := (before ++ (found.toList ++ after)).map Part.link }) :
    s.child? h name = found.map Part.handle := by
  rw [child?, cell, Option.bind_some, map_place, (place_links place).find?_eq, Option.map_map]
  rfl

variable [Quantity α]

/-- A child that is missing is made and put in its place. -/
theorem branches_create (place : Sorted.Place Part.name name before none after)
    (cell : s.cell? h = some { entry, children := (before ++ after).map Part.link })
    (views : s.ShowsAll (before ++ after)) (single : (h :: nodesOf (before ++ after)).Nodup) :
    Branches s ((s.create name).2.attach h ⟨s.size⟩) h entry before after
      (h :: nodesOf (before ++ after)) ⟨⟨s.size⟩, .leaf name, [⟨s.size⟩]⟩ := by
  let p : Part α := ⟨⟨s.size⟩, .leaf name, [⟨s.size⟩]⟩
  have hlive : ∀ n ∈ h :: nodesOf (before ++ after), n.index < s.size := fun n hn =>
    (Shows.node cell views).lt_size hn
  have hmade : (s.create name).2.cell? ⟨s.size⟩ = some { entry := .fresh name, children := [] } :=
    cell?_allocate_self s _
  have hold : ∀ n ∈ h :: nodesOf (before ++ after), (s.create name).2.cell? n = s.cell? n :=
    fun n hn => cell?_allocate_of_lt s _ (hlive n hn)
  have hcreate : Joins s (s.create name).2 (h :: nodesOf (before ++ after))
      (h :: nodesOf (before ++ p :: after)) :=
    ((joins_allocate s _).beside single hlive).perm (List.Perm.refl _)
      (perm_nodesOf h before after p)
  generalize (s.create name).2 = made at *
  have hattach : made.attach h ⟨s.size⟩ = made.modify h fun cell =>
      { cell with children := Sorted.put Prod.fst (name, ⟨s.size⟩) cell.children } := by
    rw [attach, entry?_of_cell? hmade]
    rfl
  have hput : Sorted.put Prod.fst (name, ⟨s.size⟩) ((before ++ after).map Part.link)
      = (before ++ p :: after).map Part.link := by
    rw [List.map_append, List.map_append, List.map_cons]
    exact (place_links place).amend_eq _
  have hne : ∀ n ∈ p.nodes ++ nodesOf (before ++ after), n ≠ h := by
    rintro n hn rfl
    rcases List.mem_cons.mp hn with rfl | hn
    · exact Nat.lt_irrefl s.size (hlive _ List.mem_cons_self)
    · exact (List.nodup_cons.mp single).1 hn
  rw [hattach]
  refine ⟨?_, views.insert (fun n hn => ?_) (@Shows.node _ _ _ _ [] ?_ (List.forall_mem_nil _)), ?_⟩
  · rw [cell?_modify_self, hold h List.mem_cons_self, cell, Option.map_some, hput]
  · rw [cell?_modify_of_ne made _ (hne n (List.mem_cons_of_mem _ hn)).symm]
    exact hold n (List.mem_cons_of_mem h hn)
  · rw [cell?_modify_of_ne made _ (hne p.handle List.mem_cons_self).symm]
    exact hmade
  · exact hcreate.trans (joins_modify made _ hcreate.single List.mem_cons_self)

theorem exists_branches (place : Sorted.Place Part.name name before found after)
    (cell : s.cell? h = some { entry, children := (before ++ (found.toList ++ after)).map Part.link })
    (views : s.ShowsAll (before ++ (found.toList ++ after)))
    (single : (h :: nodesOf (before ++ (found.toList ++ after))).Nodup) :
    ∃ p : Part α, p.handle = (s.childOrNew h name).1 ∧
      p.tree = (found.map Part.tree).getD (.leaf name) ∧
      Branches s (s.childOrNew h name).2 h entry before after
        (h :: nodesOf (before ++ (found.toList ++ after))) p := by
  have hchild := child?_of_place place cell
  cases found with
  | some p =>
    refine ⟨p, ?_, rfl, ?_⟩
    · rw [childOrNew, hchild]
      rfl
    · rw [childOrNew, hchild]
      exact ⟨cell, views, Joins.refl s single⟩
  | none =>
    refine ⟨⟨⟨s.size⟩, .leaf name, [⟨s.size⟩]⟩, ?_, rfl, ?_⟩
    · rw [childOrNew, hchild]
      rfl
    · rw [childOrNew, hchild]
      exact branches_create place cell views single

end Descending

/-! ## Changes at the end of a path -/

section Growing

variable [Quantity α] {s : Store α} {h : Handle} {t : Tree α} {nodes : List Handle}

/-- Change the node at the end of a path, on which all missing nodes are made. -/
def amendAt (s : Store α) (h : Handle) (path : List String) (f : Entry α → Entry α) : Store α :=
  let (n, s) := s.grow h path
  s.modifyEntry n f

theorem amendAt_nil (s : Store α) (h : Handle) (f : Entry α → Entry α) :
    s.amendAt h [] f = s.modifyEntry h f := rfl

theorem amendAt_cons (s : Store α) (h : Handle) (name : String) (path : List String)
    (f : Entry α → Entry α) :
    s.amendAt h (name :: path) f
      = (s.childOrNew h name).2.amendAt (s.childOrNew h name).1 path f := rfl

/-- A change at the end of a path is a change of the tree that is to be seen. -/
theorem Shows.amendAt {f : Entry α → Entry α} (hf : ∀ entry, (f entry).name = entry.name)
    (view : s.Shows h t nodes) (single : nodes.Nodup) (ordered : t.Ordered) (path : List String) :
    ∃ nodes', (s.amendAt h path f).Shows h (t.amendAt path f) nodes' ∧
      Joins s (s.amendAt h path f) nodes nodes' := by
  induction path generalizing s h t nodes with
  | nil =>
    cases view with
    | @node _ entry parts cell views =>
      have hself : (s.modifyEntry h f).cell? h
          = some { entry := f entry, children := parts.map Part.link } := by
        rw [modifyEntry, cell?_modify_self, cell, Option.map_some]
      have hviews : (s.modifyEntry h f).ShowsAll parts := ShowsAll.frame views fun n hn =>
        cell?_modify_of_ne s _ fun heq => (List.nodup_cons.mp single).1 (heq ▸ hn)
      rw [amendAt_nil]
      exact ⟨h :: nodesOf parts, .node hself hviews, joins_modify s _ single List.mem_cons_self⟩
  | cons name path ih =>
    cases view with
    | @node _ entry parts cell views =>
      obtain ⟨before, found, after, rfl, place⟩ :=
        Sorted.exists_place (Shows.ascending_parts ordered) name
      obtain ⟨p, hhandle, htree, branches⟩ := exists_branches place cell views single
      have hordered : p.tree.Ordered := by
        rw [htree]
        cases found with
        | none => exact Tree.ordered_leaf name
        | some q =>
          refine ordered.of_mem (List.mem_map_of_mem ?_)
          exact List.mem_append_right before List.mem_cons_self
      -- the way goes on in the part that the child is the top of
      have hsingle := branches.joins.single
      have horder := perm_nodesOf h before after p
      obtain ⟨hpart, -⟩ := List.nodup_append.mp (horder.nodup_iff.mp hsingle)
      have hmem : p ∈ before ++ p :: after := List.mem_append_right before List.mem_cons_self
      obtain ⟨below, hview, hjoins⟩ := ih (branches.views p hmem) hpart hordered
      obtain ⟨nodes', hshows, hup⟩ := hjoins.up branches.cell branches.views hsingle hview
        (Tree.name_amendAt hf path p.tree)
      rw [amendAt_cons, ← hhandle]
      refine ⟨nodes', ?_, branches.joins.trans hup⟩
      have htrees : Sorted.Place Tree.name name (before.map Part.tree) (found.map Part.tree)
          (after.map Part.tree) := place.map fun _ => rfl
      rw [Tree.amendAt, Tree.amendChild, map_place, htrees.amend_eq, ← htree]
      exact hshows

/-! ## Increments -/

/-- Add to the node at the end of a path, on which all missing nodes are made. -/
def increment (s : Store α) (h : Handle) (i : Increment α) : Store α :=
  s.amendAt h i.path (·.increment i.value i.count)

/-- Add at the ends of several paths. -/
def incrementAll (s : Store α) (h : Handle) (increments : List (Increment α)) : Store α :=
  increments.foldl (fun s i => s.increment h i) s

/-- What is added at the ends of paths is added to the tree that is to be seen. -/
theorem Shows.incrementAll (view : s.Shows h t nodes) (single : nodes.Nodup) (ordered : t.Ordered)
    (increments : List (Increment α)) :
    ∃ nodes', (s.incrementAll h increments).Shows h (t.incrementAll increments) nodes' ∧
      Joins s (s.incrementAll h increments) nodes nodes' := by
  induction increments generalizing s t nodes with
  | nil => exact ⟨nodes, view, Joins.refl s single⟩
  | cons i rest ih =>
    obtain ⟨nodes₁, view₁, joins₁⟩ := view.amendAt
      (fun entry => Entry.name_increment entry i.value i.count) single ordered i.path
    obtain ⟨nodes', view', joins'⟩ :=
      ih view₁ joins₁.single (ordered.incrementAt i.path i.value i.count)
    exact ⟨nodes', view', joins₁.trans joins'⟩

/-- A node that has just been made shows a tree of itself. -/
theorem shows_create (s : Store α) (name : String) :
    (s.create name).2.Shows (s.create name).1 (.leaf name) [(s.create name).1] :=
  @Shows.node _ _ _ _ [] (cell?_allocate_self s _) (List.forall_mem_nil _)

end Growing

end Store

end Telemetry
