import Telemetry.Proofs.Breakdown.Branching
import Telemetry.Proofs.Breakdown.Edits
import Telemetry.Proofs.Breakdown.Evaluation
import Telemetry.Proofs.Text.Bytes

/-!
# Pictures of trees

A picture has the measurements of a tree and its children in the order of the bytes of their names,
and says nothing else. To make one, the children of a node are listed in any order, sorted, and
pictured in turn (`Pictures`). As all children are stored under their own names, no two of a node
have the same name. So there is one picture of a tree, in whatever order its children are listed
(`Shows.pictures_iff`), and a name leads from it to the picture of the child to which it leads in the
store.

`Store.one_picture` says so of all stores that any steps lead to. It also says that a picture does not
tell in which order values were added at the ends of paths, if sums are exact.
-/

namespace Telemetry

variable {α : Type}

/-- The children of every node of a picture ascend by the bytes of their names. -/
inductive BreakdownRecord.Ascending : BreakdownRecord α → Prop where
  | node {record : BreakdownRecord α}
      (children : record.children.Pairwise fun a b => Text.bytes a.name < Text.bytes b.name)
      (below : ∀ child ∈ record.children, Ascending child) : Ascending record

/-- The picture of a tree has its children in order. -/
theorem Tree.Ordered.ascending_toRecord {t : Tree α} (h : t.Ordered) : t.toRecord.Ascending := by
  induction h with
  | @node entry children ascending _ ih =>
    rw [toRecord_node]
    refine .node (List.pairwise_map.mpr (ascending.imp fun {a b} hlt => ?_)) ?_
    · rw [name_toRecord, name_toRecord]
      exact Text.bytes_lt_iff.mpr hlt
    · intro record hrecord
      obtain ⟨child, hchild, rfl⟩ := List.mem_map.mp hrecord
      exact ih child hchild

theorem Tree.child?_toRecord (t : Tree α) (name : String) :
    t.toRecord.child? name = (t.find? name).map toRecord := by
  cases t with
  | node entry children =>
    rw [toRecord_node]
    exact Sorted.find?_map name_toRecord

namespace Store

/-- The picture of the tree below a node. -/
def record? (s : Store α) (h : Handle) : Option (BreakdownRecord α) :=
  (s.tree? h).map Tree.toRecord

/-! ## One picture -/

/-- A picture is made of a node: its children are listed in any order, sorted by the bytes of their
names, and pictured in turn. -/
inductive Pictures (s : Store α) : Handle → BreakdownRecord α → Prop where
  | node {h : Handle} {cell : Cell α} {shots : List (Handle × BreakdownRecord α)}
      (found : s.cell? h = some cell)
      (any : (shots.map Prod.fst).Perm (cell.children.map Prod.snd))
      (sorted : shots.Pairwise fun a b => Text.bytes a.2.name ≤ Text.bytes b.2.name)
      (below : ∀ shot ∈ shots, Pictures s shot.1 shot.2) :
      Pictures s h
        { name := cell.entry.name, measurement := cell.entry.measurement
          sampleCount := cell.entry.sampleCount, children := shots.map Prod.snd }

section Viewed

variable {s : Store α} {h : Handle} {t : Tree α} {nodes : List Handle}

theorem Shows.record?_eq (view : s.Shows h t nodes) : s.record? h = some t.toRecord := by
  rw [record?, view.tree?_eq, Option.map_some]

theorem Shows.pictures (view : s.Shows h t nodes) (ordered : t.Ordered) :
    s.Pictures h t.toRecord := by
  induction view with
  | @node h entry parts cell below ih =>
    have hchildren : (parts.map Part.tree).map Tree.toRecord
        = (parts.map fun p => (p.handle, p.tree.toRecord)).map Prod.snd := by
      rw [List.map_map, List.map_map]
      rfl
    rw [Tree.toRecord_node, hchildren]
    refine .node cell ?_ ?_ ?_
    · rw [List.map_map, List.map_map]
      exact List.Perm.refl _
    · refine List.pairwise_map.mpr ((Shows.ascending_parts ordered).imp fun {p q} hlt => ?_)
      rw [Text.bytes_le_iff, Tree.name_toRecord, Tree.name_toRecord]
      exact String.not_lt.mp (String.lt_asymm hlt)
    · refine List.forall_mem_map.mpr fun p hp => ?_
      exact ih p hp (ordered.of_mem (List.mem_map_of_mem hp))

/-- Of sorted lists of the same pictures, the one with ascending names is the only one. -/
theorem eq_of_sorted {records records' : List (BreakdownRecord α)} (hperm : records'.Perm records)
    (ascending : Sorted.Ascending BreakdownRecord.name records)
    (sorted : records'.Pairwise fun a b => Text.bytes a.name ≤ Text.bytes b.name) :
    records' = records := by
  refine List.Perm.eq_of_pairwise (fun a b ha hb hab hba => ?_) sorted
    (ascending.imp fun hlt => ?_) hperm
  · have hname : a.name = b.name :=
      String.le_antisymm (Text.bytes_le_iff.mp hab) (Text.bytes_le_iff.mp hba)
    have hfind := Sorted.find?_of_mem ascending (hperm.subset ha)
    rw [hname, Sorted.find?_of_mem ascending hb] at hfind
    exact (Option.some.inj hfind).symm
  · exact Text.bytes_le_iff.mpr (String.not_lt.mp (String.lt_asymm hlt))

/-- Of a tree that is to be seen there is one picture, in whatever order children are listed. -/
theorem Shows.pictures_iff (view : s.Shows h t nodes) (ordered : t.Ordered)
    (record : BreakdownRecord α) : s.Pictures h record ↔ record = t.toRecord := by
  refine ⟨fun hpictures => ?_, ?_⟩
  · induction view generalizing record with
    | @node h entry parts cell below ih =>
      cases hpictures with
      | @node _ found shots hfound any sorted shown =>
        obtain rfl := Option.some.inj (hfound.symm.trans cell)
        rw [List.map_map] at any
        -- every child has been pictured as its tree is
        have hshots : ∀ shot ∈ shots, some shot.2 = s.record? shot.1 := by
          intro shot hshot
          obtain ⟨p, hp, hhandle⟩ := List.mem_map.mp (any.subset (List.mem_map_of_mem hshot))
          have hshown := shown shot hshot
          rw [← hhandle] at hshown ⊢
          rw [ih p hp (ordered.of_mem (List.mem_map_of_mem hp)) shot.2 hshown]
          exact (below p hp).record?_eq.symm
        have hperm : (shots.map Prod.snd).Perm ((parts.map Part.tree).map Tree.toRecord) := by
          have hleft : (shots.map Prod.snd).map some = (shots.map Prod.fst).map s.record? := by
            rw [List.map_map, List.map_map]
            exact List.map_congr_left hshots
          have hright : ((parts.map Part.tree).map Tree.toRecord).map some
              = (parts.map (Prod.snd ∘ Part.link)).map s.record? := by
            rw [List.map_map, List.map_map, List.map_map]
            exact List.map_congr_left fun p hp => (below p hp).record?_eq.symm
          rw [← List.map_perm_map_iff (Option.some_injective _), hleft, hright]
          exact any.map s.record?
        have hascending : Sorted.Ascending BreakdownRecord.name
            ((parts.map Part.tree).map Tree.toRecord) := by
          refine List.pairwise_map.mpr (ordered.ascending.imp fun {a b} hlt => ?_)
          rw [Tree.name_toRecord, Tree.name_toRecord]
          exact hlt
        rw [Tree.toRecord_node, eq_of_sorted hperm hascending (List.pairwise_map.mpr sorted)]
  · rintro rfl
    exact view.pictures ordered

/-- The picture of what is below a node, told by its cell and the pictures of its children. -/
structure Pictured (s : Store α) (h : Handle) (cell : Cell α) (record : BreakdownRecord α) :
    Prop where
  name : record.name = cell.entry.name
  measurement : record.measurement = cell.entry.measurement
  sampleCount : record.sampleCount = cell.entry.sampleCount
  /-- every child is there once -/
  children : record.children.map some = cell.children.map fun link => s.record? link.2
  /-- on every level the names ascend by their bytes -/
  ascending : record.Ascending
  /-- a name leads to the picture of the child to which it leads in the store -/
  child : ∀ name, record.child? name = (s.child? h name).bind s.record?
  /-- there is no other, in whatever order children are listed -/
  only : ∀ record', s.Pictures h record' ↔ record' = record

theorem Shows.pictured (view : s.Shows h t nodes) (ordered : t.Ordered) :
    ∃ cell, s.cell? h = some cell ∧ Pictured s h cell t.toRecord := by
  have hpictures := view.pictures_iff ordered
  have hascending := ordered.ascending_toRecord
  cases view with
  | @node _ entry parts cell below =>
    have hchild : ∀ p ∈ parts, s.record? p.handle = some p.tree.toRecord := fun p hp =>
      (below p hp).record?_eq
    refine ⟨_, cell, ?_, ?_, ?_, ?_, hascending, fun name => ?_, hpictures⟩
    · rw [Tree.toRecord_node]
    · rw [Tree.toRecord_node]
    · rw [Tree.toRecord_node]
    · rw [Tree.toRecord_node, List.map_map, List.map_map, List.map_map]
      exact List.map_congr_left fun p hp => (hchild p hp).symm
    · rw [Tree.child?_toRecord, Shows.find?_trees, child?, cell, Option.bind_some,
        Shows.find?_links]
      cases hfind : Sorted.find? Part.name name parts with
      | none => rfl
      | some p => exact (hchild p (Sorted.mem_of_find?_eq_some hfind).1).symm

end Viewed

/-! ## Pictures after all steps -/

/-- After any steps all children are stored under their own names, and what is below a node has one
picture. What has been added below new nodes makes the same picture in any order, if sums are
exact. -/
theorem one_picture [Quantity α] (steps : List (Step α)) :
    (run steps).Filed ∧
    (∀ h t nodes, (run steps).Shows h t nodes → ∃ cell record, (run steps).cell? h = some cell ∧
      (run steps).record? h = some record ∧ Pictured (run steps) h cell record) ∧
    ∀ [Quantity.Exact α] (steps' : List (Step α)) (name : String)
      (increments increments' : List (Increment α)), increments.Perm increments' →
        ∃ record,
          (((run steps).create name).2.incrementAll ((run steps).create name).1 increments).record?
            ((run steps).create name).1 = some record ∧
          (((run steps').create name).2.incrementAll ((run steps').create name).1
            increments').record? ((run steps').create name).1 = some record := by
  have hfiled := filed_run steps
  refine ⟨hfiled, fun h t nodes view => ?_, fun steps' name increments increments' hperm => ?_⟩
  · obtain ⟨cell, hcell, hpictured⟩ := view.pictured (hfiled.ordered view)
    exact ⟨cell, t.toRecord, hcell, view.record?_eq, hpictured⟩
  · have hshows := fun steps : List (Step α) => (shows_create (run steps) name).incrementAll
      (List.nodup_singleton _) (Tree.ordered_leaf name)
    obtain ⟨nodes, view, -⟩ := hshows steps increments
    obtain ⟨nodes', view', -⟩ := hshows steps' increments'
    refine ⟨_, view.record?_eq, ?_⟩
    rw [view'.record?_eq, Tree.incrementAll_perm hperm]

/-- A call below a page, and one below that. -/
def seekCall : Increment Rat := ⟨["call", "seek"], 1 / 3, 2⟩

/-- Another call below the page. -/
def bindCall : Increment Rat := ⟨["bind"], 1 / 2, 1⟩

theorem one_picture_timed :
    (∃ record, (run timed).record? ⟨0⟩ = some record ∧ record.name = "page" ∧
      record.children.length = 1) ∧
    ∃ record,
      (((run []).create "page").2.incrementAll ⟨0⟩ [seekCall, bindCall]).record? ⟨0⟩ = some record ∧
      (((run [.create "other"]).create "page").2.incrementAll ⟨1⟩ [bindCall, seekCall]).record? ⟨1⟩
        = some record := by
  obtain ⟨-, hpictures, -⟩ := one_picture timed
  obtain ⟨cell, record, hcell, hrecord, hpictured⟩ := hpictures _ _ _ shows_timed
  obtain rfl : cell = { entry := .fresh "page", children := [("call", ⟨1⟩)] } :=
    Option.some.inj (hcell.symm.trans rfl)
  refine ⟨⟨record, hrecord, hpictured.name, ?_⟩, ?_⟩
  · have hlength := congrArg List.length hpictured.children
    rw [List.length_map] at hlength
    exact hlength
  · exact (one_picture []).2.2 [.create "other"] "page" _ _ (List.Perm.swap bindCall seekCall [])

end Store

end Telemetry
