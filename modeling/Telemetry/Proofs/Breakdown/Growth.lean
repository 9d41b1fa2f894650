import Telemetry.Proofs.Breakdown.Path
import Telemetry.Proofs.Quantity.Exact

/-!
# Growing trees

A change at a path makes the nodes that are missing on the way. What it does to the node at some
path depends on whether that lies on the way: if it does, the rest of the change is made there
(`Ordered.at?_amendAt_append`), and if not, nothing happens to it
(`Ordered.at?_amendAt_of_not_below`).

What a tree weighs is what its top holds once the children are added to their parents, apart from
the parts a filter by name removes. A value added at the end of a path adds to the weight exactly
if no name on the path is refused (`weigh_incrementAt`), wherever in the tree that path leads.
-/

namespace Telemetry.Tree

variable {α : Type} [Quantity α]

/-! ## Changes of a child -/

theorem entry_amendChild (name : String) (f : Tree α → Tree α) (t : Tree α) :
    (t.amendChild name f).entry = t.entry := by
  cases t
  rfl

/-- A change that leaves names alone makes a child of the name. -/
theorem faithful_amendChild {f : Tree α → Tree α} (hf : ∀ t, (f t).name = t.name) (name : String) :
    Sorted.Faithful Tree.name name fun child => f (child.getD (leaf name)) :=
  ⟨hf (leaf name), fun child hchild => (hf child).trans hchild⟩

/-- The child that was amended is found under its name, also if it was made for that. -/
theorem Ordered.find?_amendChild_self {t : Tree α} (h : t.Ordered) {f : Tree α → Tree α}
    (hf : ∀ t, (f t).name = t.name) (name : String) :
    (t.amendChild name f).find? name = some (f ((t.find? name).getD (leaf name))) := by
  cases h with
  | node ascending _ => exact Sorted.find?_amend_self (faithful_amendChild hf name) ascending

/-- The other children are found as they were. -/
theorem find?_amendChild_of_ne (t : Tree α) {f : Tree α → Tree α}
    (hf : ∀ t, (f t).name = t.name) {name other : String} (hne : name ≠ other) :
    (t.amendChild name f).find? other = t.find? other := by
  cases t with
  | node entry children => exact Sorted.find?_amend_of_ne (faithful_amendChild hf name) hne

theorem ordered_leaf (name : String) : (leaf name : Tree α).Ordered :=
  .node List.Pairwise.nil fun _ hmem => nomatch hmem

/-- A new child is put where its name belongs. -/
theorem Ordered.amendChild {t : Tree α} (h : t.Ordered) {f : Tree α → Tree α}
    (hf : ∀ t, (f t).name = t.name) (ho : ∀ t, t.Ordered → (f t).Ordered) (name : String) :
    (t.amendChild name f).Ordered := by
  cases h with
  | node ascending deeper =>
    refine .node (Sorted.ascending_amend (faithful_amendChild hf name) ascending) ?_
    intro child hmem
    rcases Sorted.mem_amend hmem with hold | rfl | ⟨old, hold, -, rfl⟩
    · exact deeper child hold
    · exact ho _ (ordered_leaf name)
    · exact ho old (deeper old hold)

/-! ## Changes along a path -/

section Amending

variable {f : Entry α → Entry α}

theorem name_amendAt (hf : ∀ entry, (f entry).name = entry.name) (path : List String)
    (t : Tree α) : (t.amendAt path f).name = t.name := by
  cases path with
  | nil =>
    cases t with
    | node entry children => exact hf entry
  | cons name path => exact congrArg Entry.name (entry_amendChild name _ t)

/-- Growing along a path keeps every level of it in order. -/
theorem Ordered.amendAt {t : Tree α} (h : t.Ordered) (hf : ∀ entry, (f entry).name = entry.name)
    (path : List String) : (t.amendAt path f).Ordered := by
  induction path generalizing t with
  | nil =>
    cases h with
    | node ascending deeper => exact .node ascending deeper
  | cons name path ih => exact h.amendChild (name_amendAt hf path) (fun _ ht => ih ht) name

/-- The node at a path as a change on its way meets it: one that is missing is made. -/
def reach (path : List String) (t : Tree α) : Tree α :=
  (t.at? path).getD (leaf (path.getLastD rootName))

/-- Where there is a node, reaching for it makes none. -/
theorem reach_eq_of_at? {t sub : Tree α} {path : List String} (h : t.at? path = some sub) :
    t.reach path = sub := by
  rw [reach, h]
  rfl

theorem reach_cons (name : String) (path : List String) (t : Tree α) :
    t.reach (name :: path) = ((t.find? name).getD (leaf name)).reach path := by
  simp only [reach]
  rw [at?_cons]
  cases t.find? name with
  | none => cases path <;> rfl
  | some child =>
    cases path with
    | nil => rfl
    | cons second rest => simp [List.getLastD]

/-- A change is made where it leads, from any node on the way. -/
theorem Ordered.at?_amendAt_append {t : Tree α} (h : t.Ordered)
    (hf : ∀ entry, (f entry).name = entry.name) (path rest : List String) :
    (t.amendAt (path ++ rest) f).at? path = some ((t.reach path).amendAt rest f) := by
  induction path generalizing t with
  | nil => rfl
  | cons name path ih =>
    have hstep : t.amendAt (name :: path ++ rest) f
        = t.amendChild name (Tree.amendAt (path ++ rest) f) := rfl
    have hchild : ((t.find? name).getD (leaf name)).Ordered := by
      cases hfind : t.find? name with
      | none => exact ordered_leaf name
      | some child => exact h.of_find? hfind
    rw [hstep, at?_cons, h.find?_amendChild_self (name_amendAt hf _), Option.bind_some, ih hchild,
      reach_cons]

/-- A node that is not on the way is left alone. -/
theorem Ordered.at?_amendAt_of_not_below {t : Tree α} (h : t.Ordered)
    (hf : ∀ entry, (f entry).name = entry.name) {path target : List String}
    (hpath : ¬ path <+: target) : (t.amendAt target f).at? path = t.at? path := by
  induction path generalizing t target with
  | nil => exact absurd List.nil_prefix hpath
  | cons name path ih =>
    cases target with
    | nil =>
      cases t
      rfl
    | cons first target =>
      have hstep : t.amendAt (first :: target) f = t.amendChild first (Tree.amendAt target f) := rfl
      rw [hstep, at?_cons, at?_cons]
      by_cases hname : first = name
      · subst hname
        have hrest : ¬ path <+: target := fun hle => hpath (List.cons_prefix_cons.mpr ⟨rfl, hle⟩)
        rw [h.find?_amendChild_self (name_amendAt hf target), Option.bind_some]
        cases hfind : t.find? first with
        | some child => exact ih (h.of_find? hfind) hrest
        | none =>
          -- a child that is made has nothing below it but what the change needs
          rw [Option.getD_none, ih (ordered_leaf first) hrest]
          cases path with
          | nil => exact absurd List.nil_prefix hrest
          | cons second rest => rfl
      · rw [find?_amendChild_of_ne t (name_amendAt hf target) hname]

/-- What is done along a path through a node is done to it with the rest of the path. What is done
elsewhere does not reach it. -/
theorem Ordered.reach_amendAt {t : Tree α} (h : t.Ordered)
    (hf : ∀ entry, (f entry).name = entry.name) (path target : List String) :
    (t.amendAt target f).reach path
      = if path <+: target then (t.reach path).amendAt (target.drop path.length) f
        else t.reach path := by
  by_cases hpath : path <+: target
  · obtain ⟨rest, rfl⟩ := hpath
    rw [if_pos (List.prefix_append path rest), List.drop_left,
      reach_eq_of_at? (h.at?_amendAt_append hf path rest)]
  · rw [if_neg hpath, reach, h.at?_amendAt_of_not_below hf hpath, reach]

end Amending

/-! ## Values at the end of paths -/

theorem name_incrementAt (path : List String) (v : α) (c : Int64) (t : Tree α) :
    (t.incrementAt path v c).name = t.name :=
  name_amendAt (fun entry => Entry.name_increment entry v c) path t

theorem ordered_root : (root : Tree α).Ordered := ordered_leaf rootName

theorem Ordered.incrementAt {t : Tree α} (h : t.Ordered) (path : List String) (v : α)
    (c : Int64) : (t.incrementAt path v c).Ordered :=
  h.amendAt (fun entry => Entry.name_increment entry v c) path

/-- What a node has been given is what was given along paths through it. -/
theorem Ordered.reach_incrementAt {t : Tree α} (h : t.Ordered) (path target : List String) (v : α)
    (c : Int64) :
    (t.incrementAt target v c).reach path
      = if path <+: target then (t.reach path).incrementAt (target.drop path.length) v c
        else t.reach path :=
  h.reach_amendAt (fun entry => Entry.name_increment entry v c) path target

/-- A tree grows where a value leads or passes by, and nowhere else. -/
theorem Ordered.isSome_at?_incrementAt_iff {t : Tree α} (h : t.Ordered)
    (path target : List String) (v : α) (c : Int64) :
    ((t.incrementAt target v c).at? path).isSome ↔ (t.at? path).isSome ∨ path <+: target := by
  have hname : ∀ entry : Entry α, (entry.increment v c).name = entry.name :=
    fun entry => Entry.name_increment entry v c
  by_cases hpath : path <+: target
  · obtain ⟨rest, rfl⟩ := hpath
    rw [Tree.incrementAt, h.at?_amendAt_append hname path rest]
    exact ⟨fun _ => .inr (List.prefix_append path rest), fun _ => rfl⟩
  · rw [Tree.incrementAt, h.at?_amendAt_of_not_below hname hpath]
    exact ⟨.inl, fun hat => hat.resolve_right hpath⟩

/-! ## Weights -/

/-- What the top of a tree holds once the refused names are removed and children are added to their
parents. -/
def weigh (keep : String → Bool) (t : Tree α) : Entry α := (t.filterNames keep).rollup.entry

/-- The weights of the trees that are not refused. -/
def weights (keep : String → Bool) (children : List (Tree α)) : List (Entry α) :=
  (children.filter fun child => keep child.name).map (weigh keep)

/-- Add up weights. -/
def gather (entry : Entry α) (weights : List (Entry α)) : Entry α :=
  weights.foldl (fun entry weight => entry.increment weight.measurement weight.sampleCount) entry

/-- Weights are counted in one after the other, from the left. -/
theorem gather_cons (entry weight : Entry α) (weights : List (Entry α)) :
    gather entry (weight :: weights)
      = gather (entry.increment weight.measurement weight.sampleCount) weights := rfl

/-- A node weighs its own entry and what those of its children weigh that are not refused. -/
theorem weigh_node (keep : String → Bool) (entry : Entry α) (children : List (Tree α)) :
    (node entry children).weigh keep = gather entry (weights keep children) := by
  rw [weigh, filterNames_node, rollup_node, List.map_map]
  rw [gather, weights]
  rw [List.foldl_map]
  exact List.foldl_map

theorem weigh_leaf (keep : String → Bool) (name : String) :
    (leaf name : Tree α).weigh keep = Entry.fresh name :=
  weigh_node keep _ []

theorem weights_cons_of_kept {keep : String → Bool} {child : Tree α} (hkeep : keep child.name)
    (rest : List (Tree α)) : weights keep (child :: rest) = child.weigh keep :: weights keep rest := by
  simp only [weights]
  rw [List.filter_cons, if_pos hkeep, List.map_cons]

/-- A refused child weighs nothing, with all that is below it. -/
theorem weights_cons_of_refused {keep : String → Bool} {child : Tree α}
    (hrefused : ¬ keep child.name) (rest : List (Tree α)) :
    weights keep (child :: rest) = weights keep rest := by
  simp only [weights]
  rw [List.filter_cons, if_neg hrefused]

omit [Quantity α] in
/-- Where no name is refused, nothing is removed. -/
theorem filterNames_eq_self {keep : String → Bool} (hkeep : ∀ name, keep name) (t : Tree α) :
    t.filterNames keep = t := by
  induction t using induction with
  | node entry children ih =>
    rw [filterNames_node, List.filter_eq_self.mpr fun child _ => hkeep child.name,
      List.map_congr_left ih, List.map_id']

section Exact

variable [Quantity.Exact α]

theorem increment_zero (entry : Entry α) : entry.increment 0 0 = entry := by
  rw [Entry.increment, Quantity.Exact.add_zero, Int64.add_zero]

/-- Two increments are one of the sums: addition has to associate for that. -/
theorem increment_increment (entry : Entry α) (v w : α) (m n : Int64) :
    (entry.increment v m).increment w n = entry.increment (v + w) (m + n) := by
  simp only [Entry.increment, Quantity.Exact.add_assoc, Int64.add_assoc]

/-- Increments can change places, which is why weights can be gathered in any order. -/
theorem increment_right_comm (entry : Entry α) (v w : α) (m n : Int64) :
    (entry.increment v m).increment w n = (entry.increment w n).increment v m := by
  rw [increment_increment, increment_increment, Quantity.Exact.add_comm v, Int64.add_comm m]

/-- It does not matter whether something is added before the weights or after them. -/
theorem gather_increment (entry : Entry α) (weights : List (Entry α)) (v : α) (c : Int64) :
    gather (entry.increment v c) weights = (gather entry weights).increment v c := by
  induction weights generalizing entry with
  | nil => rfl
  | cons weight rest ih => rw [gather_cons, increment_right_comm, ih, gather_cons]

/-- What is added to the weight of a child, which may be new, is added to that of the parent. -/
theorem gather_weights_amend {keep : String → Bool} {name : String} (hkeep : keep name)
    {f : Tree α → Tree α} (hf : ∀ t, (f t).name = t.name) {v : α} {c : Int64}
    (hweigh : ∀ t, (f t).weigh keep = (t.weigh keep).increment v c)
    (entry : Entry α) (children : List (Tree α)) :
    gather entry (weights keep
        (Sorted.amend Tree.name name (fun child => f (child.getD (leaf name))) children))
      = (gather entry (weights keep children)).increment v c := by
  have hchanged : ∀ entry (t : Tree α) rest, keep t.name →
      gather entry (weights keep (f t :: rest))
        = (gather entry (t.weigh keep :: weights keep rest)).increment v c := by
    intro entry t rest ht
    rw [weights_cons_of_kept (by rw [hf]; exact ht), hweigh, ← gather_increment, gather_cons,
      gather_cons, increment_right_comm, increment_increment]
    rfl
  -- a child that is made weighs nothing but what is added to it
  have hmade : ∀ entry (rest : List (Tree α)),
      gather entry (weights keep (f (leaf name) :: rest))
        = (gather entry (weights keep rest)).increment v c := by
    intro entry rest
    rw [hchanged entry (leaf name) rest hkeep, weigh_leaf, gather_cons]
    exact congrArg (fun entry => (gather entry _).increment v c) (increment_zero entry)
  induction children generalizing entry with
  | nil => exact hmade entry []
  | cons child rest ih =>
    rcases Sorted.lt_or_eq_or_gt child.name name with hlt | heq | hgt
    · rw [Sorted.amend_cons_of_lt hlt]
      by_cases hchild : keep child.name
      · rw [weights_cons_of_kept hchild, weights_cons_of_kept hchild, gather_cons, gather_cons]
        exact ih _
      · rw [weights_cons_of_refused hchild, weights_cons_of_refused hchild]
        exact ih _
    · have hchild : keep child.name := by rw [heq]; exact hkeep
      rw [Sorted.amend_cons_of_eq heq, Option.getD_some, hchanged entry child rest hchild,
        weights_cons_of_kept hchild]
    · rw [Sorted.amend_cons_of_gt hgt, Option.getD_none, hmade]

/-- A value added at the end of a path adds to the weight, unless a name on the path is refused. -/
theorem weigh_incrementAt (keep : String → Bool) (path : List String) (v : α) (c : Int64)
    (t : Tree α) :
    (t.incrementAt path v c).weigh keep
      = if path.all keep then (t.weigh keep).increment v c else t.weigh keep := by
  have hname : ∀ path (t : Tree α), (t.incrementAt path v c).name = t.name := fun path t =>
    name_incrementAt path v c t
  induction path generalizing t with
  | nil =>
    cases t with
    | node entry children =>
      change (node (entry.increment v c) children).weigh keep = _
      rw [weigh_node, gather_increment, ← weigh_node]
      rfl
  | cons name path ih =>
    cases t with
    | node entry children =>
      change (node entry (Sorted.amend Tree.name name
        (fun child => incrementAt path v c (child.getD (leaf name))) children)).weigh keep = _
      rw [weigh_node, weigh_node, List.all_cons]
      by_cases hkeep : keep name
      · rw [hkeep, Bool.true_and]
        by_cases hpath : path.all keep
        · rw [if_pos hpath]
          refine gather_weights_amend hkeep (hname path) (fun t => ?_) entry children
          rw [ih, if_pos hpath]
        · rw [if_neg hpath, gather_weights_amend hkeep (hname path) (v := 0) (c := 0) (fun t => ?_),
            increment_zero]
          rw [ih, if_neg hpath, increment_zero]
      · -- the way leads through a child that is removed
        have hrefused : ∀ child : Tree α, child.name = name → ¬ keep child.name := by
          intro child hchild
          rw [hchild]
          exact hkeep
        rw [if_neg (by simp [hkeep]), weights, weights,
          Sorted.filter_amend_of_refused (faithful_amendChild (hname path) name) hrefused]

end Exact

end Telemetry.Tree
