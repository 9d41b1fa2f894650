/-!
# Lists sorted by name

Wherever things are kept by name (the children of a node, the segments of a window), they are kept
in a list with ascending names, in the order of code points. So the order in which they are shown
does not depend on the order in which they came.

`amend` is the one way to change such a list: it changes the item with a name, or puts a new one at
the place where it belongs. Its laws below say that it keeps the list ascending and touches no other
item.
-/

namespace Telemetry.Sorted

variable {α : Type}

/-- The item with a name. -/
def find? (nameOf : α → String) (name : String) (items : List α) : Option α :=
  items.find? fun item => nameOf item == name

/-- Change the item with a name. `change` is given the item, or nothing if it has to make one. -/
def amend (nameOf : α → String) (name : String) (change : Option α → α) : List α → List α
  | [] => [change none]
  | item :: rest =>
    if nameOf item < name then item :: amend nameOf name change rest
    else if nameOf item = name then change (some item) :: rest
    else change none :: item :: rest

/-- Put an item at its place, instead of one with the same name. -/
def put (nameOf : α → String) (item : α) (items : List α) : List α :=
  amend nameOf (nameOf item) (fun _ => item) items

/-- The names ascend, so no two items have the same name. -/
def Ascending (nameOf : α → String) (items : List α) : Prop :=
  items.Pairwise fun first second => nameOf first < nameOf second

/-- A change makes an item of the name, and leaves an item of the name its name. -/
structure Faithful (nameOf : α → String) (name : String) (change : Option α → α) : Prop where
  made : nameOf (change none) = name
  changed : ∀ item, nameOf item = name → nameOf (change (some item)) = name

/-! ## Where a name belongs -/

variable {nameOf : α → String} {name : String} {change : Option α → α} {items : List α}

theorem lt_or_eq_or_gt (a b : String) : a < b ∨ a = b ∨ b < a := by
  by_cases hlt : a < b
  · exact .inl hlt
  · by_cases heq : a = b
    · exact .inr (.inl heq)
    · exact .inr (.inr (Std.lt_of_le_of_ne (String.not_lt.mp hlt) (Ne.symm heq)))

theorem ne_of_lt {a b : String} (h : a < b) : a ≠ b :=
  fun heq => String.lt_irrefl b (heq ▸ h)

/-- Items that stand before a name are skipped. -/
theorem amend_cons_of_lt {first : α} (h : nameOf first < name) :
    amend nameOf name change (first :: items) = first :: amend nameOf name change items := by
  rw [amend, if_pos h]

theorem amend_cons_of_eq {first : α} (h : nameOf first = name) :
    amend nameOf name change (first :: items) = change (some first) :: items := by
  rw [amend, if_neg (by rw [h]; exact String.lt_irrefl name), if_pos h]

theorem amend_cons_of_gt {first : α} (h : name < nameOf first) :
    amend nameOf name change (first :: items) = change none :: first :: items := by
  rw [amend, if_neg (String.lt_asymm h), if_neg (Ne.symm (ne_of_lt h))]

/-- An item that is new has come from the change, of nothing or of an item of the name. -/
theorem mem_amend {item : α} (h : item ∈ amend nameOf name change items) :
    item ∈ items ∨ item = change none ∨
      ∃ old ∈ items, nameOf old = name ∧ item = change (some old) := by
  induction items with
  | nil => exact .inr (.inl (List.mem_singleton.mp h))
  | cons first rest ih =>
    rcases lt_or_eq_or_gt (nameOf first) name with hlt | heq | hgt
    · rw [amend_cons_of_lt hlt] at h
      rcases List.mem_cons.mp h with rfl | h
      · exact .inl List.mem_cons_self
      · rcases ih h with hmem | hmade | ⟨old, hmem, hold, hitem⟩
        · exact .inl (List.mem_cons_of_mem first hmem)
        · exact .inr (.inl hmade)
        · exact .inr (.inr ⟨old, List.mem_cons_of_mem first hmem, hold, hitem⟩)
    · rw [amend_cons_of_eq heq] at h
      rcases List.mem_cons.mp h with hitem | h
      · exact .inr (.inr ⟨first, List.mem_cons_self, heq, hitem⟩)
      · exact .inl (List.mem_cons_of_mem first h)
    · rw [amend_cons_of_gt hgt] at h
      rcases List.mem_cons.mp h with hitem | h
      · exact .inr (.inl hitem)
      · exact .inl h

/-- The names after a change are the name itself and those from before. -/
theorem name_of_mem_amend (hc : Faithful nameOf name change) {item : α}
    (h : item ∈ amend nameOf name change items) : item ∈ items ∨ nameOf item = name := by
  rcases mem_amend h with hmem | rfl | ⟨old, -, hold, rfl⟩
  · exact .inl hmem
  · exact .inr hc.made
  · exact .inr (hc.changed old hold)

/-- A list stays ascending. -/
theorem ascending_amend (hc : Faithful nameOf name change) (h : Ascending nameOf items) :
    Ascending nameOf (amend nameOf name change items) := by
  induction items with
  | nil => exact List.pairwise_singleton _ _
  | cons first rest ih =>
    obtain ⟨hfirst, hrest⟩ := List.pairwise_cons.mp h
    rcases lt_or_eq_or_gt (nameOf first) name with hlt | heq | hgt
    · rw [amend_cons_of_lt hlt]
      refine List.pairwise_cons.mpr ⟨fun item hitem => ?_, ih hrest⟩
      rcases name_of_mem_amend hc hitem with hmem | hname
      · exact hfirst item hmem
      · exact hname ▸ hlt
    · rw [amend_cons_of_eq heq]
      refine List.pairwise_cons.mpr ⟨fun item hitem => ?_, hrest⟩
      rw [hc.changed first heq, ← heq]
      exact hfirst item hitem
    · rw [amend_cons_of_gt hgt]
      refine List.pairwise_cons.mpr ⟨fun item hitem => ?_, h⟩
      rw [hc.made]
      rcases List.mem_cons.mp hitem with rfl | hitem
      · exact hgt
      · exact String.lt_trans hgt (hfirst item hitem)

/-! ## What is found -/

theorem find?_cons_of_eq {first : α} (h : nameOf first = name) :
    find? nameOf name (first :: items) = some first := by
  simp [find?, h]

theorem find?_cons_of_ne {first : α} (h : nameOf first ≠ name) :
    find? nameOf name (first :: items) = find? nameOf name items := by
  simp [find?, h]

theorem mem_of_find?_eq_some {item : α} (h : find? nameOf name items = some item) :
    item ∈ items ∧ nameOf item = name :=
  ⟨List.mem_of_find?_eq_some h, by simpa using List.find?_some h⟩

theorem find?_eq_none_of_lt (h : ∀ item ∈ items, name < nameOf item) :
    find? nameOf name items = none := by
  simp only [find?, List.find?_eq_none, beq_iff_eq]
  intro item hitem heq
  exact String.lt_irrefl _ (heq ▸ h item hitem)

/-- An item is found under its name. -/
theorem find?_of_mem (h : Ascending nameOf items) {item : α} (hitem : item ∈ items) :
    find? nameOf (nameOf item) items = some item := by
  induction items with
  | nil => cases hitem
  | cons first rest ih =>
    obtain ⟨hfirst, hrest⟩ := List.pairwise_cons.mp h
    rcases List.mem_cons.mp hitem with rfl | hmem
    · exact find?_cons_of_eq rfl
    · rw [find?_cons_of_ne (ne_of_lt (hfirst item hmem)), ih hrest hmem]

theorem isSome_find?_iff : (find? nameOf name items).isSome ↔ name ∈ items.map nameOf := by
  rw [find?, List.find?_isSome, List.mem_map]
  simp only [beq_iff_eq]

theorem nodup_names (h : Ascending nameOf items) : (items.map nameOf).Nodup :=
  List.pairwise_map.mpr (List.Pairwise.imp ne_of_lt h)

/-- If no two items share a name, there is no more than one of a name. -/
theorem filter_name (h : (items.map nameOf).Nodup) :
    (items.filter fun item => nameOf item == name) = (find? nameOf name items).toList := by
  induction items with
  | nil => rfl
  | cons first rest ih =>
    obtain ⟨hfirst, hrest⟩ := List.pairwise_cons.mp h
    by_cases hname : nameOf first = name
    · have hnone : find? nameOf name rest = none := by
        rw [← Option.not_isSome_iff_eq_none, isSome_find?_iff]
        exact fun hmem => hfirst name hmem hname
      rw [List.filter_cons_of_pos (by simpa using hname), find?_cons_of_eq hname, ih hrest, hnone]
      rfl
    · rw [List.filter_cons_of_neg (by simpa using hname), find?_cons_of_ne hname, ih hrest]

/-- The item with the name is the one that the change has made of what was there. -/
theorem find?_amend_self (hc : Faithful nameOf name change) (h : Ascending nameOf items) :
    find? nameOf name (amend nameOf name change items)
      = some (change (find? nameOf name items)) := by
  induction items with
  | nil => exact find?_cons_of_eq hc.made
  | cons first rest ih =>
    obtain ⟨hfirst, hrest⟩ := List.pairwise_cons.mp h
    rcases lt_or_eq_or_gt (nameOf first) name with hlt | heq | hgt
    · rw [amend_cons_of_lt hlt, find?_cons_of_ne (ne_of_lt hlt), find?_cons_of_ne (ne_of_lt hlt),
        ih hrest]
    · rw [amend_cons_of_eq heq, find?_cons_of_eq (hc.changed first heq), find?_cons_of_eq heq]
    · have hnone : find? nameOf name (first :: rest) = none := by
        refine find?_eq_none_of_lt fun item hitem => ?_
        rcases List.mem_cons.mp hitem with rfl | hitem
        · exact hgt
        · exact String.lt_trans hgt (hfirst item hitem)
      rw [amend_cons_of_gt hgt, find?_cons_of_eq hc.made, hnone]

/-- Every other item is as it was. -/
theorem find?_amend_of_ne (hc : Faithful nameOf name change) {other : String}
    (hne : name ≠ other) :
    find? nameOf other (amend nameOf name change items) = find? nameOf other items := by
  induction items with
  | nil => exact find?_cons_of_ne (by rw [hc.made]; exact hne)
  | cons first rest ih =>
    rcases lt_or_eq_or_gt (nameOf first) name with hlt | heq | hgt
    · rw [amend_cons_of_lt hlt]
      by_cases hother : nameOf first = other
      · rw [find?_cons_of_eq hother, find?_cons_of_eq hother]
      · rw [find?_cons_of_ne hother, find?_cons_of_ne hother, ih]
    · have hfirst : nameOf first ≠ other := by rw [heq]; exact hne
      rw [amend_cons_of_eq heq, find?_cons_of_ne hfirst,
        find?_cons_of_ne (by rw [hc.changed first heq]; exact hne)]
    · rw [amend_cons_of_gt hgt, find?_cons_of_ne (by rw [hc.made]; exact hne)]

/-- What a map finds that leaves names alone. -/
theorem find?_map {β : Type} {nameOf' : β → String} {f : α → β}
    (hf : ∀ item, nameOf' (f item) = nameOf item) :
    find? nameOf' name (items.map f) = (find? nameOf name items).map f := by
  have hcomp : (fun item => nameOf' item == name) ∘ f = fun item => nameOf item == name :=
    funext fun item => congrArg (· == name) (hf item)
  rw [find?, find?, List.find?_map, hcomp]

/-- A filter takes an item or leaves it. There is no second one of its name behind it. -/
theorem find?_filter (h : Ascending nameOf items) (keep : α → Bool) :
    find? nameOf name (items.filter keep) = (find? nameOf name items).filter keep := by
  induction items with
  | nil => rfl
  | cons first rest ih =>
    obtain ⟨hfirst, hrest⟩ := List.pairwise_cons.mp h
    by_cases hname : nameOf first = name
    · rw [find?_cons_of_eq hname]
      cases hkeep : keep first with
      | true => rw [List.filter_cons_of_pos hkeep, find?_cons_of_eq hname]; simp [Option.filter, hkeep]
      | false =>
        have hnone : find? nameOf name (rest.filter keep) = none :=
          find?_eq_none_of_lt fun item hitem => hname ▸ hfirst item (List.mem_filter.mp hitem).1
        rw [List.filter_cons_of_neg (by rw [hkeep]; decide), hnone]
        simp [Option.filter, hkeep]
    · rw [find?_cons_of_ne hname, ← ih hrest]
      cases hkeep : keep first with
      | true => rw [List.filter_cons_of_pos hkeep, find?_cons_of_ne hname]
      | false => rw [List.filter_cons_of_neg (by rw [hkeep]; decide)]

/-- A filter that refuses the name does not see what has become of it. -/
theorem filter_amend_of_refused (hc : Faithful nameOf name change) {keep : α → Bool}
    (hrefused : ∀ item, nameOf item = name → ¬ keep item) :
    (amend nameOf name change items).filter keep = items.filter keep := by
  have hmade : ¬ keep (change none) := hrefused _ hc.made
  induction items with
  | nil => exact List.filter_cons_of_neg hmade
  | cons first rest ih =>
    rcases lt_or_eq_or_gt (nameOf first) name with hlt | heq | hgt
    · rw [amend_cons_of_lt hlt, List.filter_cons, List.filter_cons, ih]
    · rw [amend_cons_of_eq heq, List.filter_cons_of_neg (hrefused _ (hc.changed first heq)),
        List.filter_cons_of_neg (hrefused first heq)]
    · rw [amend_cons_of_gt hgt, List.filter_cons_of_neg hmade]

/-! ## The place of a name -/

/-- A list is cut where a name belongs: lesser names are before it, greater ones behind it, and the
item of the name is in between if there is one. -/
structure Place (nameOf : α → String) (name : String) (before : List α) (found : Option α)
    (after : List α) : Prop where
  before : ∀ item ∈ before, nameOf item < name
  found : ∀ item ∈ found, nameOf item = name
  after : ∀ item ∈ after, name < nameOf item

theorem exists_place (h : Ascending nameOf items) (name : String) :
    ∃ before found after, items = before ++ (found.toList ++ after) ∧
      Place nameOf name before found after := by
  induction items with
  | nil =>
    refine ⟨[], none, [], rfl, List.forall_mem_nil _, ?_, List.forall_mem_nil _⟩
    intro item hitem
    cases hitem
  | cons first rest ih =>
    obtain ⟨hfirst, hrest⟩ := List.pairwise_cons.mp h
    rcases lt_or_eq_or_gt (nameOf first) name with hlt | heq | hgt
    · obtain ⟨before, found, after, rfl, place⟩ := ih hrest
      refine ⟨first :: before, found, after, rfl, ?_, place.found, place.after⟩
      exact List.forall_mem_cons.mpr ⟨hlt, place.before⟩
    · refine ⟨[], some first, rest, rfl, List.forall_mem_nil _, ?_, ?_⟩
      · rintro _ ⟨⟩
        exact heq
      · exact fun item hitem => heq ▸ hfirst item hitem
    · refine ⟨[], none, first :: rest, rfl, List.forall_mem_nil _, ?_, ?_⟩
      · intro item hitem
        cases hitem
      · refine List.forall_mem_cons.mpr ⟨hgt, fun item hitem => ?_⟩
        exact String.lt_trans hgt (hfirst item hitem)

variable {before after : List α} {found : Option α}

/-- A map that leaves names alone leaves them their places. -/
theorem Place.map {β : Type} {nameOf' : β → String} {f : α → β}
    (hf : ∀ item, nameOf' (f item) = nameOf item) (place : Place nameOf name before found after) :
    Place nameOf' name (before.map f) (found.map f) (after.map f) where
  before := by
    refine List.forall_mem_map.mpr fun item hitem => ?_
    rw [hf]
    exact place.before item hitem
  found := by
    intro item hitem
    obtain ⟨old, hold, rfl⟩ := Option.map_eq_some_iff.mp hitem
    rw [hf]
    exact place.found old hold
  after := by
    refine List.forall_mem_map.mpr fun item hitem => ?_
    rw [hf]
    exact place.after item hitem

/-- What is found is the item in between. -/
theorem Place.find?_eq (place : Place nameOf name before found after) :
    find? nameOf name (before ++ (found.toList ++ after)) = found := by
  induction before with
  | nil =>
    cases found with
    | none => exact find?_eq_none_of_lt place.after
    | some item => exact find?_cons_of_eq (place.found item rfl)
  | cons first rest ih =>
    obtain ⟨hfirst, hrest⟩ := List.forall_mem_cons.mp place.before
    rw [List.cons_append, find?_cons_of_ne (ne_of_lt hfirst), ih ⟨hrest, place.found, place.after⟩]

/-- A change is made in between. -/
theorem Place.amend_eq (place : Place nameOf name before found after) (change : Option α → α) :
    amend nameOf name change (before ++ (found.toList ++ after))
      = before ++ change found :: after := by
  induction before with
  | nil =>
    cases found with
    | some item => exact amend_cons_of_eq (place.found item rfl)
    | none =>
      cases after with
      | nil => rfl
      | cons item rest => exact amend_cons_of_gt (place.after item List.mem_cons_self)
  | cons first rest ih =>
    obtain ⟨hfirst, hrest⟩ := List.forall_mem_cons.mp place.before
    rw [List.cons_append, amend_cons_of_lt hfirst, ih ⟨hrest, place.found, place.after⟩]
    rfl

/-! ## Changes one after the other -/

/-- Two changes of the same item are one. -/
theorem amend_amend (hc : Faithful nameOf name change) (change' : Option α → α) :
    amend nameOf name change' (amend nameOf name change items)
      = amend nameOf name (fun old => change' (some (change old))) items := by
  induction items with
  | nil => exact amend_cons_of_eq hc.made
  | cons first rest ih =>
    rcases lt_or_eq_or_gt (nameOf first) name with h | h | h
    · rw [amend_cons_of_lt h, amend_cons_of_lt h, amend_cons_of_lt h, ih]
    · rw [amend_cons_of_eq h, amend_cons_of_eq h, amend_cons_of_eq (hc.changed first h)]
    · rw [amend_cons_of_gt h, amend_cons_of_gt h, amend_cons_of_eq hc.made]

theorem amend_comm_of_lt {name' : String} {change' : Option α → α} (hlt : name < name')
    (hc : Faithful nameOf name change) (hc' : Faithful nameOf name' change') :
    amend nameOf name change (amend nameOf name' change' items)
      = amend nameOf name' change' (amend nameOf name change items) := by
  have hmade : ∀ rest, amend nameOf name' change' (change none :: rest)
      = change none :: amend nameOf name' change' rest := fun rest =>
    amend_cons_of_lt (by rw [hc.made]; exact hlt)
  have hmade' : ∀ rest, amend nameOf name change (change' none :: rest)
      = change none :: change' none :: rest := fun rest =>
    amend_cons_of_gt (by rw [hc'.made]; exact hlt)
  induction items with
  | nil => rw [amend, hmade', amend, hmade, amend]
  | cons first rest ih =>
    rcases lt_or_eq_or_gt (nameOf first) name with h | h | h
    · have h' : nameOf first < name' := String.lt_trans h hlt
      rw [amend_cons_of_lt h', amend_cons_of_lt h, amend_cons_of_lt h, amend_cons_of_lt h', ih]
    · have h' : nameOf first < name' := h ▸ hlt
      rw [amend_cons_of_lt h', amend_cons_of_eq h, amend_cons_of_eq h,
        amend_cons_of_lt (by rw [hc.changed first h]; exact hlt)]
    · -- the item of the lesser name is new and comes first, whatever is done behind it
      rw [amend_cons_of_gt h, hmade]
      rcases lt_or_eq_or_gt (nameOf first) name' with h' | h' | h'
      · rw [amend_cons_of_lt h', amend_cons_of_gt h]
      · rw [amend_cons_of_eq h', amend_cons_of_gt (by rw [hc'.changed first h']; exact hlt)]
      · rw [amend_cons_of_gt h', hmade']

/-- Changes of different items can be made in any order. -/
theorem amend_comm {name' : String} {change' : Option α → α} (hne : name ≠ name')
    (hc : Faithful nameOf name change) (hc' : Faithful nameOf name' change') :
    amend nameOf name change (amend nameOf name' change' items)
      = amend nameOf name' change' (amend nameOf name change items) := by
  rcases lt_or_eq_or_gt name name' with h | h | h
  · exact amend_comm_of_lt h hc hc'
  · exact absurd h hne
  · exact (amend_comm_of_lt h hc' hc).symm

end Telemetry.Sorted
