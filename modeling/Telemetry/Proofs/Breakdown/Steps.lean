import Telemetry.Proofs.Breakdown.Percentile
import Telemetry.Proofs.Breakdown.Sieve
import Telemetry.Proofs.Breakdown.Totals

/-!
# Everything that can be done to a store

A store begins without nodes and is changed step by step: nodes are made and hung below each other,
values are added and offered, and passes walk over what is below a node. Nothing is assumed of the
handles, so steps may come in any order and nodes may be shared.

An entry is made by its name and changed in seven ways, wherever its node hangs. So what is kept by
these is kept by every step (`Lasting.apply`), and holds of all entries after any number of them
(`Lasting.all_run`). Reservoirs hold as much as they can of what they were offered
(`lasting_sampled`).
-/

namespace Telemetry

variable {α : Type}

/-- Something holds of all entries of a tree. -/
inductive Tree.All (P : Entry α → Prop) : Tree α → Prop where
  | node {entry : Entry α} {children : List (Tree α)} (top : P entry)
      (below : ∀ child ∈ children, Tree.All P child) : Tree.All P (.node entry children)

namespace Store

/-! ## Steps -/

/-- What can be done to a store. -/
inductive Step (α : Type) where
  | create (name : String)
  | childOrNew (h : Handle) (name : String)
  | attach (h child : Handle)
  | increment (h : Handle) (value : α) (count : Int64)
  | set (h : Handle) (value : α)
  | observe (h : Handle) (value : α) (slot : Nat)
  | evaluate (h : Handle)
  | rollup (h : Handle)
  | filter (F : Filter α) (h : Handle)
  | percentOf (total : α) (h : Handle)
  | scale (factor : α) (h : Handle)
  | average (windows : α) (h : Handle)
  | clone (h : Handle)

section Steps

variable [Quantity α]

/-- The store after a step. -/
def Step.apply (s : Store α) : Step α → Store α
  | .create name => (s.create name).2
  | .childOrNew h name => (s.childOrNew h name).2
  | .attach h child => s.attach h child
  | .increment h value count => s.modifyEntry h (·.increment value count)
  | .set h value => s.modifyEntry h (·.set value)
  | .observe h value slot => s.modifyEntry h (·.observe value slot)
  | .evaluate h => s.map Entry.evaluate h
  | .rollup h => s.rollup h
  | .filter F h => F.run h s
  | .percentOf total h => s.map (Entry.percentOf total) h
  | .scale factor h => s.map (Entry.scale factor) h
  | .average windows h => s.map (Entry.average windows) h
  | .clone h => (s.clone? h).elim s Prod.snd

/-- The store after some steps. -/
def run (steps : List (Step α)) : Store α := steps.foldl Step.apply {}

end Steps

/-! ## What holds of all entries -/

/-- Something holds of the entries of all nodes. -/
def All (P : Entry α → Prop) (s : Store α) : Prop :=
  ∀ n cell, s.cell? n = some cell → P cell.entry

/-- What holds of new entries and is kept by all changes. -/
structure Lasting [Quantity α] (P : Entry α → Prop) : Prop where
  fresh : ∀ name, P (.fresh name)
  increment : ∀ {entry}, P entry → ∀ value count, P (entry.increment value count)
  set : ∀ {entry}, P entry → ∀ value, P (entry.set value)
  observe : ∀ {entry}, P entry → ∀ value slot, P (entry.observe value slot)
  evaluate : ∀ {entry}, P entry → P entry.evaluate
  percentOf : ∀ {entry}, P entry → ∀ total, P (entry.percentOf total)
  scale : ∀ {entry}, P entry → ∀ factor, P (entry.scale factor)
  average : ∀ {entry}, P entry → ∀ windows, P (entry.average windows)

section Keeping

variable {P : Entry α → Prop} {s : Store α}

/-- A cell that is replaced is the only one that can bring in another entry. -/
theorem All.put (hall : s.All P) (h : Handle) {cell : Cell α} (hcell : P cell.entry) :
    (s.put h cell).All P := by
  intro n found hfound
  by_cases hn : n = h
  · have hlt := lt_size_of_cell? hfound
    rw [size_put, hn] at hlt
    rw [hn, cell?, Store.put, Array.getElem?_setIfInBounds_self_of_lt hlt] at hfound
    obtain rfl := Option.some.inj hfound
    exact hcell
  · rw [cell?_put_of_ne s cell hn] at hfound
    exact hall n found hfound

/-- One cell is changed, and all others hold what they held. -/
theorem All.modify (hall : s.All P) (h : Handle) {f : Cell α → Cell α}
    (hf : ∀ cell, P cell.entry → P (f cell).entry) : (s.modify h f).All P := by
  intro n found hfound
  by_cases hn : h = n
  · rw [← hn, cell?_modify_self] at hfound
    obtain ⟨cell, hcell, rfl⟩ := Option.map_eq_some_iff.mp hfound
    exact hf cell (hall h cell hcell)
  · rw [cell?_modify_of_ne s f hn] at hfound
    exact hall n found hfound

theorem All.modifyEntry (hall : s.All P) (h : Handle) {f : Entry α → Entry α}
    (hf : ∀ {entry}, P entry → P (f entry)) : (s.modifyEntry h f).All P :=
  hall.modify h fun _ hcell => hf hcell

/-- A new node stands behind all others, which are as they were. -/
theorem All.allocate (hall : s.All P) {cell : Cell α} (hcell : P cell.entry) :
    (s.allocate cell).2.All P := by
  intro n found hfound
  rw [Store.allocate, cell?, Array.getElem?_push] at hfound
  split at hfound
  · obtain rfl := Option.some.inj hfound
    exact hcell
  · exact hall n found hfound

/-- A walk may come to a node more than once, so the change has to keep what holds each time. -/
theorem All.map (hall : s.All P) {f : Entry α → Entry α} (hf : ∀ {entry}, P entry → P (f entry))
    (h : Handle) : (s.map f h).All P := by
  refine walk_induction (motive := fun s s' => s.All P → s'.All P) (fun _ hall => hall)
    (fun h h' hall => h' (h hall)) ?_ s.size 0 h s hall
  intro s level h cell hcell hall
  exact hall.put h (hf (hall h cell hcell))

/-- To hang a node below another one changes no entry. -/
theorem All.attach (hall : s.All P) (h child : Handle) : (s.attach h child).All P := by
  rw [Store.attach]
  split
  · exact hall.modify h fun _ hcell => hcell
  · exact hall

/-- A filter unties nodes, but leaves their entries as they are. -/
theorem All.filter [Quantity α] (hall : s.All P) (F : Filter α) (h : Handle) :
    (F.run h s).All P := by
  intro n found hfound
  obtain ⟨cell, hcell, hentry, -⟩ := F.thinner_run h s n found hfound
  rw [hentry]
  exact hall n cell hcell

/-- Children are added to their parents by increments, one after the other. -/
theorem All.rollupWithin [Quantity α] (hall : s.All P)
    (hf : ∀ {entry}, P entry → ∀ value count, P (entry.increment value count)) (levels : Nat)
    (h : Handle) : (s.rollupWithin levels h).All P := by
  induction levels generalizing h s with
  | zero => exact hall
  | succ levels ih =>
    cases hcell : s.cell? h with
    | none =>
      rw [Store.rollupWithin, hcell]
      exact hall
    | some cell =>
      rw [rollupWithin_succ_of_cell? hcell]
      refine List.foldlRecOn (motive := fun s : Store α => s.All P) cell.children _ hall ?_
      intro s hall link _
      rw [addChild]
      split
      · exact (ih hall link.2).modifyEntry h fun hentry => hf hentry _ _
      · exact ih hall link.2

/-- Each result of a list of attempts is that of one of its items. -/
theorem exists_of_mem_mapM {β γ : Type} {f : β → Option γ} {items : List β} {results : List γ}
    (h : items.mapM f = some results) : ∀ r ∈ results, ∃ item ∈ items, f item = some r := by
  induction items generalizing results with
  | nil =>
    obtain rfl := Option.some.inj h
    intro r hr
    cases hr
  | cons item rest ih =>
    rw [List.mapM_cons] at h
    obtain ⟨first, hfirst, h⟩ := Option.bind_eq_some_iff.mp h
    obtain ⟨others, hothers, h⟩ := Option.bind_eq_some_iff.mp h
    obtain rfl := Option.some.inj h
    refine List.forall_mem_cons.mpr ⟨⟨item, List.mem_cons_self, hfirst⟩, fun r hr => ?_⟩
    obtain ⟨found, hfound, hr⟩ := ih hothers r hr
    exact ⟨found, List.mem_cons_of_mem item hfound, hr⟩

/-- A tree that is read off a store holds entries of the store. -/
theorem All.treeWithin? (hall : s.All P) {levels : Nat} {h : Handle} {t : Tree α}
    (ht : s.treeWithin? levels h = some t) : t.All P := by
  induction levels generalizing h t with
  | zero => cases ht
  | succ levels ih =>
    rw [Store.treeWithin?] at ht
    obtain ⟨cell, hcell, ht⟩ := Option.bind_eq_some_iff.mp ht
    obtain ⟨children, hchildren, ht⟩ := Option.bind_eq_some_iff.mp ht
    obtain rfl := Option.some.inj ht
    refine .node (hall h cell hcell) fun child hchild => ?_
    obtain ⟨link, -, hlink⟩ := exists_of_mem_mapM hchildren child hchild
    exact ih hlink

/-- Trees are planted one after the other, each into the store that the one before has left. -/
theorem All.plantAll {trees : List (Tree α)} (hall : s.All P)
    (hplant : ∀ t ∈ trees, ∀ s : Store α, s.All P → (s.plant t).2.All P) :
    (s.plantAll trees).2.All P := by
  induction trees generalizing s with
  | nil =>
    rw [Store.plantAll]
    exact hall
  | cons t rest ih =>
    obtain ⟨ht, hrest⟩ := List.forall_mem_cons.mp hplant
    rw [Store.plantAll]
    exact ih (ht s hall) hrest

/-- A tree that is planted brings in its own entries and no others. -/
theorem All.plant {t : Tree α} (ht : t.All P) (hall : s.All P) : (s.plant t).2.All P := by
  induction t using Tree.induction generalizing s with
  | node entry children ih =>
    cases ht with
    | node top below =>
      rw [Store.plant]
      refine All.allocate (hall.plantAll fun child hchild s hs => ?_) top
      exact ih child hchild (below child hchild) hs

/-- The copy of a node is planted from what is read off it. -/
theorem All.clone? (hall : s.All P) (h : Handle) :
    ((s.clone? h).elim s Prod.snd).All P := by
  rw [Store.clone?]
  cases ht : s.tree? h with
  | none => exact hall
  | some t => exact All.plant (hall.treeWithin? ht) hall

end Keeping

/-! ## What holds after all steps -/

section Running

variable [Quantity α] {P : Entry α → Prop}

/-- What new entries have, and changes keep, every step keeps. A case per step names the change it
makes. -/
theorem Lasting.apply (hP : Lasting P) {s : Store α} (hall : s.All P) (step : Step α) :
    (step.apply s).All P := by
  cases step with
  | create name => exact hall.allocate (hP.fresh name)
  | childOrNew h name =>
    simp only [Step.apply, childOrNew]
    split
    · exact hall
    · exact (hall.allocate (hP.fresh name)).attach h _
  | attach h child => exact hall.attach h child
  | increment h value count => exact hall.modifyEntry h fun hentry => hP.increment hentry value count
  | set h value => exact hall.modifyEntry h fun hentry => hP.set hentry value
  | observe h value slot => exact hall.modifyEntry h fun hentry => hP.observe hentry value slot
  | evaluate h => exact hall.map hP.evaluate h
  | rollup h => exact hall.rollupWithin hP.increment s.size h
  | filter F h => exact hall.filter F h
  | percentOf total h => exact hall.map (fun hentry => hP.percentOf hentry total) h
  | scale factor h => exact hall.map (fun hentry => hP.scale hentry factor) h
  | average windows h => exact hall.map (fun hentry => hP.average hentry windows) h
  | clone h => exact hall.clone? h

/-- So it holds of all entries after any number of steps. -/
theorem Lasting.all_run (hP : Lasting P) (steps : List (Step α)) : (run steps).All P := by
  refine List.foldlRecOn (motive := fun s : Store α => s.All P) steps _ ?_ ?_
  · intro n cell hcell
    cases hcell
  · intro s hall step _
    exact hP.apply hall step

/-- Reservoirs hold as much as they can of what they were offered. -/
theorem lasting_sampled : Lasting (Entry.Sampled : Entry α → Prop) where
  fresh _ := rfl
  increment h _ _ := h
  set h _ := h
  percentOf h _ := h
  scale h _ := h
  average h _ := h
  observe := by
    intro entry h value slot
    rw [Entry.Sampled] at h ⊢
    rw [Entry.observe, Reservoir.size_offer, Reservoir.offered_offer, h]
    split <;> omega
  evaluate := by
    intro entry h
    cases hvalue : entry.reservoir.percentile? with
    | none =>
      rw [Entry.evaluate_of_none hvalue]
      exact h
    | some value =>
      rw [Entry.evaluate_of_percentile? hvalue]
      rfl

end Running

end Store

end Telemetry
