import Mathlib.Logic.Relation
import Telemetry.Proofs.Breakdown.Filed
import Telemetry.Proofs.Breakdown.Steps

/-!
# What a step can do

Whatever is done to a store comes down to three edits: a node is changed, which leaves it its name
and gives it no children; a node is put below another, under its own name; a node is made
(`Edit`). `Step.edits` says of every step that it is a series of edits, and in which region they are
made: if no link leads out of a region, a step that is given nodes of the region stays inside.

So what a single edit keeps is kept by all steps. Children stay where their names belong and links do
not come to lead out of a region (`Edit.sound`), no node loses its name (`Edit.name?`), and what is
outside is not touched (`Edit.outside`).
-/

namespace Telemetry.Store

variable {α : Type}

/-! ## Regions -/

/-- A store in which all children are filed, and a region out of which no link leads and to which
every node belongs that is yet to be made. -/
structure Sound (R : Handle → Prop) (s : Store α) : Prop where
  filed : s.Filed
  closed : ∀ n cell, R n → s.cell? n = some cell → ∀ link ∈ cell.children, R link.2
  spacious : ∀ n : Handle, s.size ≤ n.index → R n

/-- The least that can be done to a store inside a region. -/
inductive Edit (R : Handle → Prop) (s : Store α) : Store α → Prop where
  /-- a node is changed or loses children -/
  | change {h : Handle} {cell cell' : Cell α} (found : s.cell? h = some cell) (inside : R h)
      (name : cell'.entry.name = cell.entry.name)
      (fewer : cell'.children.Sublist cell.children) : Edit R s (s.put h cell')
  /-- a node is put below another -/
  | attach {h child : Handle} {cell : Cell α} {name : String} (found : s.cell? h = some cell)
      (inside : R h) (named : s.name? child = some name) (insideToo : R child) :
      Edit R s (s.put h
        { cell with children := Sorted.put Prod.fst (name, child) cell.children })
  /-- a node is made -/
  | create {cell : Cell α} (inside : R ⟨s.size⟩) (filed : s.FiledCell cell)
      (links : ∀ link ∈ cell.children, R link.2) : Edit R s (s.allocate cell).2

/-- A series of edits. -/
abbrev Edits (R : Handle → Prop) : Store α → Store α → Prop := Relation.ReflTransGen (Edit R)

/-! ## What an edit keeps -/

section Keeping

variable {R : Handle → Prop} {s s' : Store α}

/-- No node loses its name. -/
theorem Edit.name? (edit : Edit R s s') {n : Handle} {name : String}
    (hn : s.name? n = some name) : s'.name? n = some name := by
  cases edit with
  | change found _ hname _ =>
    rw [name?_put found hname]
    exact hn
  | @attach h child cell name found _ _ _ =>
    have hname : ({ cell with children := Sorted.put Prod.fst (name, child) cell.children }
        : Cell α).entry.name = cell.entry.name := rfl
    rw [name?_put found hname]
    exact hn
  | @create cell _ _ _ =>
    have hcell := cell?_allocate_of_lt s cell (lt_size_of_name? hn)
    rw [Store.name?, entry?_eq, hcell]
    exact hn

/-- An edit writes nowhere but in the region it was given. -/
theorem Edit.outside (edit : Edit R s s') {n : Handle} (hn : ¬ R n) : s'.cell? n = s.cell? n := by
  cases edit with
  | change _ inside _ _ => exact cell?_put_of_ne s _ fun heq => hn (heq ▸ inside)
  | attach _ inside _ _ => exact cell?_put_of_ne s _ fun heq => hn (heq ▸ inside)
  | @create cell inside _ _ =>
    have hne : n.index ≠ s.cells.size := by
      obtain ⟨index⟩ := n
      rintro rfl
      exact hn inside
    rw [Store.allocate, cell?, Array.getElem?_push, if_neg hne]
    rfl

theorem Edit.size_le (edit : Edit R s s') : s.size ≤ s'.size := by
  cases edit with
  | change _ _ _ _ => exact Nat.le_of_eq (size_put s _ _).symm
  | attach _ _ _ _ => exact Nat.le_of_eq (size_put s _ _).symm
  | @create cell _ _ _ =>
    rw [size_allocate]
    exact Nat.le_succ _

/-- A cell that appears where there was none is the one just allocated. -/
theorem eq_of_not_lt_size {cell cell' : Cell α} {n : Handle} (hn : ¬ n.index < s.size)
    (hcell' : (s.allocate cell).2.cell? n = some cell') : n = ⟨s.size⟩ ∧ cell' = cell := by
  have hlt := lt_size_of_cell? hcell'
  rw [size_allocate] at hlt
  obtain rfl : n = ⟨s.size⟩ := by
    obtain ⟨index⟩ := n
    rw [Handle.mk.injEq]
    exact Nat.le_antisymm (Nat.le_of_lt_succ hlt) (Nat.not_lt.mp hn)
  have hnew := cell?_allocate_self s cell
  exact ⟨rfl, Option.some.inj (hcell'.symm.trans hnew)⟩

/-- A cell is as it was before an edit, or it is inside and as it should be. -/
theorem Edit.cell_cases (edit : Edit R s s') (sound : s.Sound R) {n : Handle} {cell' : Cell α}
    (hcell' : s'.cell? n = some cell') :
    s.cell? n = some cell' ∨ s.FiledCell cell' ∧ ∀ link ∈ cell'.children, R link.2 := by
  cases edit with
  | @change h cell new found inside _ fewer =>
    by_cases hn : n = h
    · rw [hn, cell?_put_self found] at hcell'
      obtain rfl := Option.some.inj hcell'
      refine .inr ⟨(sound.filed h cell found).sublist fewer, fun link hmem => ?_⟩
      exact sound.closed h cell inside found link (fewer.subset hmem)
    · rw [cell?_put_of_ne s new hn] at hcell'
      exact .inl hcell'
  | @attach h child cell name found inside named insideToo =>
    by_cases hn : n = h
    · rw [hn, cell?_put_self found] at hcell'
      obtain rfl := Option.some.inj hcell'
      refine .inr ⟨(sound.filed h cell found).put named, fun link hmem => ?_⟩
      rcases mem_put_links hmem with hold | rfl
      · exact sound.closed h cell inside found link hold
      · exact insideToo
    · rw [cell?_put_of_ne s _ hn] at hcell'
      exact .inl hcell'
  | @create cell inside filed links =>
    by_cases hn : n.index < s.size
    · rw [cell?_allocate_of_lt s cell hn] at hcell'
      exact .inl hcell'
    · obtain ⟨-, rfl⟩ := eq_of_not_lt_size hn hcell'
      exact .inr ⟨filed, links⟩

/-- What every operation rests on: an edit leaves every node filed under its own name, and no edge
leads out of the region. -/
theorem Edit.sound (edit : Edit R s s') (sound : s.Sound R) : s'.Sound R where
  filed := by
    have hname : ∀ n name, s.name? n = some name → s'.name? n = some name :=
      fun _ _ hn => edit.name? hn
    intro n cell' hcell'
    rcases edit.cell_cases sound hcell' with hold | ⟨hnew, -⟩
    · exact (sound.filed n cell' hold).mono hname
    · exact hnew.mono hname
  closed := by
    intro n cell' hn hcell'
    rcases edit.cell_cases sound hcell' with hold | ⟨-, hlinks⟩
    · exact sound.closed n cell' hn hold
    · exact hlinks
  spacious n hn := sound.spacious n (Nat.le_trans edit.size_le hn)

/-! ## Series of edits -/

/-- By induction over the edits, from `Edit.sound`. -/
theorem Edits.sound (edits : Edits R s s') (sound : s.Sound R) : s'.Sound R := by
  induction edits with
  | refl => exact sound
  | tail _ edit ih => exact edit.sound ih

/-- A name, once given, is there for good. -/
theorem Edits.name? (edits : Edits R s s') {n : Handle} {name : String}
    (hn : s.name? n = some name) : s'.name? n = some name := by
  induction edits with
  | refl => exact hn
  | tail _ edit ih => exact edit.name? ih

theorem Edits.outside (edits : Edits R s s') {n : Handle} (hn : ¬ R n) :
    s'.cell? n = s.cell? n := by
  induction edits with
  | refl => rfl
  | tail _ edit ih => exact (edit.outside hn).trans ih

theorem Edits.size_le (edits : Edits R s s') : s.size ≤ s'.size := by
  induction edits with
  | refl => exact Nat.le_refl _
  | tail _ edit ih => exact Nat.le_trans ih edit.size_le

/-- A loop edits the store if every round of it does, from wherever the rounds before it have led.
-/
theorem edits_foldl {β : Type} (visit : Store α → β → Store α) (items : List β)
    (hvisit : ∀ item ∈ items, ∀ s : Store α, s.Sound R → Edits R s (visit s item))
    (sound : s.Sound R) : Edits R s (items.foldl visit s) := by
  induction items generalizing s with
  | nil => exact .refl
  | cons item rest ih =>
    obtain ⟨hitem, hrest⟩ := List.forall_mem_cons.mp hvisit
    have hfirst := hitem s sound
    exact hfirst.trans (ih hrest (hfirst.sound sound))

/-! ## Entries -/

theorem modify_of_cell? {h : Handle} {cell : Cell α} (hcell : s.cell? h = some cell)
    (f : Cell α → Cell α) : s.modify h f = s.put h (f cell) := by
  refine ext fun n => ?_
  by_cases hn : n = h
  · rw [hn, cell?_put_self hcell, cell?_modify_self, hcell, Option.map_some]
  · rw [cell?_put_of_ne s _ hn, cell?_modify_of_ne s _ (Ne.symm hn)]

/-- A handle that leads nowhere changes nothing. -/
theorem modify_of_none {h : Handle} (hcell : s.cell? h = none) (f : Cell α → Cell α) :
    s.modify h f = s := by
  refine ext fun n => ?_
  by_cases hn : n = h
  · rw [hn, cell?_modify_self, hcell, Option.map_none]
  · rw [cell?_modify_of_ne s f (Ne.symm hn)]

/-- Any change of an entry that keeps its name is an edit. -/
theorem edits_modifyEntry {h : Handle} (inside : R h) {f : Entry α → Entry α}
    (hname : ∀ entry, (f entry).name = entry.name) : Edits R s (s.modifyEntry h f) := by
  rw [modifyEntry]
  cases hcell : s.cell? h with
  | none => rw [modify_of_none hcell]
  | some cell =>
    rw [modify_of_cell? hcell]
    exact .single (.change hcell inside (hname cell.entry) (List.Sublist.refl _))

/-! ## Walks -/

/-- A walk that leaves nodes their names and gives them no children stays inside. -/
theorem edits_walk {edit : Store α → Nat → Cell α → Cell α}
    (hname : ∀ s level cell, (edit s level cell).entry.name = cell.entry.name)
    (hfewer : ∀ s level cell, (edit s level cell).children.Sublist cell.children)
    (levels level : Nat) {h : Handle} (inside : R h) (sound : s.Sound R) :
    Edits R s (walk edit levels level h s) := by
  induction levels generalizing level h s with
  | zero => exact .refl
  | succ levels ih =>
    cases hcell : s.cell? h with
    | none => rw [walk, hcell]
    | some cell =>
      rw [walk_succ_of_cell? hcell]
      have hput := Edit.change hcell inside (hname s level cell) (hfewer s level cell)
      refine .head hput (edits_foldl _ _ (fun link hmem s hs => ?_) (hput.sound sound))
      have hlink := sound.closed h cell inside hcell link ((hfewer _ level cell).subset hmem)
      exact ih (level + 1) hlink hs

theorem edits_map {f : Entry α → Entry α} (hname : ∀ entry, (f entry).name = entry.name)
    {h : Handle} (inside : R h) (sound : s.Sound R) : Edits R s (s.map f h) := by
  rw [map]
  refine edits_walk ?_ ?_ s.size 0 inside sound
  · exact fun _ _ cell => hname cell.entry
  · exact fun _ _ cell => List.Sublist.refl cell.children

/-- A filter goes wherever a walk goes, and only takes children away. -/
theorem edits_filter [Quantity α] (F : Filter α) {h : Handle} (inside : R h) (sound : s.Sound R) :
    Edits R s (F.run h s) := by
  obtain ⟨levels, -, hrun⟩ := F.run_eq h s
  rw [hrun]
  exact edits_walk (fun s level cell => congrArg Entry.name (entry_sift F.keeps s level cell))
    (children_sift F.keeps) levels 0 inside sound

/-- Rolling up writes entries, and goes down to the children before it writes. -/
theorem edits_rollupWithin [Quantity α] (levels : Nat) {h : Handle} (inside : R h)
    (sound : s.Sound R) : Edits R s (rollupWithin levels h s) := by
  induction levels generalizing h s with
  | zero => exact .refl
  | succ levels ih =>
    cases hcell : s.cell? h with
    | none => rw [rollupWithin, hcell]
    | some cell =>
      rw [rollupWithin_succ_of_cell? hcell]
      refine edits_foldl _ _ (fun link hmem s' hs' => ?_) sound
      have hdown := ih (sound.closed h cell inside hcell link hmem) hs'
      rw [addChild]
      split
      · exact hdown.trans (edits_modifyEntry inside fun entry => Entry.name_increment entry _ _)
      · exact hdown

/-! ## New nodes and new links -/

/-- Both ends of a new edge have to be in the region. -/
theorem edits_attach {h child : Handle} (inside : R h) (insideToo : R child) :
    Edits R s (s.attach h child) := by
  rw [Store.attach]
  split
  · rename_i entry hentry
    cases hcell : s.cell? h with
    | none => rw [modify_of_none hcell]
    | some cell =>
      have hname : s.name? child = some entry.name := by
        rw [Store.name?, hentry, Option.map_some]
      rw [modify_of_cell? hcell]
      exact .single (.attach hcell inside hname insideToo)
  · exact .refl

/-- A node that has been made on its own is inside. -/
theorem edits_create [Quantity α] (sound : s.Sound R) (name : String) :
    Edits R s (s.create name).2 ∧ R (s.create name).1 := by
  have inside : R ⟨s.size⟩ := sound.spacious ⟨s.size⟩ (Nat.le_refl _)
  have filed : s.FiledCell { entry := Entry.fresh name, children := [] } :=
    ⟨List.Pairwise.nil, List.forall_mem_nil _⟩
  exact ⟨.single (.create inside filed (List.forall_mem_nil _)), inside⟩

/-- A child that is found costs nothing; a new one is created and then attached. -/
theorem edits_childOrNew [Quantity α] {h : Handle} (inside : R h) (sound : s.Sound R)
    (name : String) : Edits R s (s.childOrNew h name).2 := by
  rw [Store.childOrNew]
  split
  · exact .refl
  · obtain ⟨hmade, hinside⟩ := edits_create sound name
    exact hmade.trans (edits_attach inside hinside)

/-- Trees have been planted in a region, each under the name of its top. -/
structure Planted (R : Handle → Prop) (s : Store α) (trees : List (Tree α))
    (links : List (String × Handle)) (s' : Store α) : Prop where
  edits : Edits R s s'
  names : links.map Prod.fst = trees.map Tree.name
  named : ∀ link ∈ links, s'.name? link.2 = some link.1
  inside : ∀ link ∈ links, R link.2

/-- Planting trees side by side, each after the others, keeps what was planted before. -/
theorem planted_plantAll {trees : List (Tree α)}
    (hplant : ∀ t ∈ trees, ∀ s : Store α, s.Sound R →
      Edits R s (s.plant t).2 ∧ (s.plant t).2.name? (s.plant t).1 = some t.name ∧ R (s.plant t).1)
    (sound : s.Sound R) : Planted R s trees (s.plantAll trees).1 (s.plantAll trees).2 := by
  induction trees generalizing s with
  | nil =>
    rw [Store.plantAll]
    exact ⟨.refl, rfl, List.forall_mem_nil _, List.forall_mem_nil _⟩
  | cons t rest ih =>
    obtain ⟨ht, hrest⟩ := List.forall_mem_cons.mp hplant
    obtain ⟨hedits, hname, hinside⟩ := ht s sound
    obtain ⟨hedits', hnames, hnamed, hinsides⟩ := ih hrest (hedits.sound sound)
    rw [Store.plantAll]
    refine ⟨hedits.trans hedits', ?_, ?_, ?_⟩
    · rw [List.map_cons, List.map_cons, hnames]
    · exact List.forall_mem_cons.mpr ⟨hedits'.name? hname, hnamed⟩
    · exact List.forall_mem_cons.mpr ⟨hinside, hinsides⟩

/-- A tree whose children ascend is planted inside, from the leaves up. -/
theorem edits_plant {t : Tree α} (ordered : t.Ordered) (sound : s.Sound R) :
    Edits R s (s.plant t).2 ∧ (s.plant t).2.name? (s.plant t).1 = some t.name ∧
      R (s.plant t).1 := by
  induction t using Tree.induction generalizing s with
  | node entry children ih =>
    obtain ⟨hedits, hnames, hnamed, hinside⟩ := planted_plantAll
      (fun child hchild s hs => ih child hchild (ordered.of_mem hchild) hs) sound
    have hsound := hedits.sound sound
    have hascending : Sorted.Ascending Prod.fst (s.plantAll children).1 := by
      have hascending := ordered.ascending
      rw [Sorted.Ascending, ← List.pairwise_map] at hascending ⊢
      rw [hnames]
      exact hascending
    have inside := hsound.spacious ⟨(s.plantAll children).2.size⟩ (Nat.le_refl _)
    rw [Store.plant]
    refine ⟨hedits.tail (.create inside ⟨hascending, hnamed⟩ hinside), ?_, inside⟩
    exact name?_of_cell? (cell?_allocate_self _ _)

/-- A copy is planted beside everything else. -/
theorem edits_clone (sound : s.Sound R) (h : Handle) :
    Edits R s ((s.clone? h).elim s Prod.snd) := by
  rw [Store.clone?]
  cases ht : s.tree? h with
  | none => exact .refl
  | some t =>
    obtain ⟨nodes, view⟩ := sound.filed.exists_shows ht
    exact (edits_plant (sound.filed.ordered view) sound).1

end Keeping

/-! ## Steps -/

/-- The nodes that a step is given to change. -/
def Step.handles : Step α → List Handle
  | .create _ | .clone _ => []
  | .attach h child => [h, child]
  | .childOrNew h _ | .increment h _ _ | .set h _ | .observe h _ _ | .evaluate h | .rollup h
  | .filter _ h | .percentOf _ h | .scale _ h | .average _ h => [h]

section Running

variable [Quantity α] {R : Handle → Prop}

/-- Every step is a series of edits in the region of the nodes that it is given. -/
theorem Step.edits {s : Store α} (sound : s.Sound R) (step : Step α)
    (given : ∀ n ∈ step.handles, R n) : Edits R s (step.apply s) := by
  cases step with
  | create name => exact (edits_create sound name).1
  | clone h => exact edits_clone sound h
  | attach h child =>
    obtain ⟨inside, hrest⟩ := List.forall_mem_cons.mp given
    exact edits_attach inside (List.forall_mem_singleton.mp hrest)
  | childOrNew h name => exact edits_childOrNew (List.forall_mem_singleton.mp given) sound name
  | increment h value count =>
    exact edits_modifyEntry (List.forall_mem_singleton.mp given) fun entry =>
      Entry.name_increment entry value count
  | set h value =>
    exact edits_modifyEntry (List.forall_mem_singleton.mp given) fun entry =>
      Entry.name_set entry value
  | observe h value slot =>
    exact edits_modifyEntry (List.forall_mem_singleton.mp given) fun entry =>
      Entry.name_observe entry value slot
  | evaluate h => exact edits_map Entry.name_evaluate (List.forall_mem_singleton.mp given) sound
  | rollup h => exact edits_rollupWithin s.size (List.forall_mem_singleton.mp given) sound
  | filter F h => exact edits_filter F (List.forall_mem_singleton.mp given) sound
  | percentOf total h =>
    exact edits_map (Entry.name_percentOf total) (List.forall_mem_singleton.mp given) sound
  | scale factor h =>
    exact edits_map (Entry.name_scale factor) (List.forall_mem_singleton.mp given) sound
  | average windows h =>
    exact edits_map (Entry.name_average windows) (List.forall_mem_singleton.mp given) sound

/-- No step of a program, whatever its handles are, leaves a node filed under a wrong name. -/
theorem sound_run (steps : List (Step α)) : (run steps).Sound fun _ => True := by
  refine List.foldlRecOn (motive := fun s : Store α => s.Sound fun _ => True) steps _ ?_ ?_
  · refine ⟨fun n cell hcell => ?_, fun _ _ _ _ _ _ => trivial, fun _ _ => trivial⟩
    cases hcell
  · intro s sound step _
    exact (step.edits sound fun _ _ => trivial).sound sound

/-- After any steps all children are stored under their own names. -/
theorem filed_run (steps : List (Step α)) : (run steps).Filed := (sound_run steps).filed

end Running

end Telemetry.Store
