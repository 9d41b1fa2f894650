import Telemetry.Proofs.Breakdown.Apart
import Telemetry.Proofs.Breakdown.Evaluation

/-!
# Copies of trees

To copy what is below a node is to plant its tree anew: every node of the tree gets a cell of its own,
with the entry that it has, and no other cell is touched (`shows_plant`). The cells are new, so no
node that was there leads to one of them, and they lead to no others.

From then on the two trees have nothing to do with each other (`Shows.clone_independent`). Whatever
is done to nodes of the one leaves the other as it is, in whatever turns, as long as no step is given
a node that leads to both.
-/

namespace Telemetry.Store

variable {α : Type}

/-! ## Planting -/

/-- A store has been extended by these nodes, and nothing else has been done to it. -/
structure Extends (s s' : Store α) (nodes : List Handle) : Prop where
  single : nodes.Nodup
  mem_iff : ∀ n, n ∈ nodes ↔ s.size ≤ n.index ∧ n.index < s'.size
  same : ∀ n : Handle, n.index < s.size → s'.cell? n = s.cell? n
  larger : s.size ≤ s'.size

section Planting

variable {s s' s'' : Store α} {nodes nodes' : List Handle}

theorem Extends.refl (s : Store α) : Extends s s [] := by
  refine ⟨List.nodup_nil, fun n => ⟨fun hn => absurd hn List.not_mem_nil, ?_⟩, fun _ _ => rfl,
    Nat.le_refl _⟩
  rintro ⟨hle, hlt⟩
  exact absurd hlt (Nat.not_lt.mpr hle)

/-- Growing twice adds the nodes of both times, and they are not the same ones. -/
theorem Extends.append (h : Extends s s' nodes) (h' : Extends s' s'' nodes') :
    Extends s s'' (nodes ++ nodes') where
  single := by
    refine List.nodup_append.mpr ⟨h.single, h'.single, ?_⟩
    rintro n hn m hm rfl
    exact Nat.not_lt.mpr ((h'.mem_iff n).mp hm).1 ((h.mem_iff n).mp hn).2
  mem_iff n := by
    have hlarger := h.larger
    have hlarger' := h'.larger
    rw [List.mem_append, h.mem_iff, h'.mem_iff]
    omega
  same n hn := by
    rw [h'.same n (Nat.lt_of_lt_of_le hn h.larger), h.same n hn]
  larger := Nat.le_trans h.larger h'.larger

theorem Extends.perm (h : Extends s s' nodes) (hperm : nodes.Perm nodes') :
    Extends s s' nodes' :=
  ⟨hperm.nodup_iff.mp h.single, fun n => by rw [← hperm.mem_iff, h.mem_iff], h.same, h.larger⟩

/-- A new cell is at a handle that was not in use. -/
theorem extends_allocate (s : Store α) (cell : Cell α) :
    Extends s (s.allocate cell).2 [(s.allocate cell).1] := by
  refine ⟨List.nodup_singleton _, fun n => ?_, fun n hn => cell?_allocate_of_lt s cell hn, ?_⟩
  · obtain ⟨index⟩ := n
    rw [List.mem_singleton, size_allocate, allocate, Handle.mk.injEq]
    change index = s.size ↔ s.size ≤ index ∧ index < s.size + 1
    omega
  · rw [size_allocate]
    exact Nat.le_succ _

/-- What was to be seen is to be seen still. -/
theorem Shows.of_extends {h : Handle} {t : Tree α} {below : List Handle} (view : s.Shows h t below)
    (hextends : Extends s s' nodes) : s'.Shows h t below :=
  view.frame fun n hn => hextends.same n (view.lt_size hn)

/-- Trees planted one after the other are all shown, each by nodes of its own. -/
theorem shows_plantAll {trees : List (Tree α)}
    (hplant : ∀ t ∈ trees, ∀ s : Store α, ∃ nodes,
      (s.plant t).2.Shows (s.plant t).1 t nodes ∧ Extends s (s.plant t).2 nodes) :
    ∃ parts : List (Part α), parts.map Part.link = (s.plantAll trees).1 ∧
      parts.map Part.tree = trees ∧ (s.plantAll trees).2.ShowsAll parts ∧
      Extends s (s.plantAll trees).2 (nodesOf parts) := by
  induction trees generalizing s with
  | nil =>
    rw [plantAll]
    exact ⟨[], rfl, rfl, List.forall_mem_nil _, Extends.refl s⟩
  | cons t rest ih =>
    obtain ⟨ht, hrest⟩ := List.forall_mem_cons.mp hplant
    obtain ⟨nodes, view, hextends⟩ := ht s
    obtain ⟨parts, hlinks, htrees, views, hextends'⟩ := ih hrest
    rw [plantAll]
    refine ⟨⟨(s.plant t).1, t, nodes⟩ :: parts, ?_, ?_, ?_, hextends.append hextends'⟩
    · rw [List.map_cons, hlinks]
      rfl
    · rw [List.map_cons, htrees]
    · exact List.forall_mem_cons.mpr ⟨view.of_extends hextends', views⟩

/-- A tree that has been planted is to be seen, and consists of all the nodes that are new. -/
theorem shows_plant (t : Tree α) (s : Store α) :
    ∃ nodes, (s.plant t).2.Shows (s.plant t).1 t nodes ∧ Extends s (s.plant t).2 nodes := by
  induction t using Tree.induction generalizing s with
  | node entry children ih =>
    obtain ⟨parts, hlinks, rfl, views, hextends⟩ := shows_plantAll ih
    rw [plant]
    generalize s.plantAll (parts.map Part.tree) = planted at *
    obtain ⟨links, s₁⟩ := planted
    obtain rfl : parts.map Part.link = links := hlinks
    have hlast := extends_allocate s₁ { entry, children := parts.map Part.link }
    refine ⟨_, .node (cell?_allocate_self s₁ _) fun p hp => (views p hp).of_extends hlast, ?_⟩
    exact (hextends.append hlast).perm List.perm_append_comm

end Planting

/-! ## Independence -/

section Copying

variable [Quantity α]

/-- A tree and its copy, and what can become of them. -/
structure Copied (s s' : Store α) (h copy : Handle) (t : Tree α) (nodes nodes' : List Handle) :
    Prop where
  /-- the tree is where it was -/
  original : s'.Shows h t nodes
  /-- the copy has the same shape and the same entries -/
  copied : s'.Shows copy t nodes'
  /-- it is made of all nodes that are new, and no node that there was has been touched -/
  new : Extends s s' nodes'
  /-- an evaluation makes the same of both -/
  evaluated : (s'.map Entry.evaluate h).Shows h t.evaluate nodes ∧
    (s'.map Entry.evaluate copy).Shows copy t.evaluate nodes'
  /-- nodes of the copy lead to nodes of the copy, and no others do -/
  closed : ∀ n m, s'.Leads n m → (n ∈ nodes' ↔ m ∈ nodes')
  /-- so no node of the copy leads to the original -/
  disjoint : ∀ n ∈ nodes', ∀ m ∈ nodes, ¬ s'.Leads n m
  /-- whatever is not done to its own nodes leaves the copy as it is -/
  copyStays : ∀ steps : List (Step α), (∀ step ∈ steps, ∀ n ∈ step.handles, n ∉ nodes') →
    ∀ n ∈ nodes', (steps.foldl Step.apply s').cell? n = s'.cell? n
  /-- whatever is not done to nodes that lead to the original leaves it as it is -/
  originalStays : ∀ steps : List (Step α),
    (∀ step ∈ steps, ∀ n ∈ step.handles, ∀ m ∈ nodes, ¬ s'.Leads n m) →
      ∀ n ∈ nodes, (steps.foldl Step.apply s').cell? n = s'.cell? n
  /-- whatever has become of the two in turns, they are apart, and steps that spare one of them touch
  nothing that it leads to -/
  later : ∀ s₁, Turns h copy s' s₁ → s₁.Apart h copy ∧ ∀ s₂,
    (Relation.ReflTransGen (Sparing copy) s₁ s₂ → ∀ n, s₁.Leads copy n → s₂.cell? n = s₁.cell? n) ∧
    (Relation.ReflTransGen (Sparing h) s₁ s₂ → ∀ n, s₁.Leads h n → s₂.cell? n = s₁.cell? n)

section Proving

variable {s s' : Store α} {h copy : Handle} {t : Tree α} {nodes nodes' : List Handle}

omit [Quantity α] in
/-- The new nodes have no parents but each other, and no children but each other. -/
theorem Extends.mem_iff_of_hasChild (hextends : Extends s s' nodes') (filed : s.Filed)
    (view : s'.Shows copy t nodes') {n m : Handle} (hchild : s'.HasChild n m) :
    n ∈ nodes' ↔ m ∈ nodes' := by
  refine ⟨fun hn => view.mem_of_hasChild hn hchild, fun hm => ?_⟩
  obtain ⟨hnew, -⟩ := (hextends.mem_iff m).mp hm
  obtain ⟨cell, hcell, link, hlink, rfl⟩ := hchild
  by_contra hn
  have hold : n.index < s.size := by
    have hlt := lt_size_of_cell? hcell
    rw [hextends.mem_iff] at hn
    omega
  -- the children of a node that was there were there too
  rw [hextends.same n hold] at hcell
  exact Nat.not_lt.mpr hnew (lt_size_of_name? ((filed n cell hcell).named link hlink))

theorem Shows.map_evaluate (view : s.Shows h t nodes) :
    (s.map Entry.evaluate h).Shows h t.evaluate nodes :=
  view.of_altered Entry.name_evaluate
    (view.alters_map Entry.evaluate_evaluate (Partly.refl Entry.evaluate s) rfl).inside

theorem edits_foldl_apply {R : Handle → Prop} (sound : s.Sound R) (steps : List (Step α))
    (given : ∀ step ∈ steps, ∀ n ∈ step.handles, R n) : Edits R s (steps.foldl Step.apply s) :=
  edits_foldl Step.apply steps (fun step hstep _ hs => step.edits hs (given step hstep)) sound

/-- The nodes that a copy was made of are new, so no old one leads to them. -/
theorem Extends.copied (hextends : Extends s s' nodes') (filed : s.Filed) (filed' : s'.Filed)
    (view : s.Shows h t nodes) (view' : s'.Shows copy t nodes') :
    Copied s s' h copy t nodes nodes' := by
  have hview := view.of_extends hextends
  have hchild : ∀ {n m}, s'.HasChild n m → (n ∈ nodes' ↔ m ∈ nodes') := fun hchild =>
    hextends.mem_iff_of_hasChild filed view' hchild
  have hsound : s'.Sound (· ∉ nodes') := by
    refine ⟨filed', fun n cell hn hcell link hlink => ?_, fun n hn hmem => ?_⟩
    · rwa [← hchild ⟨cell, hcell, link, hlink, rfl⟩]
    · exact Nat.not_lt.mpr hn ((hextends.mem_iff n).mp hmem).2
  have hlive : h.index < s'.size := hview.lt_size hview.mem_self
  have hapart : s'.Apart h copy := by
    refine ⟨filed', hlive, view'.lt_size view'.mem_self, fun m hm hm' => ?_⟩
    have hold := view.lt_size (hview.leads_iff.mp hm)
    exact Nat.not_lt.mpr ((hextends.mem_iff m).mp (view'.leads_iff.mp hm')).1 hold
  have hclosed : ∀ n m, s'.Leads n m → (n ∈ nodes' ↔ m ∈ nodes') := by
    intro n m hled
    induction hled with
    | refl => exact Iff.rfl
    | tail _ hlast ih => exact ih.trans (hchild hlast)
  refine ⟨hview, view', hextends, ⟨hview.map_evaluate, view'.map_evaluate⟩, hclosed, ?_, ?_, ?_, ?_⟩
  · intro n hn m hm hled
    have hnew := (hextends.mem_iff m).mp ((hclosed n m hled).mp hn)
    exact Nat.not_lt.mpr hnew.1 (view.lt_size hm)
  · intro steps given n hn
    exact (edits_foldl_apply hsound steps given).outside fun hout => hout hn
  · intro steps given n hn
    have hclear : ∀ step ∈ steps, ∀ n ∈ step.handles, s'.Clear h n :=
      fun step hstep n hn m hled hm => given step hstep n hn m (hview.leads_iff.mp hm) hled
    refine (edits_foldl_apply (sound_clear filed' hlive) steps hclear).outside fun hout => ?_
    exact hout n .refl (hview.leads_iff.mpr hn)
  · intro s₁ hturns
    have hlater := hapart.turns hturns
    refine ⟨hlater, fun s₂ => ⟨fun hspare => ?_, fun hspare => ?_⟩⟩
    · exact (spared_of_sparing hlater.filed hlater.right hspare).2.2
    · exact (spared_of_sparing hlater.filed hlater.left hspare).2.2

/-- After any steps, a tree can be copied, and the two trees are independent. -/
theorem Shows.clone_independent (before : List (Step α)) (view : (run before).Shows h t nodes) :
    ∃ copy s' nodes', (run before).clone? h = some (copy, s') ∧
      Copied (run before) s' h copy t nodes nodes' := by
  have hclone : (run before).clone? h = some ((run before).plant t) := by
    rw [clone?, view.tree?_eq, Option.map_some]
  have sound := sound_run before
  have hedits := (edits_plant (sound.filed.ordered view) sound).1
  obtain ⟨nodes', view', hextends⟩ := shows_plant t (run before)
  refine ⟨_, _, nodes', hclone, ?_⟩
  exact hextends.copied sound.filed (hedits.sound sound).filed view view'

end Proving

end Copying

theorem Shows.clone_independent_timed :
    ∃ copy s' nodes', (run timed).clone? ⟨0⟩ = some (copy, s') ∧
      s'.Shows copy (.node (.fresh "page") [.node timedCall []]) nodes' ∧
      ∀ n ∈ nodes', ((Step.evaluate ⟨0⟩).apply s').cell? n = s'.cell? n := by
  obtain ⟨copy, s', nodes', hclone, hcopied⟩ := clone_independent timed shows_timed
  refine ⟨copy, s', nodes', hclone, hcopied.copied, hcopied.copyStays [.evaluate ⟨0⟩] ?_⟩
  intro step hstep n hn hmem
  obtain rfl := List.mem_singleton.mp hstep
  obtain rfl := List.mem_singleton.mp hn
  exact absurd ((hcopied.new.mem_iff ⟨0⟩).mp hmem).1 (by decide)

end Telemetry.Store
