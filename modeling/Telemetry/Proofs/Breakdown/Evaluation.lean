import Telemetry.Proofs.Breakdown.Steps

/-!
# Evaluations over shared nodes

A pass that changes entries on their own comes to a node as often as there are paths to it. If to
change an entry twice is to change it once, this makes no difference: every node below is changed,
and no other (`Shows.alters_walk`).

An evaluation is such a pass. After any steps, wherever there is a tree to be seen, all its nodes that
held values have their percentiles and hold nothing any more, and to evaluate the tree again changes
nothing (`Shows.evaluated`).
-/

namespace Telemetry.Store

variable {α : Type}

/-! ## Passes over entries -/

section Altering

variable {f : Entry α → Entry α} {s s' s'' : Store α} {nodes : List Handle}

/-- A cell with its entry changed. -/
def altered (f : Entry α → Entry α) (cell : Cell α) : Cell α := { cell with entry := f cell.entry }

/-- A store in which some entries have been changed. -/
def Partly (f : Entry α → Entry α) (s s' : Store α) : Prop :=
  ∀ n, s'.cell? n = s.cell? n ∨ s'.cell? n = (s.cell? n).map (altered f)

/-- The nodes have the entries that they had at first, changed once, and no other cell is touched. -/
structure Alters (f : Entry α → Entry α) (nodes : List Handle) (s s' s'' : Store α) : Prop where
  inside : ∀ n ∈ nodes, s''.cell? n = (s.cell? n).map (altered f)
  outside : ∀ n, n ∉ nodes → s''.cell? n = s'.cell? n

theorem Partly.refl (f : Entry α → Entry α) (s : Store α) : Partly f s s := fun _ => .inl rfl

theorem Partly.alters (h : Partly f s s') (halters : Alters f nodes s s' s'') : Partly f s s'' := by
  intro n
  by_cases hn : n ∈ nodes
  · exact .inr (halters.inside n hn)
  · rw [halters.outside n hn]
    exact h n

/-- A cell that may have been changed before has been changed once when it is changed now. -/
theorem Partly.exists_cell (hidem : ∀ entry, f (f entry) = f entry) (h : Partly f s s')
    {n : Handle} {cell : Cell α} (hcell : s.cell? n = some cell) :
    ∃ cell', s'.cell? n = some cell' ∧ altered f cell' = altered f cell := by
  rcases h n with hsame | hchanged
  · exact ⟨cell, hsame.trans hcell, rfl⟩
  · refine ⟨altered f cell, ?_, ?_⟩
    · rw [hchanged, hcell, Option.map_some]
    · rw [altered, altered, hidem]

theorem alters_foldl (visit : Store α → String × Handle → Store α) {parts : List (Part α)}
    (hvisit : ∀ p ∈ parts, ∀ s', Partly f s s' → Alters f p.nodes s s' (visit s' p.link))
    (h : Partly f s s') :
    Alters f (nodesOf parts) s s' ((parts.map Part.link).foldl visit s') := by
  induction parts generalizing s' with
  | nil => exact ⟨fun n hn => (nomatch hn), fun _ _ => rfl⟩
  | cons p rest ih =>
    obtain ⟨hvisitp, hvisits⟩ := List.forall_mem_cons.mp hvisit
    have hfirst := hvisitp s' h
    have hrest := ih hvisits (h.alters hfirst)
    rw [List.map_cons, List.foldl_cons]
    refine ⟨fun n hn => ?_, fun n hn => ?_⟩
    · by_cases hlater : n ∈ nodesOf rest
      · exact hrest.inside n hlater
      · rw [hrest.outside n hlater]
        exact hfirst.inside n ((List.mem_append.mp hn).resolve_right hlater)
    · obtain ⟨hfirstn, hrestn⟩ := not_mem_nodesOf_cons.mp hn
      rw [hrest.outside n hrestn, hfirst.outside n hfirstn]

/-- A walk changes the entries of all nodes that it comes to, those that it meets again too. -/
theorem Shows.alters_walk (hidem : ∀ entry, f (f entry) = f entry) {h : Handle} {t : Tree α}
    (view : s.Shows h t nodes) (hpartly : Partly f s s') {levels : Nat} (hlevels : t.depth ≤ levels)
    (level : Nat) :
    Alters f nodes s s' (walk (fun _ _ cell => altered f cell) levels level h s') := by
  induction view generalizing s' levels level with
  | @node h entry parts cell below ih =>
    rw [Tree.depth_node] at hlevels
    obtain ⟨levels, rfl⟩ : ∃ more, levels = more + 1 := ⟨levels - 1, by omega⟩
    obtain ⟨cell', hcell', hchanged⟩ := hpartly.exists_cell hidem cell
    rw [walk_succ_of_cell? hcell', hchanged]
    have hself := cell?_put_self hcell' (altered f { entry, children := parts.map Part.link })
    have hothers (n : Handle) (hn : n ≠ h) :=
      cell?_put_of_ne s' (altered f { entry, children := parts.map Part.link }) hn
    have hput : Partly f s (s'.put h (altered f { entry, children := parts.map Part.link })) := by
      intro n
      by_cases hn : n = h
      · rw [hn, hself, cell]
        exact .inr rfl
      · rw [hothers n hn]
        exact hpartly n
    have hvisit : ∀ p ∈ parts, ∀ s', Partly f s s' → Alters f p.nodes s s'
        (walk (fun _ _ cell => altered f cell) levels (level + 1) p.link.2 s') := by
      intro p hp s' hs'
      have hdepth := Tree.depth_le_depthAll (List.mem_map_of_mem (f := Part.tree) hp)
      exact ih p hp hs' (by omega) (level + 1)
    have hparts := alters_foldl
      (fun s link => walk (fun _ _ cell => altered f cell) levels (level + 1) link.2 s) hvisit hput
    refine ⟨fun n hn => ?_, fun n hn => ?_⟩
    · by_cases hbelow : n ∈ nodesOf parts
      · exact hparts.inside n hbelow
      · obtain rfl := (List.mem_cons.mp hn).resolve_right hbelow
        rw [cell]
        exact (hparts.outside n hbelow).trans hself
    · rw [List.mem_cons, not_or] at hn
      exact (hparts.outside n hn.2).trans (hothers n hn.1)

/-- A pass changes every entry below a node once. -/
theorem Shows.alters_map (hidem : ∀ entry, f (f entry) = f entry) {h : Handle} {t : Tree α}
    (view : s.Shows h t nodes) (hpartly : Partly f s s') (hsize : s'.size = s.size) :
    Alters f nodes s s' (s'.map f h) := by
  refine view.alters_walk hidem hpartly ?_ 0
  rw [hsize]
  exact view.depth_le_size

/-- What is to be seen after a pass is what was to be seen, with all entries changed. -/
theorem Shows.of_altered (hname : ∀ entry, (f entry).name = entry.name) {h : Handle} {t : Tree α}
    (view : s.Shows h t nodes) (haltered : ∀ n ∈ nodes, s'.cell? n = (s.cell? n).map (altered f)) :
    s'.Shows h (t.map f) nodes := by
  induction view with
  | @node h entry parts cell below ih =>
    have hcell := haltered h List.mem_cons_self
    rw [cell, Option.map_some, altered] at hcell
    let parts' := parts.map fun p => (⟨p.handle, p.tree.map f, p.nodes⟩ : Part α)
    have hlinks : parts'.map Part.link = parts.map Part.link := by
      rw [List.map_map]
      refine List.map_congr_left fun p _ => ?_
      rw [Function.comp, Part.link, Part.link, Part.name, Tree.name_map hname]
      rfl
    have hview : s'.Shows h (.node (f entry) (parts'.map Part.tree)) (h :: nodesOf parts') := by
      refine .node (hcell.trans (by rw [hlinks])) fun p' hp' => ?_
      obtain ⟨p, hp, rfl⟩ := List.mem_map.mp hp'
      exact ih p hp fun n hn => haltered n (List.mem_cons_of_mem h (mem_nodesOf hp hn))
    rw [Tree.map_node, List.map_map]
    rw [List.map_map, nodesOf, List.flatMap_map] at hview
    exact hview

theorem size_map (f : Entry α → Entry α) (h : Handle) (s : Store α) : (s.map f h).size = s.size := by
  refine walk_induction (motive := fun s s' => s'.size = s.size) (fun _ => rfl)
    (fun h h' => h'.trans h) ?_ s.size 0 h s
  intro s level h cell _
  exact size_put s h _

end Altering

/-! ## Percentiles of trees -/

/-- What an evaluation makes of a tree and of the nodes that it is made of. -/
structure Evaluated [Quantity α] (s s' : Store α) (h : Handle) (t : Tree α)
    (nodes : List Handle) : Prop where
  tree : s'.Shows h t.evaluate nodes
  inside : ∀ n ∈ nodes, ∃ old new, s.cell? n = some old ∧ s'.cell? n = some new ∧
    new.children = old.children ∧ Entry.Evaluates old.entry new.entry
  outside : ∀ n, n ∉ nodes → s'.cell? n = s.cell? n

/-- After any steps, an evaluation gives all nodes of a tree their percentiles. -/
theorem Shows.evaluated [Quantity α] [Quantity.Ranked α] (steps : List (Step α)) {h : Handle}
    {t : Tree α} {nodes : List Handle} (view : (run steps).Shows h t nodes) :
    Evaluated (run steps) ((run steps).map Entry.evaluate h) h t nodes ∧
      ((run steps).map Entry.evaluate h).map Entry.evaluate h
        = (run steps).map Entry.evaluate h := by
  have hsampled := lasting_sampled.all_run steps
  have hidem := Entry.evaluate_evaluate (α := α)
  have hpartly := Partly.refl Entry.evaluate (run steps)
  have halters := view.alters_map hidem hpartly rfl
  have hagain := view.alters_map hidem (hpartly.alters halters) (size_map _ h _)
  have htree := view.of_altered Entry.name_evaluate halters.inside
  refine ⟨⟨htree, fun n hn => ?_, halters.outside⟩, ext fun n => ?_⟩
  · obtain ⟨cell, hcell⟩ := Option.isSome_iff_exists.mp (view.isSome_cell? hn)
    refine ⟨cell, altered Entry.evaluate cell, hcell, ?_, rfl, ?_⟩
    · rw [halters.inside n hn, hcell, Option.map_some]
    · exact Entry.evaluates_evaluate (hsampled n cell hcell)
  · by_cases hn : n ∈ nodes
    · rw [hagain.inside n hn, halters.inside n hn]
    · exact hagain.outside n hn

/-- A page with a call below it that took one millisecond, and then something that is not a number and
has a sign. -/
def timed : List (Step BitPattern) :=
  [.create "page", .childOrNew ⟨0⟩ "call", .observe ⟨1⟩ ⟨0x3FF0000000000000⟩ 0,
    .observe ⟨1⟩ ⟨0xFFF8000000000000⟩ 0]

/-- The call after it was timed. -/
def timedCall : Entry BitPattern :=
  ((Entry.fresh "call").observe ⟨0x3FF0000000000000⟩ 0).observe ⟨0xFFF8000000000000⟩ 0

theorem shows_timed :
    (run timed).Shows ⟨0⟩ (.node (.fresh "page") [.node timedCall []]) [⟨0⟩, ⟨1⟩] := by
  let call : Part BitPattern := ⟨⟨1⟩, .node timedCall [], [⟨1⟩]⟩
  have hcall : (run timed).Shows call.handle call.tree call.nodes :=
    @Shows.node _ _ _ _ [] rfl fun _ hp => (nomatch hp)
  exact @Shows.node _ _ _ _ [call] rfl (List.forall_mem_singleton.mpr hcall)

/-- What has a sign comes before all numbers that have none, so the percentile is the number. -/
theorem Shows.evaluated_timed :
    (run timed).Shows ⟨0⟩ (.node (.fresh "page") [.node timedCall []]) [⟨0⟩, ⟨1⟩] ∧
      ∃ new, ((run timed).map Entry.evaluate ⟨0⟩).cell? ⟨1⟩ = some new ∧
        new.entry.measurement = ⟨0x3FF0000000000000⟩ := by
  obtain ⟨hevaluated, -⟩ := evaluated timed shows_timed
  obtain ⟨old, new, hold, hnew, -, hentry⟩ := hevaluated.inside ⟨1⟩ (by decide)
  obtain rfl : old = { entry := timedCall, children := [] } := (Option.some.inj hold).symm
  have hrank := hentry.picked (by decide)
  have hperm : ([⟨0xFFF8000000000000⟩] ++ [⟨0x3FF0000000000000⟩] : List BitPattern).Perm
      ([⟨0x3FF0000000000000⟩] ++ [⟨0xFFF8000000000000⟩]) := List.perm_append_comm
  have hlast := hrank.sorted _ hperm (by decide +kernel)
  exact ⟨shows_timed, new, hnew, (Option.some.inj hlast).symm⟩

end Telemetry.Store
