import Telemetry.Proofs.Breakdown.Edits

/-!
# Trees without a common node

A node leads to all that can be reached from it by way of children. What it leads to stays as it is
while no step is given a node that leads there too, since then all that is done stays clear of it
(`Sparing.spared`).

Two nodes are apart if there is nothing that both lead to. They stay apart while each step spares one
of them, in whatever turns this is the one or the other (`Apart.turns`).
-/

namespace Telemetry.Store

variable {α : Type}

/-! ## Leading to a node -/

/-- A node has another among its children. -/
def HasChild (s : Store α) (n m : Handle) : Prop :=
  ∃ cell, s.cell? n = some cell ∧ ∃ link ∈ cell.children, link.2 = m

/-- A node leads to another by way of children. -/
abbrev Leads (s : Store α) : Handle → Handle → Prop := Relation.ReflTransGen s.HasChild

section Leading

variable {s s' : Store α} {n m b : Handle}

/-- Nothing leads out of a region. -/
theorem Sound.leads {R : Handle → Prop} (sound : s.Sound R) (hn : R n) (h : s.Leads n m) : R m := by
  induction h with
  | refl => exact hn
  | tail _ hchild ih =>
    obtain ⟨cell, hcell, link, hlink, rfl⟩ := hchild
    exact sound.closed _ cell ih hcell link hlink

/-- Where a node leads depends on nothing but the cells that it leads to. -/
theorem leads_of_same (hsame : ∀ m, s.Leads n m → s'.cell? m = s.cell? m) (h : s'.Leads n m) :
    s.Leads n m := by
  induction h with
  | refl => exact .refl
  | tail _ hchild ih =>
    obtain ⟨cell, hcell, hlink⟩ := hchild
    exact ih.tail ⟨cell, (hsame _ ih).symm.trans hcell, hlink⟩

theorem leads_iff_of_same (hsame : ∀ m, s.Leads n m → s'.cell? m = s.cell? m) :
    s'.Leads n m ↔ s.Leads n m := by
  refine ⟨leads_of_same hsame, fun h => ?_⟩
  induction h with
  | refl => exact .refl
  | tail hled hchild ih =>
    obtain ⟨cell, hcell, hlink⟩ := hchild
    exact ih.tail ⟨cell, (hsame _ hled).trans hcell, hlink⟩

/-- In a filed store, a node that there is leads to nodes that there are. -/
theorem Filed.lt_size_of_leads (filed : s.Filed) (live : n.index < s.size) (h : s.Leads n m) :
    m.index < s.size := by
  cases h with
  | refl => exact live
  | tail _ hchild =>
    obtain ⟨cell, hcell, link, hlink, rfl⟩ := hchild
    exact lt_size_of_name? ((filed _ cell hcell).named link hlink)

theorem Shows.mem_of_hasChild {h : Handle} {t : Tree α} {nodes : List Handle}
    (view : s.Shows h t nodes) (hn : n ∈ nodes) (hchild : s.HasChild n m) : m ∈ nodes := by
  induction view with
  | @node h entry parts cell below ih =>
    rcases List.mem_cons.mp hn with rfl | hn
    · obtain ⟨found, hfound, link, hlink, rfl⟩ := hchild
      obtain rfl := Option.some.inj (hfound.symm.trans cell)
      obtain ⟨p, hp, rfl⟩ := List.mem_map.mp hlink
      exact List.mem_cons_of_mem _ (mem_nodesOf hp (below p hp).mem_self)
    · obtain ⟨p, hp, hn⟩ := List.mem_flatMap.mp hn
      exact List.mem_cons_of_mem _ (mem_nodesOf hp (ih p hp hn))

/-- A node leads to those of which its tree is made. -/
theorem Shows.leads_iff {h : Handle} {t : Tree α} {nodes : List Handle} (view : s.Shows h t nodes) :
    s.Leads h n ↔ n ∈ nodes := by
  constructor
  · intro hled
    induction hled with
    | refl => exact view.mem_self
    | tail _ hchild ih => exact view.mem_of_hasChild ih hchild
  · intro hn
    induction view with
    | @node h entry parts cell _ ih =>
      rcases List.mem_cons.mp hn with rfl | hn
      · exact .refl
      · obtain ⟨p, hp, hn⟩ := List.mem_flatMap.mp hn
        exact .head ⟨_, cell, p.link, List.mem_map_of_mem hp, rfl⟩ (ih p hp hn)

end Leading

/-! ## Clear of what a node leads to -/

/-- A node leads to nothing that another leads to. -/
def Clear (s : Store α) (b n : Handle) : Prop := ∀ m, s.Leads n m → ¬ s.Leads b m

section Sparing

variable {s s' : Store α} {a b : Handle}

/-- All that is clear of a node is a region. -/
theorem sound_clear (filed : s.Filed) (live : b.index < s.size) : s.Sound (s.Clear b) where
  filed := filed
  closed n cell hn hcell link hlink m hm := hn m (hm.head ⟨cell, hcell, link, hlink, rfl⟩)
  spacious := by
    intro n hn m hm
    rcases hm.cases_head with rfl | ⟨k, ⟨cell, hcell, -⟩, -⟩
    · exact fun hb => Nat.not_lt.mpr hn (filed.lt_size_of_leads live hb)
    · exact absurd (lt_size_of_cell? hcell) (Nat.not_lt.mpr hn)

variable [Quantity α]

/-- A step spares a node if all that it is given is clear of it. -/
def Sparing (b : Handle) (s s' : Store α) : Prop :=
  ∃ step : Step α, (∀ n ∈ step.handles, s.Clear b n) ∧ s' = step.apply s

/-- What a node leads to has not been touched, and nothing that was clear of it leads there now. -/
structure Spared (b : Handle) (s s' : Store α) : Prop where
  sound : s'.Sound (s.Clear b)
  larger : s.size ≤ s'.size
  same : ∀ m, s.Leads b m → s'.cell? m = s.cell? m

theorem Sparing.spared (filed : s.Filed) (live : b.index < s.size) (h : Sparing b s s') :
    Spared b s s' := by
  obtain ⟨step, given, rfl⟩ := h
  have sound := sound_clear filed live
  have hedits := step.edits sound given
  refine ⟨hedits.sound sound, hedits.size_le, fun m hm => ?_⟩
  exact hedits.outside fun hclear => hclear m .refl hm

/-- Steps that spare a node one after the other touch nothing that it leads to. -/
theorem spared_of_sparing (filed : s.Filed) (live : b.index < s.size)
    (h : Relation.ReflTransGen (Sparing b) s s') :
    s'.Filed ∧ b.index < s'.size ∧ ∀ m, s.Leads b m → s'.cell? m = s.cell? m := by
  induction h with
  | refl => exact ⟨filed, live, fun _ _ => rfl⟩
  | tail _ hstep ih =>
    obtain ⟨hfiled, hlive, hsame⟩ := ih
    obtain ⟨hsound, hlarger, hsame'⟩ := hstep.spared hfiled hlive
    refine ⟨hsound.filed, Nat.lt_of_lt_of_le hlive hlarger, fun m hm => ?_⟩
    rw [hsame' m ((leads_iff_of_same hsame).mpr hm), hsame m hm]

/-! ## Apart -/

/-- Two nodes that are there lead to no common node. -/
structure Apart (s : Store α) (a b : Handle) : Prop where
  filed : s.Filed
  left : a.index < s.size
  right : b.index < s.size
  clear : s.Clear b a

omit [Quantity α] in
theorem Apart.symm (apart : s.Apart a b) : s.Apart b a :=
  ⟨apart.filed, apart.right, apart.left, fun m hb ha => apart.clear m ha hb⟩

theorem Apart.spare (apart : s.Apart a b) (h : Sparing b s s') : s'.Apart a b := by
  obtain ⟨hsound, hlarger, hsame⟩ := h.spared apart.filed apart.right
  refine ⟨hsound.filed, Nat.lt_of_lt_of_le apart.left hlarger,
    Nat.lt_of_lt_of_le apart.right hlarger, fun m ha hb => ?_⟩
  exact hsound.leads apart.clear ha m .refl (leads_of_same hsame hb)

/-- Steps are made that spare the one or the other of two nodes. -/
abbrev Turns (a b : Handle) : Store α → Store α → Prop :=
  Relation.ReflTransGen fun s s' => Sparing a s s' ∨ Sparing b s s'

theorem Apart.turns (apart : s.Apart a b) (h : Turns a b s s') : s'.Apart a b := by
  induction h with
  | refl => exact apart
  | tail _ hstep ih =>
    rcases hstep with ha | hb
    · exact (ih.symm.spare ha).symm
    · exact ih.spare hb

end Sparing

end Telemetry.Store
