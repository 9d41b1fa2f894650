import Telemetry.Profile.CallGraph
import Telemetry.Proofs.Breakdown.Growth

/-!
# What a profile adds to a tree

Of a sample only three things come into a call graph: its path, and its two values. Samples without
a value leave nothing at all. So a profile whose samples reach both columns is a list of hits, and
folding it is to let a tree grow by one hit after the other (`fold_of_complete`,
`ofProfile_eq_ok_iff`).

A tree grown from nothing has a node wherever a hit leads or passes by (`isSome_at?_grow_iff`), and
what such a node weighs is the sum of the hits that count and lead there or below
(`weigh_reach_grow`).
-/

namespace Telemetry.CallGraph

/-- What a sample adds, and where. -/
structure Hit where
  /-- the labels of its frames, outermost first -/
  path : List String
  /-- what it adds to the measurement -/
  value : Int64
  /-- what it adds to the sample count -/
  count : Int64
  deriving DecidableEq, Repr

/-- The hit of a sample that has a value. -/
def Columns.hit? (c : Columns) (s : Sample) : Option Hit :=
  match c.read? s with
  | some (value, count) => if value = 0 then none else some { path := s.path, value, count }
  | none => none

/-- The hits of samples. -/
def Columns.hits (c : Columns) (samples : List Sample) : List Hit := samples.filterMap c.hit?

/-- Every sample has both of the columns. -/
def Columns.Complete (c : Columns) (samples : List Sample) : Prop :=
  ∀ s ∈ samples, c.needed ≤ s.values.length

instance (c : Columns) (samples : List Sample) : Decidable (c.Complete samples) :=
  inferInstanceAs (Decidable (∀ s ∈ samples, _))

/-- The sum of the values of hits. -/
def total (hits : List Hit) : Int := hits.foldr (fun hit sum => hit.value.toInt + sum) 0

/-- The sum of the counts of hits, which wraps around as counts do. -/
def count (hits : List Hit) : Int64 := hits.foldr (fun hit sum => hit.count + sum) 0

/-- The hits that count if some names are refused: a single name on the path is enough to make a hit
count nowhere. -/
def counted (keep : String → Bool) (hits : List Hit) : List Hit :=
  hits.filter fun hit => hit.path.all keep

/-- The hits that lead to the end of a path or further down. -/
def under (path : List String) (hits : List Hit) : List Hit :=
  hits.filter fun hit => path <+: hit.path

theorem under_counted_cons (path : List String) (keep : String → Bool) (hit : Hit)
    (rest : List Hit) :
    under path (counted keep (hit :: rest))
      = if path <+: hit.path ∧ hit.path.all keep then hit :: under path (counted keep rest)
        else under path (counted keep rest) := by
  simp only [under, counted]
  by_cases hcounts : hit.path.all keep
  · by_cases hpath : path <+: hit.path <;> simp [hcounts, hpath]
  · simp [hcounts]

/-! ## Reading samples -/

/-- The columns of a profile have nothing to do with its samples. -/
theorem columns_congr {first second : Profile} (h : first.sampleTypes = second.sampleTypes)
    (valueKind countKind : String) :
    columns first valueKind countKind = columns second valueKind countKind := by
  simp only [columns, Profile.column?]
  rw [h]

theorem Columns.read?_eq_none_iff {c : Columns} {s : Sample} :
    c.read? s = none ↔ s.values.length < c.needed := by
  rw [read?, needed]
  constructor
  · intro hread
    split at hread
    · cases hread
    · rename_i hmissing
      by_cases hvalue : c.value < s.values.length
      · by_cases hcount : c.count < s.values.length
        · exact absurd (List.getElem?_eq_getElem hcount)
            (hmissing _ _ (List.getElem?_eq_getElem hvalue))
        · omega
      · omega
  · intro hlength
    split
    · rename_i hvalue hcount
      obtain ⟨hvalue, -⟩ := List.getElem?_eq_some_iff.mp hvalue
      obtain ⟨hcount, -⟩ := List.getElem?_eq_some_iff.mp hcount
      omega
    · rfl

theorem Columns.hits_append (c : Columns) (first second : List Sample) :
    c.hits (first ++ second) = c.hits first ++ c.hits second :=
  List.filterMap_append

/-! ## Folding is growing -/

section Growing

variable {α : Type} [Quantity α]

/-- Let a tree grow by hits. -/
def grow (t : Tree α) (hits : List Hit) : Tree α :=
  hits.foldl (fun t hit => t.incrementAt hit.path (Quantity.ofInt hit.value.toInt) hit.count) t

theorem grow_cons (t : Tree α) (hit : Hit) (rest : List Hit) :
    grow t (hit :: rest)
      = grow (t.incrementAt hit.path (Quantity.ofInt hit.value.toInt) hit.count) rest := rfl

theorem grow_append (t : Tree α) (first second : List Hit) :
    grow t (first ++ second) = grow (grow t first) second :=
  List.foldl_append

/-- Samples that have both columns are all folded. -/
theorem foldSamples_of_complete {c : Columns} {samples : List Sample} (h : c.Complete samples)
    (index : Nat) (t : Tree α) :
    foldSamples c samples index t
      = (.ok (c.hits samples).length, grow t (c.hits samples)) := by
  induction samples generalizing index t with
  | nil => rfl
  | cons s rest ih =>
    have hs : c.needed ≤ s.values.length := h s List.mem_cons_self
    have hrest : c.Complete rest := fun other hmem => h other (List.mem_cons_of_mem s hmem)
    cases hread : c.read? s with
    | none =>
      rw [Columns.read?_eq_none_iff] at hread
      omega
    | some found =>
      obtain ⟨value, count⟩ := found
      rw [foldSamples, hread]
      -- a sample without a value is no hit, and the tree stays as it is
      by_cases hvalue : value = 0
      · have hhits : c.hits (s :: rest) = c.hits rest := by
          rw [Columns.hits, List.filterMap_cons_none (by simp [Columns.hit?, hread, hvalue])]
          rfl
        simp only [if_pos hvalue]
        rw [hhits]
        exact ih hrest (index + 1) t
      · have hhits : c.hits (s :: rest) = { path := s.path, value, count } :: c.hits rest := by
          rw [Columns.hits, List.filterMap_cons_some (by simp [Columns.hit?, hread, hvalue]; rfl)]
          rfl
        simp only [if_neg hvalue]
        rw [hhits, ih hrest]
        rfl

/-- A fold that goes through has found both columns in every sample. -/
theorem complete_of_foldSamples {c : Columns} {samples : List Sample} {index folded : Nat}
    {t : Tree α} (h : (foldSamples c samples index t).1 = .ok folded) : c.Complete samples := by
  induction samples generalizing index folded t with
  | nil => exact fun s hmem => nomatch hmem
  | cons s rest ih =>
    rw [foldSamples] at h
    cases hread : c.read? s with
    | none =>
      rw [hread] at h
      cases h
    | some found =>
      obtain ⟨value, count⟩ := found
      have hs : c.needed ≤ s.values.length := by
        -- else the sample could not have been read
        by_cases hlength : s.values.length < c.needed
        · rw [Columns.read?_eq_none_iff.mpr hlength] at hread
          cases hread
        · omega
      have hrest : c.Complete rest := by
        simp only [hread] at h
        by_cases hvalue : value = 0
        · rw [if_pos hvalue] at h
          exact ih h
        · rw [if_neg hvalue] at h
          cases hfolded : (foldSamples c rest (index + 1) (addSample s value count t)).1 with
          | ok others => exact ih hfolded
          | error e =>
            simp only [hfolded] at h
            cases h
      intro other hmem
      rcases List.mem_cons.mp hmem with rfl | hmem
      · exact hs
      · exact hrest other hmem

theorem fold_of_complete {profile : Profile} {valueKind countKind : String} {c : Columns}
    (hc : columns profile valueKind countKind = .ok c) (h : c.Complete profile.samples)
    (t : Tree α) :
    fold profile valueKind countKind t
      = (.ok (c.hits profile.samples).length, grow t (c.hits profile.samples)) := by
  simp only [fold, hc]
  exact foldSamples_of_complete h 0 t

/-- A profile has a call graph if it has both columns and so has every sample of it. -/
theorem ofProfile_eq_ok_iff {profile : Profile} {valueKind countKind : String} {t : Tree α} :
    ofProfile profile valueKind countKind = .ok t ↔
      ∃ c, columns profile valueKind countKind = .ok c ∧ c.Complete profile.samples ∧
        t = grow Tree.root (c.hits profile.samples) := by
  constructor
  · intro h
    rw [ofProfile] at h
    split at h
    · rename_i folded tree hfold
      cases hc : columns profile valueKind countKind with
      | error e =>
        rw [fold, hc] at hfold
        cases hfold
      | ok c =>
        have hcomplete : c.Complete profile.samples := by
          rw [fold, hc] at hfold
          exact complete_of_foldSamples (congrArg Prod.fst hfold)
        rw [fold_of_complete hc hcomplete] at hfold
        refine ⟨c, rfl, hcomplete, ?_⟩
        rw [← Except.ok.inj h]
        exact (congrArg Prod.snd hfold).symm
    · cases h
  · rintro ⟨c, hc, hcomplete, rfl⟩
    rw [ofProfile, fold_of_complete hc hcomplete]

/-! ## The nodes of a grown tree -/

theorem ordered_grow {t : Tree α} (h : t.Ordered) (hits : List Hit) : (grow t hits).Ordered := by
  induction hits generalizing t with
  | nil => exact h
  | cons hit rest ih =>
    exact ih (h.incrementAt hit.path _ _)

/-- A tree grows where hits lead or pass by, and nowhere else. -/
theorem isSome_at?_grow_iff {t : Tree α} (h : t.Ordered) (hits : List Hit) (path : List String) :
    ((grow t hits).at? path).isSome ↔
      (t.at? path).isSome ∨ ∃ hit ∈ hits, path <+: hit.path := by
  induction hits generalizing t with
  | nil => simp [grow]
  | cons hit rest ih =>
    rw [grow_cons, ih (h.incrementAt hit.path _ _), h.isSome_at?_incrementAt_iff, or_assoc]
    simp only [List.mem_cons, exists_eq_or_imp]

theorem reach_root (path : List String) :
    (Tree.root : Tree α).reach path = Tree.leaf (path.getLastD Tree.rootName) := by
  cases path with
  | nil => rfl
  | cons name path => rfl

variable [Quantity.Exact α]

/-- A node weighs what the hits add that count and lead there or below. -/
theorem weigh_reach_grow {keep : String → Bool} {path : List String} (hpath : path.all keep)
    {t : Tree α} (h : t.Ordered) (hits : List Hit) :
    ((grow t hits).reach path).weigh keep
      = ((t.reach path).weigh keep).increment
          (Quantity.ofInt (total (under path (counted keep hits))))
          (count (under path (counted keep hits))) := by
  induction hits generalizing t with
  | nil =>
    rw [show total (under path (counted keep [])) = 0 from rfl, Quantity.Exact.ofInt_zero]
    exact (Tree.increment_zero _).symm
  | cons hit rest ih =>
    rw [grow_cons, ih (h.incrementAt hit.path _ _), h.reach_incrementAt]
    by_cases hbelow : path <+: hit.path
    · obtain ⟨more, hmore⟩ := hbelow
      -- the names above the node are accepted, so it is the rest of the way that decides
      have hall : (hit.path.drop path.length).all keep = hit.path.all keep := by
        rw [← hmore, List.drop_left, List.all_append, hpath, Bool.true_and]
      rw [if_pos ⟨more, hmore⟩, Tree.weigh_incrementAt, hall]
      by_cases hcounts : hit.path.all keep
      · rw [under_counted_cons, if_pos hcounts, if_pos ⟨⟨more, hmore⟩, hcounts⟩,
          Tree.increment_increment, ← Quantity.Exact.ofInt_add]
        rfl
      · rw [under_counted_cons, if_neg hcounts, if_neg fun h => hcounts h.2]
    · rw [under_counted_cons, if_neg hbelow, if_neg fun h => hbelow h.1]

/-- What a node of a call graph weighs. -/
theorem weigh_reach_grow_root {keep : String → Bool} {path : List String} (hpath : path.all keep)
    (hits : List Hit) :
    ((grow (Tree.root : Tree α) hits).reach path).weigh keep
      = { Entry.fresh (path.getLastD Tree.rootName) with
          measurement := Quantity.ofInt (total (under path (counted keep hits)))
          sampleCount := count (under path (counted keep hits)) } := by
  rw [weigh_reach_grow hpath Tree.ordered_root, reach_root, Tree.weigh_leaf, Entry.increment]
  congr 1
  · exact Quantity.Exact.zero_add _
  · exact Int64.zero_add _

end Growing

end Telemetry.CallGraph
