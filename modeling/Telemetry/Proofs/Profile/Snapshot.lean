import Telemetry.Proofs.Profile.Runs

/-!
# What a snapshot shows

A snapshot goes through five passes on its way out: its samples are folded into a tree, frames of the
agent are cut off, children are added to their parents, what is out of range is cut off, and the rest
is pictured. This module says what is left in terms of the samples alone.

It matters that names are filtered before children are added and values after that: a sample with a
refused frame anywhere in its stack counts nowhere, not even at the frames above it, while a node
that is out of range is missing but remains part of what its parents hold. So the nodes shown are
those of all samples (`Shown`), but what they hold are sums over the samples that count (`Shows`).
-/

namespace Telemetry.Profiler

open CallGraph

variable {α : Type} [Quantity α]

/-- Whether a frame is shown: frames of the agent itself only if they are asked for. -/
def wanted (profileAgent : Bool) (label : String) : Bool := profileAgent || !isAgentFrame label

/-- When there is a node at a path. -/
structure Shown (filter : Option (ValueFilter α)) (keep : String → Bool) (hits : List Hit)
    (path : List String) : Prop where
  /-- a sample with a value leads there or further down -/
  sampled : ∃ hit ∈ hits, path <+: hit.path
  /-- no frame on the way is refused -/
  kept : ∀ label ∈ path, keep label
  /-- nothing on the way is out of range -/
  inRange : ∀ f ∈ filter, ∀ upper, upper ≠ [] → upper <+: path → f.fromDepth ≤ upper.length →
    Quantity.within f.least f.greatest
      (Quantity.ofInt (total (under upper (counted keep hits))) : α)

/-- A node of a picture holds the sums of some hits. -/
structure Holds (hits : List Hit) (node : BreakdownRecord α) : Prop where
  measurement : node.measurement = Quantity.ofInt (total hits)
  sampleCount : node.sampleCount = count hits

/-- A picture shows what hits amount to. -/
structure Shows (filter : Option (ValueFilter α)) (keep : String → Bool) (hits : List Hit)
    (picture : BreakdownRecord α) : Prop where
  /-- the top holds what all hits that count add up to, even those that are not shown -/
  top : Holds (counted keep hits) picture
  /-- a node that is shown is there once, with the sums of what counts there or further down -/
  node : ∀ path, path ≠ [] → Shown filter keep hits path →
    ∃ node, picture.nodesAt path = [node] ∧ Holds (under path (counted keep hits)) node
  /-- there are no other nodes -/
  nothing : ∀ path, path ≠ [] → ¬ Shown filter keep hits path → picture.nodesAt path = []

/-! ## Before the filter by value -/

/-- The tree of some hits, without the names refused, and added up. -/
def rolled (keep : String → Bool) (hits : List Hit) : Tree α :=
  ((grow Tree.root hits).filterNames keep).rollup

theorem ordered_rolled (keep : String → Bool) (hits : List Hit) :
    (rolled keep hits : Tree α).Ordered :=
  ((ordered_grow Tree.ordered_root hits).filterNames keep).rollup

theorem at?_rolled (keep : String → Bool) (hits : List Hit) (path : List String) :
    (rolled keep hits : Tree α).at? path
      = if path.all keep then
          ((grow Tree.root hits).at? path).map fun t => (t.filterNames keep).rollup
        else none := by
  rw [rolled, Tree.at?_rollup, (ordered_grow Tree.ordered_root hits).at?_filterNames]
  by_cases hkeep : path.all keep
  · rw [if_pos hkeep, if_pos hkeep, Option.map_map]
    rfl
  · rw [if_neg hkeep, if_neg hkeep]
    rfl

theorem isSome_at?_rolled_iff (keep : String → Bool) (hits : List Hit) {path : List String}
    (hpath : path ≠ []) :
    ((rolled keep hits : Tree α).at? path).isSome ↔
      (∃ hit ∈ hits, path <+: hit.path) ∧ ∀ label ∈ path, keep label := by
  have hroot : ((Tree.root : Tree α).at? path) = none := by
    cases path with
    | nil => exact absurd rfl hpath
    | cons name rest => rfl
  rw [at?_rolled, ← List.all_eq_true]
  by_cases hkeep : path.all keep
  · rw [if_pos hkeep, Option.isSome_map, isSome_at?_grow_iff Tree.ordered_root, hroot]
    simp [hkeep]
  · rw [if_neg hkeep]
    simp [hkeep]

/-- What the nodes hold once children are added to their parents. -/
theorem entry_of_at?_rolled [Quantity.Exact α] {keep : String → Bool} {hits : List Hit}
    {path : List String} {t : Tree α} (hat : (rolled keep hits).at? path = some t) :
    t.measurement = Quantity.ofInt (total (under path (counted keep hits))) ∧
      t.sampleCount = count (under path (counted keep hits)) := by
  rw [at?_rolled] at hat
  by_cases hkeep : path.all keep
  · rw [if_pos hkeep] at hat
    obtain ⟨grown, hgrown, rfl⟩ := Option.map_eq_some_iff.mp hat
    have hweigh := weigh_reach_grow_root (α := α) hkeep hits
    rw [Tree.reach_eq_of_at? hgrown] at hweigh
    exact ⟨congrArg Entry.measurement hweigh, congrArg Entry.sampleCount hweigh⟩
  · rw [if_neg hkeep] at hat
    cases hat

/-! ## After the filter by value -/

/-- A tree without what is out of range. -/
def sift (filter : Option (ValueFilter α)) (t : Tree α) : Tree α :=
  match filter with
  | some f => t.filterValues f
  | none => t

theorem entry_sift (filter : Option (ValueFilter α)) (t : Tree α) :
    (sift filter t).entry = t.entry := by
  cases filter with
  | none => rfl
  | some f => exact Tree.entry_prune f.keeps 1 t

theorem ordered_sift (filter : Option (ValueFilter α)) {t : Tree α} (h : t.Ordered) :
    (sift filter t).Ordered := by
  cases filter with
  | none => exact h
  | some f => exact h.prune f.keeps 1

/-- What is left has the same entries as before, and nothing on the way to it is out of range. -/
theorem at?_sift_cases {filter : Option (ValueFilter α)} {t : Tree α} (h : t.Ordered)
    {path : List String} {sub : Tree α} (hat : (sift filter t).at? path = some sub) :
    ∃ whole, t.at? path = some whole ∧ sub.entry = whole.entry ∧
      ∀ f ∈ filter, Tree.KeptAlong f.keeps 0 path t := by
  cases filter with
  | none => exact ⟨sub, hat, rfl, fun f hf => nomatch hf⟩
  | some f =>
    obtain ⟨whole, hwhole, rfl, habove⟩ := (h.at?_prune_eq_some_iff f.keeps 0 path sub).mp hat
    refine ⟨whole, hwhole, Tree.entry_prune _ _ whole, fun f' hf => ?_⟩
    obtain rfl : f = f' := Option.some.inj hf
    exact habove

theorem keeps_iff (f : ValueFilter α) (level : Nat) (entry : Entry α) :
    f.keeps level entry ↔
      (f.fromDepth ≤ level → Quantity.within f.least f.greatest entry.measurement) := by
  rw [ValueFilter.keeps, Bool.or_eq_true, decide_eq_true_iff]
  constructor
  · rintro (hlevel | hwithin) hfrom
    · omega
    · exact hwithin
  · intro h
    by_cases hfrom : f.fromDepth ≤ level
    · exact .inr (h hfrom)
    · exact .inl (by omega)

variable [Quantity.Exact α]

theorem isSome_at?_sift_iff (filter : Option (ValueFilter α)) (keep : String → Bool)
    (hits : List Hit) {path : List String} (hpath : path ≠ []) :
    ((sift filter (rolled keep hits : Tree α)).at? path).isSome ↔
      Shown filter keep hits path := by
  have hordered := ordered_rolled (α := α) keep hits
  constructor
  · intro hsome
    obtain ⟨sub, hat⟩ := Option.isSome_iff_exists.mp hsome
    obtain ⟨whole, hwhole, -, habove⟩ := at?_sift_cases hordered hat
    obtain ⟨hsampled, hkept⟩ :=
      (isSome_at?_rolled_iff keep hits hpath).mp (Option.isSome_of_eq_some hwhole)
    refine ⟨hsampled, hkept, fun f hf upper hne hle hfrom => ?_⟩
    -- the nodes on the way are there because the one at its end is
    obtain ⟨rest, rfl⟩ := hle
    rw [Tree.at?_append] at hwhole
    obtain ⟨above, hupper, -⟩ := Option.bind_eq_some_iff.mp hwhole
    have hkeeps := habove f hf upper above hne (List.prefix_append upper rest) hupper
    rw [Nat.zero_add] at hkeeps
    rw [← (entry_of_at?_rolled hupper).1]
    exact (keeps_iff f _ _).mp hkeeps hfrom
  · intro hshown
    have hsome := (isSome_at?_rolled_iff (α := α) keep hits hpath).mpr
      ⟨hshown.sampled, hshown.kept⟩
    cases filter with
    | none => exact hsome
    | some f =>
      obtain ⟨whole, hwhole⟩ := Option.isSome_iff_exists.mp hsome
      -- a node is left if it and all nodes above it are kept
      refine Option.isSome_of_eq_some ((hordered.at?_prune_eq_some_iff f.keeps 0 path _).mpr
        ⟨whole, hwhole, rfl, fun upper above hne hle hupper => ?_⟩)
      rw [Nat.zero_add, keeps_iff]
      intro hfrom
      have hrange := hshown.inRange f rfl upper hne hle hfrom
      rw [← (entry_of_at?_rolled hupper).1] at hrange
      exact hrange

theorem under_nil (hits : List Hit) : under [] hits = hits :=
  List.filter_eq_self.mpr fun _ _ => decide_eq_true List.nil_prefix

/-- The picture of the tree that is left shows what the hits amount to. -/
theorem shows_sift_rolled (filter : Option (ValueFilter α)) (keep : String → Bool)
    (hits : List Hit) :
    Shows filter keep hits (sift filter (rolled keep hits : Tree α)).toRecord := by
  have hordered := ordered_rolled (α := α) keep hits
  have hnodes := (ordered_sift filter hordered).nodesAt_toRecord
  refine ⟨?_, fun path hpath hshown => ?_, fun path hpath hshown => ?_⟩
  · -- a filter by value never removes the top
    obtain ⟨hmeasurement, hcount⟩ := entry_of_at?_rolled (Tree.at?_nil (rolled (α := α) keep hits))
    rw [under_nil] at hmeasurement hcount
    refine ⟨?_, ?_⟩
    · rw [Tree.measurement_toRecord, Tree.measurement, entry_sift]
      exact hmeasurement
    · rw [Tree.sampleCount_toRecord, Tree.sampleCount, entry_sift]
      exact hcount
  · have hsome := (isSome_at?_sift_iff filter keep hits hpath).mpr hshown
    obtain ⟨sub, hat⟩ := Option.isSome_iff_exists.mp hsome
    obtain ⟨whole, hwhole, hentry, -⟩ := at?_sift_cases hordered hat
    obtain ⟨hmeasurement, hcount⟩ := entry_of_at?_rolled hwhole
    refine ⟨sub.toRecord, by rw [hnodes path, hat]; rfl, ?_, ?_⟩
    · rw [Tree.measurement_toRecord, Tree.measurement, hentry]
      exact hmeasurement
    · rw [Tree.sampleCount_toRecord, Tree.sampleCount, hentry]
      exact hcount
  · have hnone : (sift filter (rolled keep hits : Tree α)).at? path = none := by
      rw [← Option.not_isSome_iff_eq_none, isSome_at?_sift_iff filter keep hits hpath]
      exact hshown
    rw [hnodes path, hnone]
    rfl

omit [Quantity.Exact α] in
/-- What a snapshot goes through before it is pictured. -/
theorem finish_snapshot {settings : ProfilerSettings α} (hmode : settings.mode = .snapshot)
    (hscale : settings.scale = .absolute) (profileAgent : Bool) (processors : Nat)
    (hits : List Hit) :
    finish settings profileAgent processors 1 (grow Tree.root hits)
      = sift settings.filter (rolled (wanted profileAgent) hits) := by
  -- to keep every name is not to filter at all
  have hnames : (if profileAgent then grow (Tree.root : Tree α) hits
      else (grow Tree.root hits).filterNames fun label => !isAgentFrame label)
        = (grow Tree.root hits).filterNames (wanted profileAgent) := by
    cases profileAgent with
    | false => rfl
    | true => exact (Tree.filterNames_eq_self (fun _ => rfl) _).symm
  simp only [finish, hnames, convert, hmode, hscale, Nat.lt_irrefl, if_false]
  rfl

/-- Three allocation sites: one that counts, one below a frame of the agent, and one that is too
small to be shown. -/
def sites : Profile :=
  { sampleTypes := [{ kind := "objects", unit := "count" }, { kind := "space", unit := "bytes" }]
    samples :=
      [{ frames := [⟨"grow", some "pool.rs", some 8⟩, ⟨"main", none, none⟩], values := [2, 640] },
       { frames := [⟨"stackpulse::agent::run", none, none⟩, ⟨"main", none, none⟩], values := [1, 96] },
       { frames := [⟨"name", none, none⟩, ⟨"main", none, none⟩], values := [4, 32] }] }

/-- Settings under which sites are shown that hold at least sixty-four bytes. -/
def siteSettings : ProfilerSettings Rat :=
  { name := "Sites", category := .memoryProfile, unit := .byte
    valueKind := "space", countKind := "objects"
    mode := .snapshot, reportInterval := .ofSeconds 60, scale := .absolute
    filter := some { fromDepth := 2, least := 64, greatest := 4096 } }

/-- An outlet that has not been used. -/
def siteOutlet : Outlet := { config := {}, delivery := Delivery.create {} 600 false }

end Telemetry.Profiler
