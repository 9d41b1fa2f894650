import Telemetry.Proofs.Profile.Samples

/-!
# What is folded, and what comes of it

Folding has four outcomes: one of the two columns is missing, and nothing is done; or a sample is too
short, and everything before the first such sample stays folded; or every sample is folded that has a
value. `Folded` says which of these it is and what the tree looks like then, node by node, whatever
the tree held before.

The loop over the samples is cut in two wherever that is convenient (`foldSamples_append`): before the
first sample that is too short, and between two profiles that are folded one after the other. What it
does to the node at a path is read off one hit at a time (`entry_reach_incrementAt`), so no sum is
formed in any other order than that of the samples.
-/

namespace Telemetry

/-- A profile has no column of a kind. -/
def Profile.Lacks (p : Profile) (kind : String) : Prop := ∀ type ∈ p.sampleTypes, type.kind ≠ kind

theorem Profile.column?_eq_none_iff {p : Profile} {kind : String} :
    p.column? kind = none ↔ p.Lacks kind := by
  rw [column?, List.findIdx?_eq_none_iff]
  simp only [beq_eq_false_iff_ne]
  rfl

/-- An error as it is when so many samples are put in front. -/
def ProfileError.behind (samples : Nat) : ProfileError → ProfileError
  | .malformedSample index found expected => .malformedSample (samples + index) found expected
  | .missingSampleType kind => .missingSampleType kind
  | .sourceFailed reason => .sourceFailed reason

/-! ## Single nodes -/

namespace Tree

variable {α : Type} [Quantity α]

/-- Of all nodes only the last one on the way is changed itself. -/
theorem Ordered.entry_reach_incrementAt {t : Tree α} (h : t.Ordered) (path target : List String)
    (v : α) (c : Int64) :
    ((t.incrementAt target v c).reach path).entry
      = if target = path then (t.reach path).entry.increment v c else (t.reach path).entry := by
  rw [h.reach_incrementAt]
  by_cases hpath : path <+: target
  · obtain ⟨rest, rfl⟩ := hpath
    rw [if_pos (List.prefix_append path rest), List.drop_left]
    cases rest with
    | nil =>
      rw [if_pos (List.append_nil path)]
      cases t.reach path
      rfl
    | cons name rest =>
      rw [if_neg (by simp)]
      exact entry_amendChild name _ _
  · have hne : target ≠ path := by
      rintro rfl
      exact hpath List.prefix_rfl
    rw [if_neg hpath, if_neg hne]

end Tree

namespace CallGraph

/-! ## Samples -/

/-- The value that a sample adds to the measurement. -/
def Columns.measured (c : Columns) (s : Sample) : Int64 := s.values.getD c.value 0

/-- The value that a sample adds to the sample count. -/
def Columns.counted (c : Columns) (s : Sample) : Int64 := s.values.getD c.count 0

/-- The samples that have a value. -/
def Columns.sampled (c : Columns) (samples : List Sample) : List Sample :=
  samples.filter fun s => c.measured s ≠ 0

/-- The samples with a value that lead to the very end of a path. -/
def Columns.endingAt (c : Columns) (path : List String) (samples : List Sample) : List Sample :=
  (c.sampled samples).filter fun s => s.path = path

theorem Columns.read?_of_needed {c : Columns} {s : Sample} (h : c.needed ≤ s.values.length) :
    c.read? s = some (c.measured s, c.counted s) := by
  rw [needed] at h
  have hvalue : c.value < s.values.length := by omega
  have hcount : c.count < s.values.length := by omega
  simp only [read?, measured, counted, List.getElem?_eq_getElem hvalue,
    List.getElem?_eq_getElem hcount, List.getD_eq_getElem?_getD, Option.getD_some]

/-- What the samples with a value add. -/
theorem Columns.hits_of_complete {c : Columns} {samples : List Sample} (h : c.Complete samples) :
    c.hits samples
      = (c.sampled samples).map fun s =>
          { path := s.path, value := c.measured s, count := c.counted s } := by
  induction samples with
  | nil => rfl
  | cons s rest ih =>
    have hread := read?_of_needed (h s List.mem_cons_self)
    have hrest := ih fun other hmem => h other (List.mem_cons_of_mem s hmem)
    by_cases hvalue : c.measured s = 0
    · have hnone : c.hit? s = none := by simp [hit?, hread, hvalue]
      rw [hits, List.filterMap_cons_none hnone, sampled, List.filter_cons_of_neg (by simp [hvalue])]
      exact hrest
    · have hsome : c.hit? s
          = some { path := s.path, value := c.measured s, count := c.counted s } := by
        simp [hit?, hread, hvalue]
      rw [hits, List.filterMap_cons_some hsome, sampled,
        List.filter_cons_of_pos (by simp [hvalue]), List.map_cons]
      exact congrArg _ hrest

/-! ## Parts of a fold -/

section Folding

variable {α : Type} [Quantity α]

/-- A fold of more samples takes up where the first ones leave off. An error puts an end to it. -/
theorem foldSamples_append (c : Columns) (first second : List Sample) (index : Nat) (t : Tree α) :
    foldSamples c (first ++ second) index t
      = match foldSamples c first index t with
        | (.error e, t) => (.error e, t)
        | (.ok m, t) =>
          match foldSamples c second (index + first.length) t with
          | (.error e, t) => (.error e, t)
          | (.ok n, t) => (.ok (m + n), t) := by
  induction first generalizing index t with
  | nil =>
    rw [List.nil_append, foldSamples]
    rcases hsecond : foldSamples c second index t with ⟨_ | n, t'⟩
    · simp [hsecond]
    · simp [hsecond]
  | cons s rest ih =>
    have hindex : index + 1 + rest.length = index + (s :: rest).length := by
      rw [List.length_cons]
      omega
    rw [List.cons_append, foldSamples, foldSamples]
    cases hread : c.read? s with
    | none => rfl
    | some found =>
      obtain ⟨value, count⟩ := found
      by_cases hvalue : value = 0
      · simp only [if_pos hvalue]
        rw [ih, hindex]
      · simp only [if_neg hvalue]
        rw [ih, hindex]
        rcases foldSamples c rest (index + 1) (addSample s value count t) with ⟨_ | m, t₁⟩
        · rfl
        · simp only [Except.map]
          rcases foldSamples c second (index + (s :: rest).length) t₁ with ⟨_ | n, t₂⟩
          · rfl
          · simp only [Nat.add_right_comm]

/-- The place of the first sample matters to the index in an error, and to nothing else. -/
theorem foldSamples_add (c : Columns) (samples : List Sample) (skipped index : Nat) (t : Tree α) :
    foldSamples c samples (skipped + index) t
      = ((foldSamples c samples index t).1.mapError (ProfileError.behind skipped),
          (foldSamples c samples index t).2) := by
  induction samples generalizing index t with
  | nil => rfl
  | cons s rest ih =>
    rw [foldSamples, foldSamples]
    cases hread : c.read? s with
    | none => rfl
    | some found =>
      obtain ⟨value, count⟩ := found
      by_cases hvalue : value = 0
      · simp only [if_pos hvalue]
        rw [Nat.add_assoc, ih]
      · simp only [if_neg hvalue]
        rw [Nat.add_assoc, ih]
        rcases foldSamples c rest (index + 1) (addSample s value count t) with ⟨_ | m, t'⟩ <;> rfl

/-- The first sample that is too short ends the fold, and what was folded before it stays. -/
theorem foldSamples_of_short {c : Columns} {before after : List Sample} {s : Sample}
    (h : c.Complete before) (hs : s.values.length < c.needed) (t : Tree α) :
    foldSamples c (before ++ s :: after) 0 t
      = (.error (.malformedSample before.length s.values.length c.needed),
          grow t (c.hits before)) := by
  rw [foldSamples_append, foldSamples_of_complete h]
  simp only [foldSamples, Columns.read?_eq_none_iff.mpr hs, Nat.zero_add]

/-- Either every sample has both columns, or there is a first one that has not. -/
theorem Columns.complete_or_short (c : Columns) (samples : List Sample) :
    c.Complete samples ∨
      ∃ before s after, samples = before ++ s :: after ∧ c.Complete before ∧
        s.values.length < c.needed := by
  induction samples with
  | nil => exact .inl fun _ hmem => nomatch hmem
  | cons s rest ih =>
    by_cases hs : s.values.length < c.needed
    · exact .inr ⟨[], s, rest, rfl, (fun _ hmem => nomatch hmem), hs⟩
    · have hlong : c.needed ≤ s.values.length := Nat.le_of_not_lt hs
      rcases ih with hcomplete | ⟨before, short, after, rfl, hbefore, hshort⟩
      · exact .inl (List.forall_mem_cons.mpr ⟨hlong, hcomplete⟩)
      · exact .inr ⟨s :: before, short, after, rfl,
          List.forall_mem_cons.mpr ⟨hlong, hbefore⟩, hshort⟩

/-! ## Nodes after a fold -/

/-- A node has grown by the hits that lead to it, one after the other. -/
theorem entry_reach_grow {t : Tree α} (h : t.Ordered) (hits : List Hit) (path : List String) :
    ((grow t hits).reach path).entry
      = (hits.filter fun hit => hit.path = path).foldl
          (fun entry hit => entry.increment (Quantity.ofInt hit.value.toInt) hit.count)
          (t.reach path).entry := by
  induction hits generalizing t with
  | nil => rfl
  | cons hit rest ih =>
    rw [grow_cons, ih (h.incrementAt hit.path _ _), h.entry_reach_incrementAt]
    by_cases hpath : hit.path = path
    · rw [if_pos hpath, List.filter_cons_of_pos (by simp [hpath]), List.foldl_cons]
    · rw [if_neg hpath, List.filter_cons_of_neg (by simp [hpath])]

theorem foldl_increment {β : Type} (value : β → α) (count : β → Int64) (items : List β)
    (entry : Entry α) :
    items.foldl (fun entry item => entry.increment (value item) (count item)) entry
      = { entry with
          measurement := items.foldl (fun sum item => sum + value item) entry.measurement
          sampleCount := items.foldl (fun sum item => sum + count item) entry.sampleCount } := by
  induction items generalizing entry with
  | nil => rfl
  | cons item rest ih =>
    rw [List.foldl_cons, ih]
    rfl

/-- A node has grown by the samples that lead to it, one after the other. -/
theorem entry_reach_grow_hits {c : Columns} {samples : List Sample} (hc : c.Complete samples)
    {t : Tree α} (h : t.Ordered) (path : List String) :
    ((grow t (c.hits samples)).reach path).entry
      = { (t.reach path).entry with
          measurement := (c.endingAt path samples).foldl
            (fun sum s => sum + Quantity.ofInt (c.measured s).toInt) (t.reach path).measurement
          sampleCount := (c.endingAt path samples).foldl
            (fun sum s => sum + c.counted s) (t.reach path).sampleCount } := by
  rw [entry_reach_grow h, Columns.hits_of_complete hc, List.filter_map, List.foldl_map,
    foldl_increment]
  rfl

theorem exists_hit_iff {c : Columns} {samples : List Sample} (hc : c.Complete samples)
    (path : List String) :
    (∃ hit ∈ c.hits samples, path <+: hit.path) ↔
      ∃ s ∈ samples, c.measured s ≠ 0 ∧ path <+: s.path := by
  rw [Columns.hits_of_complete hc]
  constructor
  · rintro ⟨hit, hmem, hpath⟩
    obtain ⟨s, hs, rfl⟩ := List.mem_map.mp hmem
    obtain ⟨hs, hvalue⟩ := List.mem_filter.mp hs
    exact ⟨s, hs, of_decide_eq_true hvalue, hpath⟩
  · rintro ⟨s, hs, hvalue, hpath⟩
    exact ⟨_, List.mem_map_of_mem (List.mem_filter.mpr ⟨hs, decide_eq_true hvalue⟩), hpath⟩

/-! ## Profiles -/

/-- What folding a profile into a tree comes to. -/
structure Folded (p : Profile) (valueKind countKind : String) (t : Tree α) : Prop where
  /-- a column is missing; the one that is measured is looked for first -/
  missing : ∀ kind,
    (fold p valueKind countKind t).1 = .error (.missingSampleType kind) ↔
      (p.Lacks valueKind ∧ kind = valueKind) ∨
        (¬ p.Lacks valueKind ∧ p.Lacks countKind ∧ kind = countKind)
  /-- then the tree is left alone -/
  untouched : p.Lacks valueKind ∨ p.Lacks countKind → (fold p valueKind countKind t).2 = t
  /-- some sample does not reach both columns -/
  malformed :
    (∃ index found expected,
        (fold p valueKind countKind t).1 = .error (.malformedSample index found expected)) ↔
      ∃ c, columns p valueKind countKind = .ok c ∧
        ∃ s ∈ p.samples, s.values.length ≤ max c.value c.count
  /-- it is the first such sample that is told, with what it has and what it would need, and what
  was folded before it stays -/
  first : ∀ index found expected,
    (fold p valueKind countKind t).1 = .error (.malformedSample index found expected) →
      ∃ c s, columns p valueKind countKind = .ok c ∧ p.samples[index]? = some s ∧
        s.values.length ≤ max c.value c.count ∧
        (∀ earlier ∈ p.samples.take index, max c.value c.count < earlier.values.length) ∧
        found = s.values.length ∧ expected = max c.value c.count + 1 ∧
        (fold { p with samples := p.samples.take index } valueKind countKind t).1.isOk ∧
        (fold p valueKind countKind t).2
          = (fold { p with samples := p.samples.take index } valueKind countKind t).2
  /-- otherwise the samples with a value have been folded, and are counted -/
  total : ∀ c, columns p valueKind countKind = .ok c →
    (∀ s ∈ p.samples, max c.value c.count < s.values.length) →
      (fold p valueKind countKind t).1 = .ok (p.samples.countP fun s => c.measured s ≠ 0)
  /-- then there are the nodes there were, and those that samples with a value lead to or pass by -/
  nodes : ∀ c n, columns p valueKind countKind = .ok c → (fold p valueKind countKind t).1 = .ok n →
    ∀ path, ((fold p valueKind countKind t).2.at? path).isSome ↔
      (t.at? path).isSome ∨ ∃ s ∈ p.samples, c.measured s ≠ 0 ∧ path <+: s.path
  /-- and to each of them the samples that lead to it have been added, in their order -/
  entries : ∀ c n, columns p valueKind countKind = .ok c → (fold p valueKind countKind t).1 = .ok n →
    ∀ path sub, (fold p valueKind countKind t).2.at? path = some sub →
      sub.entry
        = { (t.reach path).entry with
            measurement := (c.endingAt path p.samples).foldl
              (fun sum s => sum + Quantity.ofInt (c.measured s).toInt) (t.reach path).measurement
            sampleCount := (c.endingAt path p.samples).foldl
              (fun sum s => sum + c.counted s) (t.reach path).sampleCount }
  /-- a second profile with the same columns might as well be the rest of the first -/
  appended : ∀ second : Profile, second.sampleTypes = p.sampleTypes →
    fold { p with samples := p.samples ++ second.samples } valueKind countKind t
      = match fold p valueKind countKind t with
        | (.error e, t') => (.error e, t')
        | (.ok m, t') =>
          match fold second valueKind countKind t' with
          | (.error e, t'') => (.error (e.behind p.samples.length), t'')
          | (.ok n, t'') => (.ok (m + n), t'')

theorem fold_of_columns {p : Profile} {valueKind countKind : String} {c : Columns}
    (hc : columns p valueKind countKind = .ok c) (t : Tree α) :
    fold p valueKind countKind t = foldSamples c p.samples 0 t := by
  rw [fold, hc]

theorem complete_iff {c : Columns} {samples : List Sample} :
    c.Complete samples ↔ ∀ s ∈ samples, max c.value c.count < s.values.length :=
  Iff.rfl

theorem not_lacks_of_columns {p : Profile} {valueKind countKind : String} {c : Columns}
    (hc : columns p valueKind countKind = .ok c) :
    ¬ p.Lacks valueKind ∧ ¬ p.Lacks countKind := by
  obtain ⟨hvalue, hcount⟩ := columns_eq_ok_iff.mp hc
  simp [← Profile.column?_eq_none_iff, hvalue, hcount]

/-- The columns are found, or one of them is missing. -/
theorem columns_cases (p : Profile) (valueKind countKind : String) :
    (∃ kind, columns p valueKind countKind = .error (.missingSampleType kind) ∧
        ∀ other, kind = other ↔
          (p.Lacks valueKind ∧ other = valueKind) ∨
            (¬ p.Lacks valueKind ∧ p.Lacks countKind ∧ other = countKind)) ∨
      ∃ c, columns p valueKind countKind = .ok c := by
  simp only [← Profile.column?_eq_none_iff, columns]
  cases hvalue : p.column? valueKind with
  | none => exact .inl ⟨valueKind, rfl, fun other => by simp [eq_comm]⟩
  | some value =>
    cases hcount : p.column? countKind with
    | none => exact .inl ⟨countKind, rfl, fun other => by simp [eq_comm]⟩
    | some count => exact .inr ⟨_, rfl⟩

/-- Without one of the columns nothing is folded, however many samples there are. -/
theorem folded_of_missing {p : Profile} {valueKind countKind kind : String}
    (hcolumns : columns p valueKind countKind = .error (.missingSampleType kind))
    (hkind : ∀ other, kind = other ↔
      (p.Lacks valueKind ∧ other = valueKind) ∨
        (¬ p.Lacks valueKind ∧ p.Lacks countKind ∧ other = countKind))
    (t : Tree α) : Folded p valueKind countKind t := by
  have hfold : ∀ samples, fold { p with samples } valueKind countKind t
      = (.error (.missingSampleType kind), t) := by
    intro samples
    have hsamples : columns { p with samples } valueKind countKind
        = .error (.missingSampleType kind) := hcolumns
    rw [fold, hsamples]
  have hself := hfold p.samples
  refine ⟨fun other => ?_, fun _ => ?_, ?_, ?_, ?_, ?_, ?_, fun second _ => ?_⟩
  · rw [hself, ← hkind other]
    simp only [Except.error.injEq, ProfileError.missingSampleType.injEq]
  · rw [hself]
  · rw [hself, hcolumns]
    simp
  · rw [hself]
    intro index found expected h
    cases h
  · rw [hcolumns]
    intro c hc
    cases hc
  · rw [hcolumns]
    intro c n hc
    cases hc
  · rw [hcolumns]
    intro c n hc
    cases hc
  · rw [hfold, hself]

/-- Folding one profile after another is folding their samples. -/
theorem fold_append {p second : Profile} {valueKind countKind : String} {c : Columns}
    (hc : columns p valueKind countKind = .ok c) (htypes : second.sampleTypes = p.sampleTypes)
    (t : Tree α) :
    fold { p with samples := p.samples ++ second.samples } valueKind countKind t
      = match fold p valueKind countKind t with
        | (.error e, t') => (.error e, t')
        | (.ok m, t') =>
          match fold second valueKind countKind t' with
          | (.error e, t'') => (.error (e.behind p.samples.length), t'')
          | (.ok n, t'') => (.ok (m + n), t'') := by
  have hboth : columns { p with samples := p.samples ++ second.samples } valueKind countKind
      = .ok c := hc
  have hsecond : columns second valueKind countKind = .ok c :=
    (columns_congr htypes valueKind countKind).trans hc
  rw [fold_of_columns hboth, fold_of_columns hc, foldSamples_append]
  rcases foldSamples c p.samples 0 t with ⟨e | m, t'⟩
  · rfl
  · simp only [fold_of_columns hsecond]
    rw [Nat.add_comm 0, foldSamples_add]
    rcases foldSamples c second.samples 0 t' with ⟨e | n, t''⟩ <;> rfl

/-- With samples that all reach both columns, everything is folded that has a value. -/
theorem folded_of_complete {p : Profile} {valueKind countKind : String} {c : Columns}
    (hc : columns p valueKind countKind = .ok c) (hcomplete : c.Complete p.samples) {t : Tree α}
    (h : t.Ordered) : Folded p valueKind countKind t := by
  have hfold := fold_of_complete hc hcomplete t
  obtain ⟨hvalue, hcount⟩ := not_lacks_of_columns hc
  have hsame : ∀ {c'}, columns p valueKind countKind = .ok c' → c' = c := by
    intro c' hc'
    exact Except.ok.inj (hc'.symm.trans hc)
  refine ⟨fun kind => ?_, fun hlacks => ?_, ?_, ?_, ?_, ?_, ?_,
    fun _ htypes => fold_append hc htypes t⟩
  · rw [hfold]
    simp [hvalue, hcount]
  · simp [hvalue, hcount] at hlacks
  · rw [hfold]
    constructor
    · nofun
    · rintro ⟨c', hc', s, hmem, hs⟩
      obtain rfl := hsame hc'
      have hlong := complete_iff.mp hcomplete s hmem
      omega
  · rw [hfold]
    nofun
  · intro c' hc' _
    obtain rfl := hsame hc'
    rw [hfold, Columns.hits_of_complete hcomplete, List.length_map, List.countP_eq_length_filter]
    rfl
  · intro c' n hc' _ path
    obtain rfl := hsame hc'
    rw [hfold, isSome_at?_grow_iff h, exists_hit_iff hcomplete]
  · intro c' n hc' _ path sub hsub
    obtain rfl := hsame hc'
    rw [hfold] at hsub
    rw [← entry_reach_grow_hits hcomplete h, Tree.reach_eq_of_at? hsub]

/-- A sample that is too short is told, and everything before the first one is folded. -/
theorem folded_of_short {p : Profile} {valueKind countKind : String} {c : Columns}
    (hc : columns p valueKind countKind = .ok c) {before after : List Sample} {s : Sample}
    (hsamples : p.samples = before ++ s :: after) (hbefore : c.Complete before)
    (hshort : s.values.length < c.needed) (t : Tree α) : Folded p valueKind countKind t := by
  have hfold : fold p valueKind countKind t
      = (.error (.malformedSample before.length s.values.length c.needed),
          grow t (c.hits before)) := by
    rw [fold_of_columns hc, hsamples, foldSamples_of_short hbefore hshort]
  have hc' : columns { p with samples := before } valueKind countKind = .ok c := hc
  have hfirst : fold { p with samples := before } valueKind countKind t
      = (.ok (c.hits before).length, grow t (c.hits before)) := fold_of_complete hc' hbefore t
  have htaken : p.samples.take before.length = before := by
    rw [hsamples, List.take_left]
  have hle : s.values.length ≤ max c.value c.count := Nat.le_of_lt_succ hshort
  have hmem : s ∈ p.samples := by
    rw [hsamples]
    simp
  obtain ⟨hvalue, hcount⟩ := not_lacks_of_columns hc
  refine ⟨fun kind => ?_, fun hlacks => ?_, ?_, ?_, ?_, ?_, ?_,
    fun _ htypes => fold_append hc htypes t⟩
  · rw [hfold]
    simp [hvalue, hcount]
  · simp [hvalue, hcount] at hlacks
  · rw [hfold]
    exact ⟨fun _ => ⟨c, hc, s, hmem, hle⟩, fun _ => ⟨_, _, _, rfl⟩⟩
  · intro index found expected herror
    rw [hfold] at herror
    cases herror
    refine ⟨c, s, hc, ?_, hle, ?_, rfl, rfl, ?_, ?_⟩
    · rw [hsamples]
      simp
    · rw [htaken]
      exact complete_iff.mp hbefore
    · rw [htaken, hfirst]
      rfl
    · rw [htaken, hfirst, hfold]
  · intro c' hc' hall
    obtain rfl := Except.ok.inj (hc'.symm.trans hc)
    have hlong := hall s hmem
    omega
  · rw [hfold]
    nofun
  · rw [hfold]
    nofun

/-- A profile with a recursion, an empty stack, a sample without a value and a value below zero, in
which the last sample is cut short. -/
def uneven : Profile :=
  let main : Frame := ⟨"main", none, none⟩
  let walk : Frame := ⟨"walk", some "walk.c", some 7⟩
  { sampleTypes := [{ kind := "objects", unit := "count" }, { kind := "space", unit := "bytes" }]
    samples := [
      { frames := [walk, walk, main], values := [2, 64] }, { frames := [], values := [1, 8] },
      { frames := [walk, main], values := [5, 0] }, { frames := [main], values := [1, -16] },
      { frames := [main], values := [1] }] }

/-- A tree that holds something before the profile is folded. -/
def occupied : Tree Float := Tree.root.incrementAt ["main (?)"] 0.1 3

end Folding

end CallGraph

end Telemetry
