import Telemetry.Outlet
import Telemetry.Proofs.Identity.Hashed

/-!
# What a metric is known by

A metric is known by seven things: the application, its environment and the host it is reported
from, and its kind, category, name and unit. Its id is the digest of their texts, written one after
the other.

Metrics for which all seven agree have the same id. Metrics for which some differ are told apart by
the bytes that are hashed as long as at most one of the seven differs in length (`identified`), so
in particular if only one of them differs at all. If two of them differ in length, one can make up
for the other: an environment may as well be the end of the application's name (`hashed_joinNames`).

Within one agent the first three are the same for all metrics, and no kind is the beginning of
another one. So there the kind and the name tell metrics of one category and unit apart
(`Identity.SameReporter.eq_iff_hashed`).
-/

namespace Telemetry

/-! ## Labels are known by their texts -/

theorem MetricKind.text_inj {k k' : MetricKind} (h : k.text = k'.text) : k = k' := by
  have htext := ofText?_text k
  rw [h, ofText?_text k'] at htext
  exact (Option.some.inj htext).symm

theorem Category.text_inj {c c' : Category} (h : c.text = c'.text) : c = c' := by
  have htext := ofText?_text c
  rw [h, ofText?_text c'] at htext
  exact (Option.some.inj htext).symm

theorem MeasureUnit.text_inj {u u' : MeasureUnit} (h : u.text = u'.text) : u = u' := by
  have htext := ofText?_text u
  rw [h, ofText?_text u'] at htext
  exact (Option.some.inj htext).symm

/-- No kind is the beginning of another one. -/
theorem MetricKind.eq_of_text_append {k k' : MetricKind} {rest rest' : List Char}
    (h : k.text.toList ++ rest = k'.text.toList ++ rest') : k = k' := by
  -- their first letters differ already
  cases k <;> cases k' <;> simp_all [text]

namespace Metric

/-- What a metric is known by: who reports it, and its labels. -/
structure Identity where
  appName : String
  appEnvironment : String
  hostName : String
  kind : MetricKind
  category : Category
  name : String
  unit : MeasureUnit
  deriving DecidableEq, Repr

/-- What a metric made under a configuration is known by. -/
def identity (config : Config) (kind : MetricKind) (category : Category) (name : String)
    (unit : MeasureUnit) : Identity :=
  { appName := config.appName, appEnvironment := config.appEnvironment
    hostName := config.hostName, kind, category, name, unit }

namespace Identity

/-- The texts of all seven. -/
def parts (i : Identity) : List String :=
  [i.appName, i.appEnvironment, i.hostName, i.kind.text, i.category.text, i.name, i.unit.text]

/-- The bytes that are hashed for the id of a metric. -/
def hashed (i : Identity) : ByteArray := HashId.hashed i.parts

/-- The number of things that two metrics are known by whose texts differ in length. -/
def resized (i j : Identity) : Nat := HashId.resized i.parts j.parts

variable {i j : Identity}

theorem parts_inj : i.parts = j.parts ↔ i = j := by
  constructor
  · intro h
    simp only [parts, List.cons.injEq, and_true] at h
    obtain ⟨happ, henvironment, hhost, hkind, hcategory, hname, hunit⟩ := h
    cases i
    cases j
    cases happ
    cases henvironment
    cases hhost
    cases MetricKind.text_inj hkind
    cases Category.text_inj hcategory
    cases hname
    cases MeasureUnit.text_inj hunit
    rfl
  · rintro rfl
    rfl

/-- Metrics are told apart by what is hashed if at most one of the seven differs in length. -/
theorem eq_iff_hashed (i j : Identity) : i = j ↔ i.hashed = j.hashed ∧ i.resized j ≤ 1 :=
  parts_inj.symm.trans (HashId.eq_iff_hashed rfl)

/-! ## Within one agent -/

/-- Whether two metrics are reported by the same agent. -/
structure SameReporter (i j : Identity) : Prop where
  appName : i.appName = j.appName
  appEnvironment : i.appEnvironment = j.appEnvironment
  hostName : i.hostName = j.hostName

/-- What the labels of a metric spell behind its kind. -/
def spelledLabels (i : Identity) : List Char :=
  HashId.spelled [i.category.text, i.name, i.unit.text]

/-- The metrics of one agent look the same to the digest just if they are of one kind and their
other labels spell the same. -/
theorem SameReporter.hashed_eq_iff (h : SameReporter i j) :
    i.hashed = j.hashed ↔ i.kind = j.kind ∧ i.spelledLabels = j.spelledLabels := by
  have hspelled : ∀ i : Identity, HashId.spelled i.parts
      = (i.appName.toList ++ i.appEnvironment.toList ++ i.hostName.toList)
        ++ (i.kind.text.toList ++ i.spelledLabels) := by
    intro i
    simp only [HashId.spelled, parts, spelledLabels, List.flatMap_cons, List.append_assoc]
  rw [hashed, hashed, HashId.hashed_eq_iff, hspelled i, hspelled j, h.appName, h.appEnvironment,
    h.hostName, List.append_cancel_left_eq]
  constructor
  · intro heq
    have hkind := MetricKind.eq_of_text_append heq
    rw [hkind, List.append_cancel_left_eq] at heq
    exact ⟨hkind, heq⟩
  · rintro ⟨hkind, hlabels⟩
    rw [hkind, hlabels]

/-- Metrics of one agent that have the same category and unit are told apart. -/
theorem SameReporter.eq_iff_hashed (h : SameReporter i j) (hcategory : i.category = j.category)
    (hunit : i.unit = j.unit) : i = j ↔ i.hashed = j.hashed := by
  constructor
  · rintro rfl
    rfl
  · intro heq
    obtain ⟨hkind, -⟩ := h.hashed_eq_iff.mp heq
    -- only the name is left to have another length
    refine (Identity.eq_iff_hashed i j).mpr ⟨heq, ?_⟩
    simp only [resized, HashId.resized, parts, h.appName, h.appEnvironment, h.hostName, hkind,
      hcategory, hunit]
    by_cases hname : i.name.length = j.name.length <;> simp [hname]

/-! ## Across agents -/

/-- The metric of an application whose name ends in what was its environment. -/
def joinNames (i : Identity) : Identity :=
  { i with appName := i.appName ++ i.appEnvironment, appEnvironment := "" }

/-- It cannot be seen where the name of the application ends and its environment begins. -/
theorem hashed_joinNames (i : Identity) : i.joinNames.hashed = i.hashed := by
  rw [hashed, hashed, HashId.hashed_eq_iff]
  simp [HashId.spelled, parts, joinNames]

end Identity

variable {α β : Type}

/-- The id of a metric is the digest of what it is known by. -/
theorem id_create (config : Config) (kind : MetricKind) (category : Category) (name : String)
    (unit : MeasureUnit) :
    (create config kind category name unit : Metric α β).id
      = ⟨Sha256.hex (identity config kind category name unit).hashed⟩ := rfl

/-- The id of a metric is the digest of bytes that are the same for metrics that are known by the
same. For others these bytes differ, unless two or more of the seven things that metrics are known by
differ in length. -/
theorem identified (config config' : Config) (kind kind' : MetricKind)
    (category category' : Category) (name name' : String) (unit unit' : MeasureUnit) :
    let m : Metric α β := create config kind category name unit
    let m' : Metric α β := create config' kind' category' name' unit'
    let i := identity config kind category name unit
    let i' := identity config' kind' category' name' unit'
    m.id = ⟨Sha256.hex i.hashed⟩ ∧ m'.id = ⟨Sha256.hex i'.hashed⟩ ∧
      (i = i' ↔ i.hashed = i'.hashed ∧ i.resized i' ≤ 1) := by
  intro m m' i i'
  exact ⟨id_create config kind category name unit, id_create config' kind' category' name' unit',
    Identity.eq_iff_hashed i i'⟩

/-- The metric of an application in one environment has the id of a metric of another application.
-/
theorem unidentified :
    let config : Config := { appName := "shop", appEnvironment := "prod" }
    let config' : Config := { appName := "shopprod" }
    let i := identity config .state .cpu "CPU usage" .percent
    let i' := identity config' .state .cpu "CPU usage" .percent
    i ≠ i' ∧ i.hashed = i'.hashed ∧
      (create config .state .cpu "CPU usage" .percent : Metric Float (Tree Float)).id
        = (create config' .state .cpu "CPU usage" .percent : Metric Float (Tree Float)).id := by
  intro config config' i i'
  have hhashed : i'.hashed = i.hashed := i.hashed_joinNames
  refine ⟨by decide, hhashed.symm, ?_⟩
  rw [id_create, id_create]
  exact congrArg (fun bytes => HashId.mk (Sha256.hex bytes)) hhashed.symm

end Metric

end Telemetry
