import Telemetry.Json.Record
import Telemetry.Sorted

/-!
# Records in canonical form

Content is put into canonical form before it is queued, so a record that was written with its fields
in one order is read with its fields in another. Nothing comes of that: as long as no key is given
twice, the same fields are found under the same names, each in canonical form itself
(`fieldOnce?_sorted`), and so the parts of a record are read as they were written
(`record?_sorted`).

What a part holds is a number, a text or a list. The readers of parts find in a canonical part what
was put there, but for one thing: a double that is infinite or not a number is written as `null`,
and nothing is read from that (`float?_ofFloat`).
-/

namespace Telemetry.Json

/-! ## Fields -/

/-- Fields are put among sorted ones like everything that is sorted by name. -/
theorem putField_eq (key : String) (value : Json) (fields : List (String × Json)) :
    putField key value fields = Sorted.put Prod.fst (key, value) fields := by
  rw [Sorted.put]
  induction fields with
  | nil => rfl
  | cons field rest ih =>
    obtain ⟨k, v⟩ := field
    rw [putField]
    rcases Sorted.lt_or_eq_or_gt k key with hlt | heq | hgt
    · rw [if_neg (String.lt_asymm hlt), if_neg (Sorted.ne_of_lt hlt).symm, ih,
        Sorted.amend_cons_of_lt hlt]
    · subst heq
      have hkey : ((k, v) : String × Json).1 = k := rfl
      rw [if_neg (String.lt_irrefl k), if_pos rfl, Sorted.amend_cons_of_eq hkey]
    · rw [if_pos hgt, Sorted.amend_cons_of_gt hgt]

theorem faithful_put (key : String) (value : Json) :
    Sorted.Faithful (Prod.fst (β := Json)) key fun _ => (key, value) :=
  ⟨rfl, fun _ _ => rfl⟩

theorem ascending_sortedFields (fields : List (String × Json)) {done : List (String × Json)}
    (h : Sorted.Ascending Prod.fst done) : Sorted.Ascending Prod.fst (sortedFields fields done) := by
  induction fields generalizing done with
  | nil =>
    rw [sortedFields]
    exact h
  | cons field rest ih =>
    obtain ⟨key, value⟩ := field
    rw [sortedFields, putField_eq]
    exact ih (Sorted.ascending_amend (faithful_put key value.sorted) h)

/-- What is found among sorted fields: the field itself, or what was there before. -/
theorem find?_sortedFields {fields : List (String × Json)} (hnodup : (fields.map Prod.fst).Nodup)
    {done : List (String × Json)} (h : Sorted.Ascending Prod.fst done) (name : String) :
    Sorted.find? Prod.fst name (sortedFields fields done)
      = ((Sorted.find? Prod.fst name fields).map fun field => (field.1, field.2.sorted)).or
          (Sorted.find? Prod.fst name done) := by
  induction fields generalizing done with
  | nil => rw [sortedFields]; rfl
  | cons field rest ih =>
    obtain ⟨key, value⟩ := field
    obtain ⟨hfirst, hrest⟩ := List.nodup_cons.mp hnodup
    have hput := faithful_put key value.sorted
    have hdone := Sorted.ascending_amend hput h
    rw [sortedFields, putField_eq]
    refine (ih hrest hdone).trans ?_
    by_cases hname : key = name
    · -- the key is not given again, so nothing is put in the place of this field
      subst hname
      have hnone : Sorted.find? Prod.fst key rest = none := by
        rw [← Option.not_isSome_iff_eq_none, Sorted.isSome_find?_iff]
        exact hfirst
      have hkey : ((key, value) : String × Json).1 = key := rfl
      rw [hnone, Sorted.find?_cons_of_eq hkey]
      exact Sorted.find?_amend_self hput h
    · rw [Sorted.find?_cons_of_ne hname]
      exact congrArg _ (Sorted.find?_amend_of_ne hput hname)

theorem fieldOnce?_of_nodup {fields : List (String × Json)}
    (hnodup : (fields.map Prod.fst).Nodup) (name : String) :
    fieldOnce? fields name = some ((Sorted.find? Prod.fst name fields).map Prod.snd) := by
  rw [fieldOnce?, Sorted.filter_name hnodup]
  cases Sorted.find? Prod.fst name fields <;> rfl

/-- A field is found in canonical form where it was found before. -/
theorem fieldOnce?_sorted {fields : List (String × Json)} (hnodup : (fields.map Prod.fst).Nodup)
    (name : String) :
    fieldOnce? (sortedFields fields []) name
      = (fieldOnce? fields name).map (Option.map Json.sorted) := by
  have hempty : Sorted.Ascending Prod.fst ([] : List (String × Json)) := List.Pairwise.nil
  rw [fieldOnce?_of_nodup (Sorted.nodup_names (ascending_sortedFields fields hempty)),
    fieldOnce?_of_nodup hnodup, find?_sortedFields hnodup hempty]
  cases Sorted.find? Prod.fst name fields <;> rfl

/-! ## Lists of results -/

theorem mapM_eq_some_of_forall {β γ : Type} {f : β → Option γ} {g : β → γ} {items : List β}
    (h : ∀ item ∈ items, f item = some (g item)) : items.mapM f = some (items.map g) := by
  induction items with
  | nil => rfl
  | cons item rest ih =>
    obtain ⟨hitem, hrest⟩ := List.forall_mem_cons.mp h
    rw [List.mapM_cons, hitem, ih hrest]
    rfl

theorem mapM_eq_none_of_mem {β γ : Type} {f : β → Option γ} {items : List β} {item : β}
    (hmem : item ∈ items) (hnone : f item = none) : items.mapM f = none := by
  induction items with
  | nil => cases hmem
  | cons first rest ih =>
    rw [List.mapM_cons]
    rcases List.mem_cons.mp hmem with rfl | hmem
    · rw [hnone]
      rfl
    · rw [ih hmem]
      cases f first <;> rfl

/-! ## Parts -/

/-- The parts of a record that was written in full are those that were written. -/
theorem record?_sorted {names : List String} (hnodup : names.Nodup)
    {fields : List (String × Json)} (hnames : fields.map Prod.fst = names) :
    record? names (Json.object fields).sorted
      = some (fields.map fun field => some field.2.sorted) := by
  subst hnames
  rw [sorted, record?, List.mapM_map]
  refine mapM_eq_some_of_forall fun field hmem => ?_
  have hfind : Sorted.find? Prod.fst field.1 fields = some field := by
    have hfilter : field ∈ fields.filter fun other => other.1 == field.1 :=
      List.mem_filter.mpr ⟨hmem, beq_self_eq_true _⟩
    rw [Sorted.filter_name hnodup, Option.mem_toList] at hfilter
    exact hfilter
  rw [Function.comp, fieldOnce?_sorted hnodup, fieldOnce?_of_nodup hnodup, hfind]
  rfl

theorem sorted_array (elements : List Json) :
    (Json.array elements).sorted = .array (elements.map sorted) := by
  rw [sorted]
  congr 1
  induction elements with
  | nil => rw [sortedElements]; rfl
  | cons element rest ih => rw [sortedElements, ih, List.map_cons]

@[simp] theorem sorted_string (s : String) : (Json.string s).sorted = .string s := by rw [sorted]

@[simp] theorem sorted_ofInt (n : Int) : (ofInt n).sorted = ofInt n := by rw [ofInt, sorted]

@[simp] theorem sorted_ofNat (n : Nat) : (ofNat n).sorted = ofNat n := by rw [ofNat, sorted]

@[simp] theorem sorted_ofFloat (x : Float) : (ofFloat x).sorted = ofFloat x := by
  rw [ofFloat]
  split <;> rw [sorted]

theorem sorted_ofOption {β : Type} (encode : β → Json) (value : Option β) :
    (ofOption encode value).sorted = ofOption (fun b => (encode b).sorted) value := by
  cases value with
  | none => rw [ofOption, sorted]; rfl
  | some b => rfl

/-- A count is read as it was written. -/
theorem int64?_ofInt (n : Int64) : int64? (ofInt n.toInt) = some n := by
  rw [ofInt, int64?, if_pos ⟨Int64.minValue_le_toInt n, Int64.toInt_le n⟩, Int64.ofInt_toInt]

theorem uint64?_ofNat (n : UInt64) : uint64? (ofNat n.toNat) = some n := by
  rw [ofNat, uint64?, if_pos ⟨Int.natCast_nonneg _, n.toNat_lt⟩]
  simp

/-- A double is read as it was written if it is finite, and else not at all. -/
theorem float?_ofFloat (x : Float) : float? (ofFloat x) = if x.isFinite then some x else none := by
  rw [ofFloat]
  by_cases hfinite : x.isFinite
  · rw [if_pos hfinite, if_pos hfinite, float?, if_pos hfinite]
  · rw [if_neg hfinite, if_neg hfinite]
    rfl

/-- A part that may be `null` is read as it was written, if it can be read and is not `null`. -/
theorem optional_ofOption {β γ : Type} {read? : Json → Option γ} {encode : β → Json}
    (hnull : ∀ b, encode b ≠ .null) (value : Option β) :
    optional read? (some (ofOption encode value))
      = match value with
        | none => some none
        | some b => (read? (encode b)).map some := by
  cases value with
  | none => rfl
  | some b =>
    change optional read? (some (encode b)) = (read? (encode b)).map some
    cases hb : encode b with
    | null => exact absurd hb (hnull b)
    | _ => rfl

end Telemetry.Json
