import Telemetry.Json.Basic

/-!
# Records in JSON

A record is written as an object with one field for each of its parts. It can also be read from an
array that lists the parts in their order. `record?` finds the parts either way:

* in an object, fields of other names are skipped, and a known name given twice is an error;
* in an array, there must be exactly one element for each part.

What a part holds is read by the functions below, each of which refuses every value but its own
kind.
-/

namespace Telemetry.Json

/-- The value of the only field with a name: `some none` if there is no such field, and nothing if
there are several. -/
def fieldOnce? (fields : List (String × Json)) (name : String) : Option (Option Json) :=
  match fields.filter (·.1 == name) with
  | [] => some none
  | [(_, value)] => some (some value)
  | _ => none

/-- The parts of a record in the order of their names, `none` standing for a missing one. -/
def record? (names : List String) : Json → Option (List (Option Json))
  | .object fields => names.mapM (fieldOnce? fields)
  | .array elements =>
    if elements.length = names.length then some (elements.map some) else none
  | _ => none

/-- The parts of a record of which any may be missing: an array may stop early. -/
def partialRecord? (names : List String) : Json → Option (List (Option Json))
  | .object fields => names.mapM (fieldOnce? fields)
  | .array elements =>
    if elements.length ≤ names.length then
      some (elements.map some ++ List.replicate (names.length - elements.length) none)
    else none
  | _ => none

/-! ## Parts -/

/-- A string. -/
def string? : Json → Option String
  | .string s => some s
  | _ => none

/-- A truth value. -/
def bool? : Json → Option Bool
  | .bool b => some b
  | _ => none

/-- A signed whole number of 64 bits. -/
def int64? : Json → Option Int64
  | .number (.whole n) =>
    if Int64.minValue.toInt ≤ n ∧ n ≤ Int64.maxValue.toInt then some (Int64.ofInt n) else none
  | _ => none

/-- An unsigned whole number of 64 bits. -/
def uint64? : Json → Option UInt64
  | .number (.whole n) =>
    if 0 ≤ n ∧ n.toNat < UInt64.size then some (UInt64.ofNat n.toNat) else none
  | _ => none

/-- A finite double; a whole number counts as one. -/
def float? : Json → Option Float
  | .number (.whole n) => some (Float.ofInt n)
  | .number (.real x) => if x.isFinite then some x else none
  | _ => none

/-- The elements of an array. -/
def array? : Json → Option (List Json)
  | .array elements => some elements
  | _ => none

/-- A label: its text, or an object whose only field is named by the text and holds `null`. -/
def label? {α : Type} (ofText? : String → Option α) : Json → Option α
  | .string s => ofText? s
  | .object [(s, .null)] => ofText? s
  | _ => none

/-- A part that must be there. -/
def required {α : Type} (read? : Json → Option α) (part : Option Json) : Option α :=
  part.bind read?

/-- A part that may be missing or `null`. -/
def optional {α : Type} (read? : Json → Option α) : Option Json → Option (Option α)
  | none => some none
  | some .null => some none
  | some value => (read? value).map some

/-- A part that keeps its default if it is missing. -/
def withDefault {α : Type} (read? : Json → Option α) (default : α) : Option Json → Option α
  | none => some default
  | some value => read? value

/-! ## Sizes

A part is smaller than its record, so records that hold records can be read by recursion. -/

theorem sizeOf_of_fieldOnce? {fields : List (String × Json)} {name : String} {value : Json}
    (h : fieldOnce? fields name = some (some value)) : sizeOf value < sizeOf fields := by
  unfold fieldOnce? at h
  split at h
  · simp at h
  · rename_i key found hfilter
    simp only [Option.some.injEq] at h
    subst h
    have hmem : (key, found) ∈ fields := by
      have : (key, found) ∈ fields.filter (·.1 == name) := by rw [hfilter]; simp
      exact (List.mem_filter.mp this).1
    have := List.sizeOf_lt_of_mem hmem
    simp only [Prod.mk.sizeOf_spec] at this
    omega
  · simp at h

theorem exists_fieldOnce?_of_mem_mapM {fields : List (String × Json)} {names : List String}
    {parts : List (Option Json)} {value : Json} (h : names.mapM (fieldOnce? fields) = some parts)
    (hmem : some value ∈ parts) : ∃ name, fieldOnce? fields name = some (some value) := by
  induction names generalizing parts with
  | nil =>
    simp only [List.mapM_nil, Option.pure_def, Option.some.injEq] at h
    subst h
    simp at hmem
  | cons name names ih =>
    simp only [List.mapM_cons, Option.pure_def, Option.bind_eq_bind, Option.bind_eq_some_iff] at h
    obtain ⟨first, hfirst, others, hothers, hparts⟩ := h
    simp only [Option.some.injEq] at hparts
    subst hparts
    rcases List.mem_cons.mp hmem with heq | hmem
    · exact ⟨name, heq ▸ hfirst⟩
    · exact ih hothers hmem

theorem sizeOf_of_record? {names : List String} {j value : Json} {parts : List (Option Json)}
    (h : record? names j = some parts) (hmem : some value ∈ parts) : sizeOf value < sizeOf j := by
  unfold record? at h
  split at h
  · rename_i fields
    obtain ⟨name, hname⟩ := exists_fieldOnce?_of_mem_mapM h hmem
    have := sizeOf_of_fieldOnce? hname
    simp only [Json.object.sizeOf_spec]
    omega
  · rename_i elements
    split at h
    · simp only [Option.some.injEq] at h
      subst h
      simp only [List.mem_map, Option.some.injEq, exists_eq_right] at hmem
      have := List.sizeOf_lt_of_mem hmem
      simp only [Json.array.sizeOf_spec]
      omega
    · simp at h
  · simp at h

end Telemetry.Json
