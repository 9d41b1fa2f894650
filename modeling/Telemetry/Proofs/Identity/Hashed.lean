import Telemetry.Digest

/-!
# What the digest of an id sees

An id is the digest of several texts written one after the other. Nothing in the bytes that are
hashed says where one text ends and the next begins, so two lists of texts look the same to the
digest just if they spell the same (`hashed_eq_iff`), even if they are cut at different places.

A list of texts is known by what it spells together with the lengths of its texts. The lengths add
up to that of the whole, so no text can change its length alone while the spelling stays. Hence
lists of equally many texts are told apart unless two of the texts or more have lengths that differ
(`eq_iff_hashed`); `resized` counts these.
-/

namespace Telemetry.HashId

/-- The bytes that are hashed for the id of a text given in parts. -/
def hashed (parts : List String) : ByteArray := (joined parts).toUTF8

/-- The characters of texts written one after the other. -/
def spelled (parts : List String) : List Char := parts.flatMap String.toList

/-- The number of texts that have another length than their counterparts. -/
def resized (parts parts' : List String) : Nat :=
  (parts.zip parts').countP fun pair => pair.1.length ≠ pair.2.length

variable {parts parts' : List String} {p p' : String}

/-- Nothing stands between the parts, so what is hashed is known up to how it was split. -/
theorem hashed_eq_iff : hashed parts = hashed parts' ↔ spelled parts = spelled parts' := by
  rw [hashed, hashed, String.toUTF8_eq_toByteArray, String.toUTF8_eq_toByteArray,
    String.toByteArray_inj, ← String.toList_inj, joined, joined, String.toList_join,
    String.toList_join, spelled, spelled]

/-! ## Lengths -/

theorem length_spelled_cons (p : String) (parts : List String) :
    (spelled (p :: parts)).length = p.length + (spelled parts).length := by
  rw [spelled, List.flatMap_cons, List.length_append, String.length_toList, spelled]

theorem resized_cons_of_eq (h : p.length = p'.length) :
    resized (p :: parts) (p' :: parts') = resized parts parts' := by
  simp [resized, h]

/-- A part of another length counts as one that was resized. -/
theorem resized_cons_of_ne (h : p.length ≠ p'.length) :
    resized (p :: parts) (p' :: parts') = resized parts parts' + 1 := by
  simp [resized, h]

@[simp] theorem resized_self (parts : List String) : resized parts parts = 0 := by
  induction parts with
  | nil => rfl
  | cons p parts ih => rw [resized_cons_of_eq rfl, ih]

/-- If no part was resized, the parts end at the same places. -/
theorem lengths_eq_of_resized_eq_zero (hcount : parts.length = parts'.length)
    (h : resized parts parts' = 0) : parts.map String.length = parts'.map String.length := by
  induction parts generalizing parts' with
  | nil => rw [List.eq_nil_of_length_eq_zero hcount.symm]
  | cons p parts ih =>
    cases parts' with
    | nil => cases hcount
    | cons p' parts' =>
      by_cases hp : p.length = p'.length
      · rw [resized_cons_of_eq hp] at h
        rw [List.map_cons, List.map_cons, hp, ih (Nat.succ.inj hcount) h]
      · rw [resized_cons_of_ne hp] at h
        cases h

/-- Spelling parts out loses no character, so the sum of the lengths can be read off. -/
theorem length_spelled (parts : List String) :
    (spelled parts).length = (parts.map String.length).foldr (· + ·) 0 := by
  induction parts with
  | nil => rfl
  | cons p parts ih => rw [length_spelled_cons, ih, List.map_cons, List.foldr_cons]

/-- If the whole keeps its length, then so does a text that is the only one that might not. -/
theorem lengths_eq_of_resized_le_one (hcount : parts.length = parts'.length)
    (hwhole : (spelled parts).length = (spelled parts').length) (h : resized parts parts' ≤ 1) :
    parts.map String.length = parts'.map String.length := by
  induction parts generalizing parts' with
  | nil => rw [List.eq_nil_of_length_eq_zero hcount.symm]
  | cons p parts ih =>
    cases parts' with
    | nil => cases hcount
    | cons p' parts' =>
      rw [length_spelled_cons, length_spelled_cons] at hwhole
      have hcount : parts.length = parts'.length := Nat.succ.inj hcount
      by_cases hp : p.length = p'.length
      · rw [resized_cons_of_eq hp] at h
        have hrest : (spelled parts).length = (spelled parts').length := by omega
        rw [List.map_cons, List.map_cons, hp, ih hcount hrest h]
      · -- no other text has another length, so this one cannot have one either
        rw [resized_cons_of_ne hp] at h
        have hnone := Nat.le_zero.mp (Nat.le_of_succ_le_succ h)
        have hrest := lengths_eq_of_resized_eq_zero hcount hnone
        rw [length_spelled, length_spelled, hrest] at hwhole
        exact absurd (Nat.add_right_cancel hwhole) hp

/-! ## What tells texts apart -/

/-- Texts that spell the same and have the same lengths are the same. -/
theorem eq_of_spelled_eq (h : spelled parts = spelled parts')
    (hlengths : parts.map String.length = parts'.map String.length) : parts = parts' := by
  have hlength : List.length ∘ String.toList = String.length :=
    funext fun _ => String.length_toList
  have hlists : parts.map String.toList = parts'.map String.toList := by
    rw [List.eq_iff_flatten_eq, List.map_map, List.map_map, hlength, ← List.flatMap_def,
      ← List.flatMap_def]
    exact ⟨h, hlengths⟩
  exact (List.map_inj_right fun _ _ => String.toList_inj.mp).mp hlists

/-- Lists of equally many texts are told apart by what is hashed, unless two texts or more have
other lengths in one than in the other. -/
theorem eq_iff_hashed (hcount : parts.length = parts'.length) :
    parts = parts' ↔ hashed parts = hashed parts' ∧ resized parts parts' ≤ 1 := by
  constructor
  · rintro rfl
    exact ⟨rfl, by rw [resized_self]; exact Nat.zero_le 1⟩
  · rintro ⟨hhashed, hresized⟩
    have hspelled := hashed_eq_iff.mp hhashed
    exact eq_of_spelled_eq hspelled
      (lengths_eq_of_resized_le_one hcount (congrArg List.length hspelled) hresized)

end Telemetry.HashId
