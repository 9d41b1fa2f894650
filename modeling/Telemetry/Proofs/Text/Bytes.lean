import Mathlib.Tactic.SplitIfs
import Telemetry.Sorted

/-!
# Names by their bytes

Names are sorted by their code points. A name that travels as UTF-8 may be compared by its bytes as
well: the encoding keeps the order (`bytes_lt_iff`), since of two characters the lesser has the
lesser byte where they first differ, whatever follows (`encode_lt`).
-/

namespace Telemetry.Text

/-- The bytes of a text. -/
def bytes (s : String) : List UInt8 := s.toUTF8.data.toList

theorem bytes_eq (s : String) : bytes s = s.toList.flatMap String.utf8EncodeChar := by
  have hencode := congrArg (fun array => array.data.toList) (String.utf8Encode_toList (b := s))
  rw [List.utf8Encode, List.toList_data_toByteArray] at hencode
  exact hencode.symm

/-! ## Characters -/

theorem toNat_lt (c : Char) : c.val.toNat < 0x110000 := by
  rcases c.valid with h | ⟨-, h⟩
  · exact Nat.lt_trans h (by decide)
  · exact h

/-- The bytes of a lesser character come first, whatever follows. -/
theorem encode_lt {c d : Char} (h : c < d) (u v : List UInt8) :
    String.utf8EncodeChar c ++ u < String.utf8EncodeChar d ++ v := by
  have hlt : c.val.toNat < d.val.toNat := h
  have hd := toNat_lt d
  -- all digits but the first are those of a number to the base 64
  have hdigit : ∀ n : Nat, n / 4096 = n / 64 / 64 ∧ n / 262144 = n / 64 / 64 / 64 := by omega
  simp only [String.utf8EncodeChar, hdigit]
  -- the first byte tells the lengths apart, and of one length the digits are in order
  split_ifs <;>
    simp only [List.cons_append, List.nil_append, List.cons_lt_cons_iff, UInt8.lt_iff_toNat_lt,
      ← UInt8.toNat_inj, UInt8.toNat_ofNat'] <;>
    omega

/-- A character that is no control has no byte of a control. -/
theorem le_of_mem_encode {c : Char} (h : 0x20 ≤ c.toNat) {byte : UInt8}
    (hmem : byte ∈ String.utf8EncodeChar c) : 0x20 ≤ byte.toNat := by
  have hval : 0x20 ≤ c.val.toNat := h
  have hc := toNat_lt c
  simp only [String.utf8EncodeChar] at hmem
  split_ifs at hmem <;>
    simp only [List.mem_cons, List.not_mem_nil, or_false] at hmem <;>
    rcases hmem with rfl | rfl | rfl | rfl <;>
    rw [UInt8.toNat_ofNat'] <;>
    omega

/-! ## Texts -/

theorem le_of_mem_bytes {s : String} (h : ∀ c ∈ s.toList, 0x20 ≤ c.toNat) :
    ∀ byte ∈ bytes s, 0x20 ≤ byte.toNat := by
  intro byte hmem
  rw [bytes_eq] at hmem
  obtain ⟨c, hc, hbyte⟩ := List.mem_flatMap.mp hmem
  exact le_of_mem_encode (h c hc) hbyte

theorem flatMap_encode_lt {l m : List Char} (h : l < m) :
    l.flatMap String.utf8EncodeChar < m.flatMap String.utf8EncodeChar := by
  induction h with
  | @nil d m =>
    obtain ⟨byte, rest, hbytes⟩ := List.exists_cons_of_ne_nil (String.utf8EncodeChar_ne_nil (c := d))
    rw [List.flatMap_nil, List.flatMap_cons, hbytes]
    exact List.nil_lt_cons byte _
  | @rel c l d m h =>
    rw [List.flatMap_cons, List.flatMap_cons]
    exact encode_lt h _ _
  | @cons c l m _ ih =>
    rw [List.flatMap_cons, List.flatMap_cons]
    exact List.append_left_lt ih

/-- The order of names is the order of their bytes. -/
theorem bytes_lt_iff {a b : String} : bytes a < bytes b ↔ a < b := by
  have hmono : ∀ {a b : String}, a < b → bytes a < bytes b := by
    intro a b h
    rw [bytes_eq, bytes_eq]
    exact flatMap_encode_lt h
  refine ⟨fun h => ?_, hmono⟩
  rcases Sorted.lt_or_eq_or_gt a b with hlt | rfl | hgt
  · exact hlt
  · exact absurd h (List.lt_irrefl _)
  · exact absurd h (List.lt_asymm (hmono hgt))

theorem bytes_le_iff {a b : String} : bytes a ≤ bytes b ↔ a ≤ b := by
  rw [← List.not_lt, bytes_lt_iff, String.not_lt]

end Telemetry.Text
