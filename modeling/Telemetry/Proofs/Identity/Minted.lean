import Telemetry.Identity
import Telemetry.Proofs.Identity.Hashed

/-!
# Which ids of a mint are told apart

The digits of the second, of the draw and of the counter are hashed one after the other. The counter
is different for every id, but its digits stand last, behind numbers that may have any number of
digits. So what is hashed for two ids is the same just if the first digits of the later counter are
taken from the draw of the earlier id (`hashed_eq_iff`): an earlier id with the draw 11 and the
counter 1 looks like a later one with the draw 1 and the counter 11.

This never happens to ids whose counters have equally many digits, whatever the clock shows and
whatever is drawn (`hashed_ne_of_same_length`). `hashes` lists what a mint has hashed over any number
of calls, and `told_apart` says of any two of them when they are the same.
-/

namespace Telemetry.Mint

/-! ## Digits -/

/-- The decimal digits of a number. -/
def digits (n : Nat) : List Char := (toString n).toList

variable {m n : Nat}

theorem digits_eq (n : Nat) : digits n = Nat.toDigits 10 n := by
  rw [digits, Nat.toString_eq_repr, Nat.toList_repr]

theorem digits_inj (h : digits m = digits n) : m = n := by
  rw [digits_eq, digits_eq] at h
  rw [← Nat.ofDigitChars_ten_toDigits (n := m), h, Nat.ofDigitChars_ten_toDigits]

theorem length_digits_mono (h : m ≤ n) : (digits m).length ≤ (digits n).length := by
  have hpos : 0 < (digits n).length := by
    rw [digits_eq]
    exact Nat.length_toDigits_pos
  rw [digits_eq, digits_eq] at *
  have hn := (Nat.length_toDigits_le_iff (by decide) hpos).mp (Nat.le_refl _)
  exact (Nat.length_toDigits_le_iff (by decide) hpos).mpr (Nat.lt_of_le_of_lt h hn)

/-! ## Two ids -/

/-- The bytes that are hashed for the `n`-th id. -/
def hashed (moment : Moment) (n : UInt64) : ByteArray :=
  HashId.hashed (parts moment.now (moment.draw n.toNat) n)

/-- The digits that stand in front of those of the counter. -/
def front (moment : Moment) (n : Nat) : List Char :=
  digits moment.now.seconds.toNat ++ digits (moment.draw n)

/-- The first digits of the later counter are those with which the front of the earlier id goes on.
-/
def Moved (earlier : Moment) (m : Nat) (later : Moment) (n : Nat) : Prop :=
  ∃ moved, front earlier m = front later n ++ moved ∧ digits n = moved ++ digits m

variable {earlier later : Moment}

theorem spelled_parts (moment : Moment) (n : UInt64) :
    HashId.spelled (parts moment.now (moment.draw n.toNat) n)
      = front moment n.toNat ++ digits n.toNat := by
  simp only [HashId.spelled, parts, front, digits, List.flatMap_cons, List.flatMap_nil,
    List.append_nil, List.append_assoc]

/-- What is hashed for two ids is the same just if digits have moved from one number to the other. -/
theorem hashed_eq_iff {first second : UInt64} (h : first ≤ second) :
    hashed earlier first = hashed later second
      ↔ Moved earlier first.toNat later second.toNat := by
  rw [hashed, hashed, HashId.hashed_eq_iff, spelled_parts, spelled_parts,
    List.append_eq_append_iff]
  constructor
  · rintro (⟨moved, hfront, hdigits⟩ | hmoved)
    · -- the earlier counter has no more digits than the later one, so nothing has moved to it
      have hle := length_digits_mono (UInt64.le_iff_toNat_le.mp h)
      rw [hdigits, List.length_append] at hle
      obtain rfl : moved = [] := List.eq_nil_of_length_eq_zero (by omega)
      exact ⟨[], by rw [hfront, List.append_nil, List.append_nil], hdigits.symm⟩
    · exact hmoved
  · exact .inr

/-- Digits that have moved are digits that the later counter has more. -/
theorem Moved.length_lt (h : Moved earlier m later n) (hne : m ≠ n) :
    (digits m).length < (digits n).length := by
  obtain ⟨moved, -, hdigits⟩ := h
  cases moved with
  | nil => exact absurd (digits_inj hdigits.symm) hne
  | cons digit moved =>
    rw [hdigits, List.length_append, List.length_cons]
    omega

/-- Ids whose counters have equally many digits are told apart, whatever else is hashed. -/
theorem hashed_ne_of_same_length {first second : UInt64} (h : first < second)
    (hlength : (digits first.toNat).length = (digits second.toNat).length) :
    hashed earlier first ≠ hashed later second := by
  intro heq
  have hlt := UInt64.lt_iff_toNat_lt.mp h
  have hmoved := (hashed_eq_iff (UInt64.le_of_lt h)).mp heq
  exact absurd hlength (Nat.ne_of_lt (hmoved.length_lt (Nat.ne_of_lt hlt)))

/-! ## All ids of a mint -/

/-- The ids that a mint hands out when it is called at some moments, one after the other. -/
def ids (mint : Mint) : List Moment → List HashId
  | [] => []
  | moment :: rest => (mint.next moment).1 :: ids (mint.next moment).2 rest

/-- The bytes that are hashed for them. -/
def hashes (mint : Mint) : List Moment → List ByteArray
  | [] => []
  | moment :: rest => hashed moment (mint.issued + 1) :: hashes (mint.next moment).2 rest

theorem ids_eq (mint : Mint) (calls : List Moment) :
    mint.ids calls = (mint.hashes calls).map fun bytes => ⟨Sha256.hex bytes⟩ := by
  induction calls generalizing mint with
  | nil => rfl
  | cons moment rest ih =>
    rw [ids, hashes, List.map_cons, ih]
    rfl

theorem getElem?_hashes (mint : Mint) (calls : List Moment) (k : Nat) :
    (mint.hashes calls)[k]?
      = calls[k]?.map fun moment => hashed moment (mint.issued + UInt64.ofNat (k + 1)) := by
  induction calls generalizing mint k with
  | nil => rfl
  | cons moment rest ih =>
    cases k with
    | zero => rfl
    | succ k =>
      rw [hashes, List.getElem?_cons_succ, List.getElem?_cons_succ, ih, next_issued,
        UInt64.add_assoc, ← UInt64.ofNat_one, ← UInt64.ofNat_add, Nat.add_comm 1]

/-- The counter of the `k`-th of not too many calls. -/
theorem toNat_counter {calls : List Moment} (hfew : calls.length < UInt64.size) {k : Nat}
    {moment : Moment} (hk : calls[k]? = some moment) :
    (({} : Mint).issued + UInt64.ofNat (k + 1)).toNat = k + 1 := by
  have hlt : k < calls.length := (List.getElem?_eq_some_iff.mp hk).1
  rw [UInt64.zero_add]
  exact UInt64.toNat_ofNat_of_lt' (Nat.lt_of_le_of_lt hlt hfew)

/-- Of any two ids that a mint hands out, at whatever moments it is called and whatever is drawn, the
bytes hashed are the same just if digits of the later counter have moved to the front of the earlier
id. If their counters have equally many digits, the bytes differ. -/
theorem told_apart {calls : List Moment} (hfew : calls.length < UInt64.size) {i j : Nat}
    (hij : i < j) (hi : calls[i]? = some earlier) (hj : calls[j]? = some later) :
    let hashes := ({} : Mint).hashes calls
    (hashes[i]? = hashes[j]? ↔ Moved earlier (i + 1) later (j + 1)) ∧
      ((digits (i + 1)).length = (digits (j + 1)).length → hashes[i]? ≠ hashes[j]?) := by
  intro hashes
  have hiff : hashes[i]? = hashes[j]? ↔ Moved earlier (i + 1) later (j + 1) := by
    have hle : ({} : Mint).issued + UInt64.ofNat (i + 1)
        ≤ ({} : Mint).issued + UInt64.ofNat (j + 1) := by
      rw [UInt64.le_iff_toNat_le, toNat_counter hfew hi, toNat_counter hfew hj]
      omega
    rw [getElem?_hashes, getElem?_hashes, hi, hj, Option.map_some, Option.map_some, Option.some_inj,
      hashed_eq_iff hle, toNat_counter hfew hi, toNat_counter hfew hj]
  refine ⟨hiff, fun hlength heq => ?_⟩
  have hlt := (hiff.mp heq).length_lt (by omega)
  omega

/-- A call within some second at which a number is drawn. -/
def hastyCall (draw : Nat) : Moment := { now := ⟨1700000000⟩, draw := fun _ => draw }

/-- Eleven calls within one second. The first draws 11, and the others draw 1. -/
def hastyCalls : List Moment := hastyCall 11 :: List.replicate 10 (hastyCall 1)

theorem moved_hasty : Moved (hastyCall 11) 1 (hastyCall 1) 11 :=
  ⟨['1'], by decide, by decide⟩

theorem told_apart_hasty :
    let hashes := ({} : Mint).hashes hastyCalls
    hastyCalls.length < UInt64.size ∧ 0 < 10 ∧
      hastyCalls[0]? = some (hastyCall 11) ∧ hastyCalls[10]? = some (hastyCall 1) ∧
      (hashes[0]? = hashes[10]? ↔ Moved (hastyCall 11) 1 (hastyCall 1) 11) ∧
      ((digits 1).length = (digits 11).length → hashes[0]? ≠ hashes[10]?) :=
  ⟨by decide, by decide, rfl, rfl, told_apart (by decide) (by decide) rfl rfl⟩

/-- A mint hands out an id twice within one second. -/
theorem minted_twice :
    (∀ call ∈ hastyCalls, call.now = ⟨1700000000⟩ ∧ ∀ n, call.draw n < 1000000000) ∧
      (({} : Mint).hashes hastyCalls)[0]? = (({} : Mint).hashes hastyCalls)[10]? ∧
      (({} : Mint).ids hastyCalls)[0]? = (({} : Mint).ids hastyCalls)[10]? := by
  have hhashes : (({} : Mint).hashes hastyCalls)[0]? = (({} : Mint).hashes hastyCalls)[10]? := by
    rw [getElem?_hashes, getElem?_hashes]
    exact congrArg some ((hashed_eq_iff (by decide)).mpr moved_hasty)
  refine ⟨?_, hhashes, ?_⟩
  · intro call hmem
    rcases List.mem_cons.mp hmem with rfl | hmem
    · exact ⟨rfl, fun _ => (by decide : 11 < 1000000000)⟩
    · rw [List.eq_of_mem_replicate hmem]
      exact ⟨rfl, fun _ => (by decide : 1 < 1000000000)⟩
  · rw [ids_eq, List.getElem?_map, List.getElem?_map, hhashes]

end Telemetry.Mint
