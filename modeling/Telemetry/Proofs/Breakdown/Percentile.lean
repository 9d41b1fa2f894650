import Telemetry.Breakdown.Entry
import Telemetry.Proofs.Quantity.Order
import Telemetry.Proofs.Quantity.Whole

/-!
# Percentiles

The percentile of a reservoir is the value at a rank that is computed in doubles. For as many values
as a reservoir can hold, this is nineteen twentieths of their number, rounded down (`rank_eq`),
although no double is nineteen twentieths and the product is rounded.

What it means to be at a rank does not depend on how values are sorted, nor on the order in which they
came: `HasRank` counts the values on both sides, and there is one value at each rank if ranks are a
total order (`HasRank.of_perm`).

An entry that is evaluated takes its percentile and holds no values any more, so nothing changes when
it is evaluated again (`Entry.evaluate_evaluate`).
-/

namespace Telemetry

variable {α : Type}

namespace Reservoir

/-! ## The rank -/

theorem rank_lt {n : Nat} (hpos : 0 < n) : rank n < n :=
  Nat.lt_of_le_of_lt (Nat.min_le_right _ _) (Nat.sub_one_lt_of_lt hpos)

open Float.Model Binary64

/-- The double that is nearest to nineteen twentieths. It is a little less. -/
def nineteenTwentieths : UnpackedFloat :=
  .finite .positive 8556839292003942 (-53) (by decide)

theorem unpack_nineteenTwentieths : (0.95 : Float).toModel.unpack = nineteenTwentieths := rfl

/-- The product of which the rank is the whole part. -/
def scaled (n : Nat) : Float.Model :=
  Float.Model.pack (UnpackedFloat.mul .binary64 (unpacked n) nineteenTwentieths)

theorem toUInt64_mul {n : Nat} (hlt : n < wholeLimit) :
    (Nat.toFloat n * 0.95).toUInt64 = (scaled n).toUInt64 := by
  change (Float.Model.pack (UnpackedFloat.mul .binary64 (Float.ofNat n).toModel.unpack
    (0.95 : Float).toModel.unpack)).toUInt64 = _
  rw [toModel_ofNat hlt, unpack_pack hlt, unpack_nineteenTwentieths, scaled]

/-- Rounding makes up for what is missing of the factor. -/
theorem toNat_scaled : ∀ n ≤ capacity, (scaled n).toUInt64.toNat = 19 * n / 20 := by
  decide +kernel

theorem rank_eq {n : Nat} (hle : n ≤ capacity) : rank n = 19 * n / 20 := by
  have hlt : n < wholeLimit := Nat.lt_of_le_of_lt hle (by decide)
  rw [rank, toUInt64_mul hlt, toNat_scaled n hle]
  omega

/-! ## Values at a rank -/

variable [Quantity α]

/-- A value is at a rank among others, counted from zero: no more than so many are before it, more
than so many are not after it, and it is there in whatever way they are put in order. -/
structure HasRank (k : Nat) (values : List α) (v : α) : Prop where
  mem : v ∈ values
  before : values.countP (fun x => !Quantity.precedes v x) ≤ k
  notAfter : k + 1 ≤ values.countP fun x => Quantity.precedes x v
  sorted : ∀ order : List α, order.Perm values → order.Pairwise (Quantity.precedes · ·) →
    order[k]? = some v

/-- Where something is held there is a percentile of it. -/
theorem isSome_percentile? {r : Reservoir α} (hpos : 0 < r.size) : r.percentile?.isSome := by
  have hrank : rank r.size < r.ranked.length := by
    rw [length_ranked]
    exact rank_lt hpos
  rw [percentile?, List.getElem?_eq_getElem hrank]
  rfl

theorem percentile?_empty : (empty : Reservoir α).percentile? = none := by
  rw [percentile?, List.getElem?_eq_none_iff, length_ranked]
  exact Nat.zero_le _

theorem perm_ranked (r : Reservoir α) : r.ranked.Perm r.values.toList :=
  List.mergeSort_perm r.values.toList Quantity.precedes

variable [Quantity.Ranked α]

theorem pairwise_ranked (r : Reservoir α) : r.ranked.Pairwise (Quantity.precedes · ·) := by
  have htrans : ∀ x y z : α, Quantity.precedes x y → Quantity.precedes y z →
      Quantity.precedes x z := fun _ _ _ => Quantity.Ranked.trans
  exact List.pairwise_mergeSort htrans Quantity.Ranked.total r.values.toList

theorem precedes_refl (x : α) : Quantity.precedes x x := by
  have htotal := Quantity.Ranked.total x x
  rw [Bool.or_self] at htotal
  exact htotal

/-- In a list in order the value at a place has its rank. -/
theorem hasRank_of_pairwise {values : List α} (hvalues : values.Pairwise (Quantity.precedes · ·))
    {k : Nat} {v : α} (hv : values[k]? = some v) : HasRank k values v := by
  obtain ⟨hk, hget⟩ := List.getElem?_eq_some_iff.mp hv
  obtain ⟨front, back, hsplit, hfront⟩ :
      ∃ front back, values = front ++ v :: back ∧ front.length = k := by
    refine ⟨values.take k, values.drop (k + 1), ?_, List.length_take_of_le (Nat.le_of_lt hk)⟩
    rw [← hget, ← List.drop_eq_getElem_cons hk, List.take_append_drop]
  have hparts := hvalues
  rw [hsplit, List.pairwise_append, List.pairwise_cons] at hparts
  obtain ⟨-, ⟨hback, -⟩, hcross⟩ := hparts
  constructor
  case mem =>
    rw [hsplit]
    exact List.mem_append_right front List.mem_cons_self
  case before =>
    have hnone : back.countP (fun x => !Quantity.precedes v x) = 0 := by
      refine List.countP_eq_zero.mpr fun x hx => ?_
      rw [hback x hx]
      exact Bool.false_ne_true
    have hle := front.countP_le_length (p := fun x => !Quantity.precedes v x)
    rw [hsplit, List.countP_append, List.countP_cons, hnone, precedes_refl v, ← hfront]
    exact hle
  case notAfter =>
    have hall : front.countP (fun x => Quantity.precedes x v) = front.length := by
      refine List.countP_eq_length.mpr fun x hx => ?_
      exact hcross x hx v List.mem_cons_self
    rw [hsplit, List.countP_append, List.countP_cons, hall, precedes_refl v, if_pos rfl, hfront]
    omega
  case sorted =>
    intro order hperm horder
    have hsame : order = values :=
      List.Perm.eq_of_pairwise (fun _ _ _ _ => Quantity.Ranked.antisymm) horder hvalues hperm
    rw [hsame, hv]

omit [Quantity.Ranked α] in
/-- The rank of a value does not depend on the order of the others. -/
theorem HasRank.of_perm {k : Nat} {values values' : List α} {v : α} (h : HasRank k values v)
    (hperm : values.Perm values') : HasRank k values' v where
  mem := hperm.mem_iff.mp h.mem
  before := by
    rw [← hperm.countP_eq]
    exact h.before
  notAfter := by
    rw [← hperm.countP_eq]
    exact h.notAfter
  sorted := fun order horder => h.sorted order (horder.trans hperm.symm)

theorem hasRank_of_percentile? {r : Reservoir α} {v : α} (h : r.percentile? = some v) :
    HasRank (rank r.size) r.values.toList v :=
  (hasRank_of_pairwise r.pairwise_ranked h).of_perm r.perm_ranked

/-- Reservoirs that hold the same values have the same percentile. -/
theorem HasRank.percentile?_eq {values : List α} {v : α} (h : HasRank (rank values.length) values v)
    {r : Reservoir α} (hperm : r.values.toList.Perm values) : r.percentile? = some v := by
  have hsize : r.size = values.length := hperm.length_eq
  rw [percentile?, hsize]
  exact h.sorted r.ranked (r.perm_ranked.trans hperm) r.pairwise_ranked

end Reservoir

/-! ## Entries -/

namespace Entry

/-- The reservoir holds as much of what it was offered as it can. -/
def Sampled (entry : Entry α) : Prop :=
  entry.reservoir.size = min Reservoir.capacity entry.reservoir.offered

/-- A reservoir that holds nothing was offered nothing. -/
theorem Sampled.eq_empty {entry : Entry α} (h : entry.Sampled) (hnone : entry.reservoir.size = 0) :
    entry.reservoir = .empty := by
  obtain ⟨name, measurement, sampleCount, values, offered⟩ := entry
  have hcapacity : 0 < Reservoir.capacity := by decide
  simp only [Sampled, Reservoir.size] at h hnone ⊢
  have hoffered : offered = 0 := by omega
  rw [Array.eq_empty_of_size_eq_zero hnone, hoffered]
  rfl

variable [Quantity α]

theorem evaluate_of_percentile? {entry : Entry α} {value : α}
    (h : entry.reservoir.percentile? = some value) :
    entry.evaluate = { entry with measurement := value, reservoir := .empty } := by
  rw [evaluate, h]

theorem evaluate_of_none {entry : Entry α} (h : entry.reservoir.percentile? = none) :
    entry.evaluate = entry := by
  rw [evaluate, h]

/-- Nothing changes when an entry is evaluated again. -/
theorem evaluate_evaluate (entry : Entry α) : entry.evaluate.evaluate = entry.evaluate := by
  cases h : entry.reservoir.percentile? with
  | none => rw [evaluate_of_none h, evaluate_of_none h]
  | some value =>
    rw [evaluate_of_percentile? h]
    exact evaluate_of_none Reservoir.percentile?_empty

/-- What an evaluation makes of an entry. The index is the one at which the value is read off. -/
structure Evaluates (old new : Entry α) : Prop where
  name : new.name = old.name
  sampleCount : new.sampleCount = old.sampleCount
  reservoir : new.reservoir = .empty
  bounded : old.reservoir.size ≤ Reservoir.capacity
  index : 0 < old.reservoir.size →
    Reservoir.rank old.reservoir.size = 19 * old.reservoir.size / 20 ∧
      Reservoir.rank old.reservoir.size < old.reservoir.size
  picked : 0 < old.reservoir.size →
    Reservoir.HasRank (19 * old.reservoir.size / 20) old.reservoir.values.toList new.measurement
  inAnyOrder : 0 < old.reservoir.size → ∀ r : Reservoir α,
    r.values.toList.Perm old.reservoir.values.toList → r.percentile? = some new.measurement
  untouched : old.reservoir.size = 0 → new = old

theorem evaluates_evaluate [Quantity.Ranked α] {entry : Entry α} (h : entry.Sampled) :
    Evaluates entry entry.evaluate := by
  have hbounded : entry.reservoir.size ≤ Reservoir.capacity := by
    rw [Sampled] at h
    omega
  have hrank := Reservoir.rank_eq hbounded
  cases hvalue : entry.reservoir.percentile? with
  | none =>
    have hnone : entry.reservoir.size = 0 := by
      by_contra hsome
      have hpos := Reservoir.isSome_percentile? (Nat.pos_of_ne_zero hsome)
      rw [hvalue] at hpos
      cases hpos
    have habsurd {p : Prop} (hpos : 0 < entry.reservoir.size) : p := by
      rw [hnone] at hpos
      exact absurd hpos (Nat.lt_irrefl 0)
    rw [evaluate_of_none hvalue]
    exact ⟨rfl, rfl, h.eq_empty hnone, hbounded, habsurd, habsurd, habsurd, fun _ => rfl⟩
  | some value =>
    have hplace := Reservoir.hasRank_of_percentile? hvalue
    rw [evaluate_of_percentile? hvalue]
    refine ⟨rfl, rfl, rfl, hbounded, fun hpos => ⟨hrank, Reservoir.rank_lt hpos⟩, fun _ => ?_,
      fun _ r hperm => ?_, fun hnone => ?_⟩
    · rw [← hrank]
      exact hplace
    · exact hplace.percentile?_eq hperm
    · rw [h.eq_empty hnone, Reservoir.percentile?_empty] at hvalue
      cases hvalue

end Entry

end Telemetry
