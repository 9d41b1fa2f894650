import Mathlib
import Telemetry.Quantity

/-!
# Whole numbers as doubles

Fifty-three bits of a double are its own, so a whole number below `wholeLimit` is one, and so is the
sum of two as long as it stays below (`ofNat_add`): counting by adding ones is exact that far.

An operation on doubles unpacks them, works on integers times powers of two, rounds, and packs the
outcome. So there is one form in which a whole number comes out of all of these (`unpacked`):
shifted up until its highest bit is in the place of the hidden one. Shifting it further up adds
zeros that rounding drops again (`roundWithAccuracy_whole`), and packing loses nothing of it
(`unpack_pack`).
-/

namespace Telemetry.Binary64

open Float.Model Float.Model.UnpackedFloat

/-- The least whole number of fifty-four bits. -/
def wholeLimit : Nat := 0x20000000000000

/-! ## Shifting -/

theorem shiftLeft_pos {n : Nat} (hpos : 0 < n) (k : Nat) : 0 < n <<< k := by
  rw [Nat.shiftLeft_eq]
  exact Nat.mul_pos hpos (Nat.two_pow_pos k)

theorem log2_shiftLeft {n : Nat} (hpos : 0 < n) (k : Nat) : (n <<< k).log2 = n.log2 + k := by
  induction k with
  | zero => rfl
  | succ k ih =>
    rw [Nat.shiftLeft_succ, Nat.log2_two_mul (Nat.ne_of_gt (shiftLeft_pos hpos k)), ih,
      Nat.add_assoc]

theorem log2_le_of_lt {n : Nat} (hpos : 0 < n) (hlt : n < wholeLimit) : n.log2 ≤ 52 :=
  Nat.le_of_lt_succ ((Nat.log2_lt (Nat.ne_of_gt hpos)).mpr hlt)

/-- A whole number with its highest bit in the place of the hidden one. -/
def lifted (n : Nat) : Nat := n <<< (52 - n.log2)

/-- The mantissa of a whole number is not zero unless the number is. -/
theorem lifted_pos {n : Nat} (hpos : 0 < n) : 0 < lifted n := shiftLeft_pos hpos _

/-- A lifted mantissa is normal: its highest bit is the hidden one. -/
theorem log2_lifted {n : Nat} (hpos : 0 < n) (hlt : n < wholeLimit) : (lifted n).log2 = 52 := by
  have hlog := log2_le_of_lt hpos hlt
  rw [lifted, log2_shiftLeft hpos]
  omega

/-- A whole number as it is unpacked. -/
def unpacked (n : Nat) : UnpackedFloat :=
  if h : 0 < n then .finite .positive (lifted n) ((n.log2 : Int) - 52) (lifted_pos h)
  else .zero .positive

theorem unpacked_of_pos {n : Nat} (hpos : 0 < n) :
    unpacked n = .finite .positive (lifted n) ((n.log2 : Int) - 52) (lifted_pos hpos) := by
  rw [unpacked, dif_pos hpos]

/-! ## Rounding -/

/-- Zeros that were shifted in can be shifted out, and nothing is lost. -/
theorem shiftRight_shiftLeft (m k : Nat) :
    (⟨m <<< k, false, false⟩ : ExtendedMantissa) >>> k = ⟨m, false, false⟩ := by
  change k.repeat ExtendedMantissa.shiftRightOne _ = _
  induction k generalizing m with
  | zero => rfl
  | succ k ih =>
    have hlast : m <<< (k + 1) = (2 * m) <<< k := by
      rw [Nat.shiftLeft_succ, Nat.shiftLeft_eq, Nat.shiftLeft_eq, Nat.mul_assoc]
    rw [Nat.repeat, hlast, ih]
    simp [ExtendedMantissa.shiftRightOne]

/-- Where a number is not too small for it, its highest bit goes to the place of the hidden one. -/
theorem targetExponent_eq {log : Int} (hlog : 0 ≤ log) :
    Format.binary64.targetExponent (log + 1) = log - 52 := by
  have hleast : Format.binary64.minExponent = -1074 := rfl
  have hbits : (Format.binary64.mantissaBits : Int) = 53 := rfl
  rw [Format.targetExponent]
  omega

/-- Shifting a lifted mantissa up and back loses no bit, so it is exact. -/
theorem shiftToTargetExponent_eq {m : Nat} (hlog : m.log2 = 52) (k : Nat) {e : Int}
    (he : -52 ≤ e) :
    shiftToTargetExponent .binary64 (m <<< k) (e - k) .exact = (⟨m, false, false⟩, e) := by
  have hpos : 0 < m := by
    rcases Nat.eq_zero_or_pos m with rfl | hpos
    · cases hlog
    · exact hpos
  have htotal : totalExponent (m <<< k) (e - k) = (e + 52) + 1 := by
    rw [totalExponent, log2_shiftLeft hpos, hlog]
    omega
  have hshift : (e + 52 - 52 - (e - k)).toNat = k := by omega
  rw [shiftToTargetExponent, htotal, targetExponent_eq (by omega), shiftToExponent, hshift]
  congr 1
  · exact shiftRight_shiftLeft m k
  · omega

/-- However far it was shifted up, a whole number comes out of rounding as it is. -/
theorem roundWithAccuracy_whole {n : Nat} (hpos : 0 < n) (hlt : n < wholeLimit) {k : Nat}
    (hk : 52 ≤ n.log2 + k) :
    roundWithAccuracy .binary64 .positive (n <<< k) (-k) .exact = unpacked n := by
  have hlog := log2_le_of_lt hpos hlt
  have htop := log2_lifted hpos hlt
  have hmantissa : n <<< k = lifted n <<< (n.log2 + k - 52) := by
    rw [lifted, ← Nat.shiftLeft_add]
    congr 1
    omega
  have hexponent : -(k : Int) = ((n.log2 : Int) - 52) - (n.log2 + k - 52 : Nat) := by omega
  -- the first shift drops the zeros, so there is nothing to round and nothing left to shift
  have hfirst := shiftToTargetExponent_eq htop (n.log2 + k - 52) (e := (n.log2 : Int) - 52)
    (by omega)
  have hsecond := shiftToTargetExponent_eq htop 0 (e := (n.log2 : Int) - 52) (by omega)
  rw [Nat.shiftLeft_zero, Int.natCast_zero, Int.sub_zero] at hsecond
  have hrounded : (⟨lifted n, false, false⟩ : ExtendedMantissa).roundedMantissa = lifted n := rfl
  rw [hmantissa, hexponent, unpacked_of_pos hpos]
  simp only [roundWithAccuracy, hfirst, hrounded, hsecond]
  exact dif_neg (Nat.ne_of_gt (lifted_pos hpos))

/-- Rounding a whole number of at most 53 bits, scaled or not, gives it back. -/
theorem round_whole {n : Nat} (hpos : 0 < n) (hlt : n < wholeLimit) (k : Nat) :
    UnpackedFloat.round .binary64 .positive (n <<< k) (-k) = unpacked n := by
  have htotal : totalExponent (n <<< k) (-k) = (n.log2 : Int) + 1 := by
    rw [totalExponent, log2_shiftLeft hpos]
    omega
  have hexponent : -(k : Int) - ((-(k : Int) - ((n.log2 : Int) - 52)).toNat : Int)
      = -((k + (-(k : Int) - ((n.log2 : Int) - 52)).toNat : Nat) : Int) := by omega
  simp only [UnpackedFloat.round, htotal, targetExponent_eq (Int.natCast_nonneg _),
    decreaseExponent]
  rw [hexponent, ← Nat.shiftLeft_add]
  exact roundWithAccuracy_whole hpos hlt (by omega)

theorem normalize_whole {n : Nat} (hlt : n < wholeLimit) (k : Nat) :
    UnpackedFloat.normalize .binary64 (n <<< k : Nat) (-k) .positive = unpacked n := by
  rcases Nat.eq_zero_or_pos n with rfl | hpos
  · rw [Nat.zero_shiftLeft]
    rfl
  · have hgt : compare ((n <<< k : Nat) : Int) 0 = .gt :=
      Int.compare_eq_gt.mpr (Int.natCast_pos.mpr (shiftLeft_pos hpos k))
    rw [UnpackedFloat.normalize, hgt]
    exact round_whole hpos hlt k

/-! ## Sums and products -/

/-- The summand of the larger exponent is brought to the smaller one by scaling its mantissa. -/
theorem decreaseExponent_whole {n : Nat} (hpos : 0 < n) (hlt : n < wholeLimit) {k : Nat}
    (hk : 52 ≤ n.log2 + k) :
    decreaseExponent (lifted n) ((n.log2 : Int) - 52) (-k) = (n <<< k, -(k : Int)) := by
  have hlog := log2_le_of_lt hpos hlt
  have hshift : 52 - n.log2 + ((n.log2 : Int) - 52 - -(k : Int)).toNat = k := by omega
  rw [decreaseExponent, lifted, ← Nat.shiftLeft_add, hshift]
  congr 1
  omega

/-- Below the limit, a sum needs no more bits than there are. -/
theorem add_unpacked {m n : Nat} (hlt : m + n < wholeLimit) :
    UnpackedFloat.add .binary64 (unpacked m) (unpacked n) = unpacked (m + n) := by
  rcases Nat.eq_zero_or_pos m with rfl | hm
  · rw [Nat.zero_add]
    rcases Nat.eq_zero_or_pos n with rfl | hn
    · rfl
    · rw [unpacked_of_pos hn]
      rfl
  rcases Nat.eq_zero_or_pos n with rfl | hn
  · rw [Nat.add_zero, unpacked_of_pos hm]
    rfl
  have hm' : m < wholeLimit := Nat.lt_of_le_of_lt (Nat.le_add_right m n) hlt
  have hn' : n < wholeLimit := Nat.lt_of_le_of_lt (Nat.le_add_left n m) hlt
  have hlogm := log2_le_of_lt hm hm'
  have hlogn := log2_le_of_lt hn hn'
  -- both are brought to the exponent of the smaller one, and added there
  obtain ⟨k, hk⟩ : ∃ k : Nat, k = 52 - min m.log2 n.log2 := ⟨_, rfl⟩
  have hmin : min ((m.log2 : Int) - 52) ((n.log2 : Int) - 52) = -(k : Int) := by omega
  have hsum : ((m <<< k : Nat) : Int) + (n <<< k : Nat) = ((m + n) <<< k : Nat) := by
    rw [Nat.shiftLeft_eq, Nat.shiftLeft_eq, Nat.shiftLeft_eq, Nat.add_mul, Int.natCast_add]
  rw [unpacked_of_pos hm, unpacked_of_pos hn, UnpackedFloat.add, hmin]
  simp only [decreaseExponent_whole hm hm' (by omega : 52 ≤ m.log2 + k),
    decreaseExponent_whole hn hn' (by omega : 52 ≤ n.log2 + k), Sign.apply, hsum]
  exact normalize_whole hlt k

/-- One is a power of two, so multiplying by it moves the exponent there and back. -/
theorem mul_unpacked_one {n : Nat} (hlt : n < wholeLimit) :
    UnpackedFloat.mul .binary64 (unpacked n) (unpacked 1) = unpacked n := by
  rcases Nat.eq_zero_or_pos n with rfl | hpos
  · rfl
  · have hlog := log2_le_of_lt hpos hlt
    have hmantissa : lifted n * lifted 1 = n <<< (104 - n.log2) := by
      have hshift : 104 - n.log2 = 52 - n.log2 + 52 := by omega
      have hone : lifted 1 = 1 <<< 52 := rfl
      rw [hshift, Nat.shiftLeft_add, hone, Nat.shiftLeft_eq 1, Nat.one_mul,
        Nat.shiftLeft_eq (n <<< _), lifted]
    have hexponent : (n.log2 : Int) - 52 + -52 = -(104 - n.log2 : Nat) := by omega
    rw [unpacked_of_pos hpos]
    change roundWithAccuracy .binary64 .positive (lifted n * lifted 1)
      ((n.log2 : Int) - 52 + -52) .exact = _
    rw [hmantissa, hexponent, ← unpacked_of_pos hpos]
    exact roundWithAccuracy_whole hpos hlt (by omega)

/-! ## Packing -/

/-- The field of the exponent of a whole number. -/
def exponentField (n : Nat) : BitVec 11 := BitVec.ofNat 11 (n.log2 + 1023)

theorem toNat_exponentField {n : Nat} (hpos : 0 < n) (hlt : n < wholeLimit) :
    (exponentField n).toNat = n.log2 + 1023 := by
  have hlog := log2_le_of_lt hpos hlt
  rw [exponentField, BitVec.toNat_ofNat]
  exact Nat.mod_eq_of_lt (by omega)

/-- A whole number is packed as a normal one. -/
theorem pack_unpacked {n : Nat} (hpos : 0 < n) (hlt : n < wholeLimit) :
    UnpackedFloat.pack .binary64 (unpacked n)
      = packComponents .binary64 .positive (exponentField n) (BitVec.ofNat 52 (lifted n)) := by
  have hlog := log2_le_of_lt hpos hlt
  have hbias : (((n.log2 : Int) - 52) + Format.binary64.exponentBias
      + Format.binary64.mantissaBitsWithoutImplicit).toNat = n.log2 + 1023 := by
    have hbias : Format.binary64.exponentBias = 1023 := rfl
    have hbits : Format.binary64.mantissaBitsWithoutImplicit = 52 := rfl
    omega
  rw [unpacked_of_pos hpos, UnpackedFloat.pack]
  simp only [log2_lifted hpos hlt, hbias]
  rw [if_neg (by omega), if_pos (show 52 + 1 = Format.binary64.mantissaBits from rfl)]
  rfl

/-- A number whose highest bit is the hidden one, as two parts of it. -/
theorem hiddenBit_add_mod {m : Nat} (hlog : m.log2 = 52) : hiddenBit + m % hiddenBit = m := by
  have hne : m ≠ 0 := by
    rintro rfl
    cases hlog
  obtain ⟨hlow, hhigh⟩ := (Nat.log2_eq_iff hne).mp hlog
  rw [hiddenBit]
  omega

theorem toNat_hidden_append {m : Nat} (hlog : m.log2 = 52) :
    (1#1 ++ BitVec.ofNat 52 m).toNat = m := by
  rw [BitVec.toNat_append, ← Nat.shiftLeft_add_eq_or_of_lt (BitVec.ofNat 52 m).isLt,
    BitVec.toNat_ofNat]
  exact hiddenBit_add_mod hlog

/-- Nothing of a whole number is lost when it is packed. -/
theorem unpack_pack {n : Nat} (hlt : n < wholeLimit) :
    (Float.Model.pack (unpacked n)).unpack = unpacked n := by
  change UnpackedFloat.unpack .binary64 (UnpackedFloat.pack .binary64 (unpacked n)) = unpacked n
  rcases Nat.eq_zero_or_pos n with rfl | hpos
  · rfl
  · have hlog := log2_le_of_lt hpos hlt
    have hfield := toNat_exponentField hpos hlt
    have hfull : exponentField n ≠ -1#11 := by
      intro heq
      have hnat : n.log2 + 1023 = 2047 := hfield.symm.trans (congrArg BitVec.toNat heq)
      omega
    have hempty : exponentField n ≠ 0#11 := by
      intro heq
      have hnat : n.log2 + 1023 = 0 := hfield.symm.trans (congrArg BitVec.toNat heq)
      omega
    have hexponent : ((n.log2 + 1023 : Nat) : Int)
        - (Format.binary64.exponentBias + Format.binary64.mantissaBitsWithoutImplicit)
        = (n.log2 : Int) - 52 := by
      have hbias : Format.binary64.exponentBias = 1023 := rfl
      have hbits : Format.binary64.mantissaBitsWithoutImplicit = 52 := rfl
      omega
    rw [pack_unpacked hpos hlt, UnpackedFloat.unpack]
    simp only [unpackMantissa_packComponents, unpackExponent_packComponents,
      unpackSign_packComponents, hfield, toNat_hidden_append (log2_lifted hpos hlt), hexponent]
    rw [if_neg hfull, if_neg hempty, unpacked_of_pos hpos]
    rfl

/-! ## Doubles -/

/-- The conversion of a whole number rounds nothing away. -/
theorem toModel_ofNat {n : Nat} (hlt : n < wholeLimit) :
    (Float.ofNat n).toModel = Float.Model.pack (unpacked n) := by
  have hsize : n.toUInt64.toNat = n := Nat.mod_eq_of_lt (Nat.lt_trans hlt (by decide))
  have hword : n.toUInt64.toFloat.toModel = Float.Model.pack (unpacked n) := by
    change Float.Model.pack
      (UnpackedFloat.normalize .binary64 ((n.toUInt64.toNat : Nat) : Int) 0 .positive) = _
    rw [hsize]
    exact congrArg Float.Model.pack (normalize_whole hlt 0)
  -- a number is read as a decimal, here with the first power of ten
  have hone : (Float.ofBits 0x3FF0000000000000).toModel.unpack = unpacked 1 := rfl
  have hdecimal : Float.ofNat n = n.toUInt64.toFloat * Float.ofBits 0x3FF0000000000000 := by
    change Float.ofScientific n false 0 = _
    rw [Float.ofScientific, dif_pos ⟨hlt, by decide⟩]
    rfl
  rw [hdecimal]
  change Float.Model.pack (UnpackedFloat.mul .binary64 n.toUInt64.toFloat.toModel.unpack
    (Float.ofBits 0x3FF0000000000000).toModel.unpack) = _
  rw [hword, hone, unpack_pack hlt, mul_unpacked_one hlt]

/-- Whole numbers are added exactly below the limit. -/
theorem ofNat_add {m n : Nat} (hlt : m + n < wholeLimit) :
    Float.ofNat m + Float.ofNat n = Float.ofNat (m + n) := by
  have hm : m < wholeLimit := Nat.lt_of_le_of_lt (Nat.le_add_right m n) hlt
  have hn : n < wholeLimit := Nat.lt_of_le_of_lt (Nat.le_add_left n m) hlt
  change Float.ofModel (Float.Model.pack (UnpackedFloat.add .binary64
    (Float.ofNat m).toModel.unpack (Float.ofNat n).toModel.unpack)) = _
  rw [toModel_ofNat hm, toModel_ofNat hn, unpack_pack hm, unpack_pack hn, add_unpacked hlt,
    ← toModel_ofNat hlt]

end Telemetry.Binary64

namespace Telemetry

/-- Whole numbers below the limit of doubles are added exactly. -/
class Quantity.Whole (α : Type) [Quantity α] : Prop where
  ofInt_zero : (Quantity.ofInt 0 : α) = 0
  ofInt_add : ∀ m n : Nat, m + n < Binary64.wholeLimit →
    (Quantity.ofInt m : α) + Quantity.ofInt n = Quantity.ofInt (m + n : Nat)

instance : Quantity.Whole Float where
  ofInt_zero := rfl
  ofInt_add _ _ hlt := Binary64.ofNat_add hlt

end Telemetry
