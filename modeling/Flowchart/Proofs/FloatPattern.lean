import Mathlib
import Flowchart.Number.Binary

/-!
# The numbers of bit patterns

A number made from a pattern below that of infinity has this pattern again, no sign, and is finite.
The model of floating-point numbers takes patterns apart into a sign, an exponent and a mantissa,
so this says that taking apart and putting together again changes none of the three.
-/

namespace Flowchart.Number

open Float.Model (Format)
open Float.Model.UnpackedFloat

/-! ### The parts of a pattern -/

theorem toNat_packComponents (exponent : BitVec 11) (mantissa : BitVec 52) :
    (packComponents Format.binary64 .positive exponent mantissa).toNat
      = exponent.toNat * 2 ^ 52 + mantissa.toNat := by
  rw [packComponents, Sign.toBitVec, BitVec.toNat_append, BitVec.toNat_append,
    ← Nat.shiftLeft_add_eq_or_of_lt mantissa.isLt,
    ← Nat.shiftLeft_add_eq_or_of_lt exponent.isLt, Nat.shiftLeft_eq]
  simp

theorem toNat_unpackExponent (b : BitVec 64) :
    (@unpackExponent Format.binary64 b).toNat = b.toNat / 2 ^ 52 % 2 ^ 11 := by
  simp [unpackExponent, BitVec.extractLsb, Nat.shiftRight_eq_div_pow]

theorem toNat_unpackMantissa (b : BitVec 64) :
    (@unpackMantissa Format.binary64 b).toNat = b.toNat % 2 ^ 52 := by
  simp [unpackMantissa, BitVec.extractLsb]

theorem ofBitVec_unpackSign (b : BitVec 64) (h : b.toNat < 2 ^ 63) :
    Sign.ofBitVec (@unpackSign Format.binary64 b) = .positive := by
  have : @unpackSign Format.binary64 b = 0#1 := by
    apply BitVec.eq_of_toNat_eq
    simp [unpackSign, BitVec.extractLsb, Nat.shiftRight_eq_div_pow]
    omega
  rw [this]; rfl

theorem packComponents_unpack (b : BitVec 64) (h : b.toNat < 2 ^ 63) :
    packComponents Format.binary64 .positive (@unpackExponent Format.binary64 b)
      (@unpackMantissa Format.binary64 b) = b := by
  apply BitVec.eq_of_toNat_eq
  rw [toNat_packComponents, toNat_unpackExponent, toNat_unpackMantissa]
  omega

theorem toNat_one_append (mantissa : BitVec 52) :
    (1#1 ++ mantissa).toNat = 2 ^ 52 + mantissa.toNat := by
  rw [BitVec.toNat_append, ← Nat.shiftLeft_add_eq_or_of_lt mantissa.isLt]
  simp [Nat.shiftLeft_eq]

/-! ### Putting the parts together -/

theorem pack_subnormal (mantissa : BitVec 52) (hpos : 0 < mantissa.toNat) :
    pack Format.binary64 (.finite .positive mantissa.toNat (-1074) hpos)
      = packComponents Format.binary64 .positive 0#_ mantissa := by
  have hlog : mantissa.toNat.log2 < 52 := (Nat.log2_lt (by omega)).mpr mantissa.isLt
  have hnormal : ¬ mantissa.toNat.log2 + 1 = Format.binary64.mantissaBits := by
    simp only [Format.mantissaBits]
    omega
  rw [pack, if_neg (by decide), if_neg hnormal, BitVec.ofNat_toNat]
  simp

theorem pack_normal (exponent : BitVec 11) (mantissa : BitVec 52) (hexponent : exponent.toNat < 2047)
    (hpos : 0 < (1#1 ++ mantissa).toNat) :
    pack Format.binary64
        (.finite .positive (1#1 ++ mantissa).toNat ((exponent.toNat : Int) - 1075) hpos)
      = packComponents Format.binary64 .positive exponent mantissa := by
  have hbiased : ((exponent.toNat : Int) - 1075 + Format.binary64.exponentBias
      + Format.binary64.mantissaBitsWithoutImplicit).toNat = exponent.toNat := by
    simp only [Format.exponentBias]
    omega
  have hlog : (2 ^ 52 + mantissa.toNat).log2 + 1 = Format.binary64.mantissaBits := by
    have := mantissa.isLt
    have : (2 ^ 52 + mantissa.toNat).log2 = 52 := by
      rw [Nat.log2_eq_iff (by omega)]
      omega
    rw [this]
    rfl
  have hbelow : ¬ 2 ^ Format.binary64.exponentBits ≤ exponent.toNat + 1 := by
    simp only
    omega
  rw [pack]
  simp only [hbiased]
  rw [if_neg hbelow, toNat_one_append, if_pos hlog]
  congr 1
  · simp
  · apply BitVec.eq_of_toNat_eq
    simp [mantissa.isLt]

theorem infinityPattern_eq : infinityPattern = 2047 * 2 ^ 52 := rfl

theorem lt_of_lt_infinityPattern {pattern : Nat} (h : pattern < infinityPattern) :
    pattern < 2 ^ 63 := by
  rw [infinityPattern_eq] at h
  omega

/-- A pattern below that of infinity is packed again from its parts. -/
theorem pack_unpack (b : BitVec 64) (h : b.toNat < infinityPattern) :
    pack Format.binary64 (Float.Model.UnpackedFloat.unpack Format.binary64 b) = b := by
  have hsmall := lt_of_lt_infinityPattern h
  have hwhole := packComponents_unpack b hsmall
  have hsign := ofBitVec_unpackSign b hsmall
  have hexponent : (@unpackExponent Format.binary64 b).toNat < 2047 := by
    rw [toNat_unpackExponent]
    rw [infinityPattern_eq] at h
    omega
  unfold Float.Model.UnpackedFloat.unpack
  simp only [hsign]
  split
  · rename_i hones
    rw [hones] at hexponent
    simp at hexponent
  split
  · rename_i hzero
    rw [hzero] at hwhole
    split
    · rename_i hmantissa
      rw [hmantissa] at hwhole
      exact hwhole
    · rw [hzero]
      exact (pack_subnormal _ _).trans hwhole
  · exact (pack_normal _ _ hexponent _).trans hwhole

theorem toNat_toBits_ofBits {pattern : Nat} (h : pattern < infinityPattern) :
    (Float.ofBits (UInt64.ofNat pattern)).toBits.toNat = pattern := by
  have hsmall : pattern < 2 ^ 64 := by
    have hsign := lt_of_lt_infinityPattern h
    omega
  have hpattern : (UInt64.ofNat pattern).toBitVec.toNat = pattern := by
    exact UInt64.toNat_ofNat_of_lt hsmall
  change (pack Format.binary64
    (Float.Model.UnpackedFloat.unpack Format.binary64 (UInt64.ofNat pattern).toBitVec)).toNat = pattern
  rw [pack_unpack _ (by rwa [hpattern]), hpattern]

/-! ### Patterns and numbers -/

/-- A finite number has the pattern it was made from. -/
theorem patternOf_ofPattern {pattern : Nat} (h : pattern < infinityPattern) :
    patternOf (ofPattern false pattern) = pattern := by
  rw [patternOf, ofPattern, if_neg Bool.false_ne_true, toNat_toBits_ofBits h]
  exact Nat.mod_eq_of_lt (lt_of_lt_infinityPattern h)

theorem isNegative_ofPattern {pattern : Nat} (h : pattern < infinityPattern) :
    isNegative (ofPattern false pattern) = false := by
  rw [isNegative, ofPattern, if_neg Bool.false_ne_true, toNat_toBits_ofBits h]
  exact decide_eq_false (Nat.not_le_of_lt (lt_of_lt_infinityPattern h))

theorem not_isFinite_infinity : (ofPattern false infinityPattern).isFinite = false := by decide

theorem isNaN_eq_false_of_isFinite {x : Float} (h : x.isFinite) : x.isNaN = false := by
  change x.toModel.unpack.isFinite at h
  change x.toModel.unpack.isNaN = false
  generalize x.toModel.unpack = parts at *
  cases parts with
  | notANumber => cases h
  | _ => rfl

theorem isInf_eq_false_of_isFinite {x : Float} (h : x.isFinite) : x.isInf = false := by
  change x.toModel.unpack.isFinite at h
  change x.toModel.unpack.isInf = false
  generalize x.toModel.unpack = parts at *
  cases parts with
  | infinity => cases h
  | _ => rfl

end Flowchart.Number
