import LoxLex.Proofs.Binary64.Units
import Mathlib.Tactic.FieldSimp
import Mathlib.Tactic.Positivity

namespace LoxLex.Binary64

section Value

variable (x : Binary64)

def exponent : Nat :=
  x.code >>> 52

def fraction : Nat :=
  x.code % 2 ^ 52

-- The first bit of the significand is set, but for the subnormal numbers.
def magnitude : ℚ :=
  if x.exponent = 0 then
    x.fraction / 2 ^ 52 * 2 ^ (-1022 : ℤ)
  else
    (1 + x.fraction / 2 ^ 52) * 2 ^ (x.exponent - 1023 : ℤ)

def value : ℚ :=
  if x.isNegative then -x.magnitude else x.magnitude

end Value

variable {x y : Binary64} {code : Nat}

-- The least exponent of the normal numbers, and that of the subnormal ones, is -1022.
theorem zpow_exponent (k : Nat) : (2 : ℚ) ^ (k - 1022 : ℤ) = 2 ^ k * 2 ^ 52 / 2 ^ 1074 := by
  have h : (2 : ℚ) ^ 1074 = 2 ^ 1022 * 2 ^ 52 := by rw [← pow_add]
  have hp : (2 : ℚ) ^ 52 ≠ 0 := by positivity
  rw [h, mul_div_mul_right _ _ hp, zpow_sub₀ two_ne_zero, zpow_natCast]
  rfl

theorem magnitude_eq (x : Binary64) : x.magnitude = units x.code / 2 ^ 1074 := by
  have hp : (2 : ℚ) ^ 52 ≠ 0 := by positivity
  unfold magnitude exponent fraction units
  split
  case isTrue he =>
    have hl : x.code < 2 ^ 52 := by simpa [Nat.shiftRight_eq_div_pow] using he
    have hz : (2 : ℚ) ^ (-1022 : ℤ) = 1 * 2 ^ 52 / 2 ^ 1074 := zpow_exponent 0
    rw [Nat.mod_eq_of_lt hl, hz, one_mul, div_mul_div_comm, mul_comm (x.code : ℚ),
      mul_div_mul_left _ _ hp]
  case isFalse he =>
    have hk : ((x.code >>> 52 : ℕ) - 1023 : ℤ) = (x.code >>> 52 - 1 : ℕ) - 1022 := by omega
    rw [hk, zpow_exponent, ← mul_div_assoc]
    simp only [Nat.shiftLeft_eq, one_mul, Nat.cast_mul, Nat.cast_add, Nat.cast_pow, Nat.cast_ofNat]
    exact congrArg (· / 2 ^ 1074) (by field_simp)

theorem magnitude_nonneg (x : Binary64) : 0 ≤ x.magnitude := by
  rw [magnitude_eq]
  positivity

theorem value_of_nonneg (h : ¬x.isNegative) : x.value = x.magnitude :=
  if_neg h

theorem value_lt_iff (hx : ¬x.isNegative) (hy : ¬y.isNegative) :
    x.value < y.value ↔ x.code < y.code := by
  rw [value_of_nonneg hx, value_of_nonneg hy, magnitude_eq, magnitude_eq,
    div_lt_div_iff_of_pos_right (by positivity), Nat.cast_lt, units_strictMono.lt_iff_lt]

theorem code_of_nonneg (h : ¬x.isNegative) : x.code = x.bits.toNat :=
  Nat.mod_eq_of_lt (by simpa [isNegative] using h)

theorem bits_eq_iff (h : ¬x.isNegative) {bits : UInt64} : x.bits = bits ↔ x.code = bits.toNat := by
  rw [code_of_nonneg h, UInt64.toNat_inj]

theorem bits_even_iff (h : ¬x.isNegative) : x.bits % 2 = 0 ↔ x.code % 2 = 0 := by
  rw [code_of_nonneg h, ← UInt64.toNat_inj, UInt64.toNat_mod]
  rfl

def ofCode (code : Nat) : Binary64 :=
  ⟨.ofNat code⟩

theorem toNat_ofCode (h : code ≤ infinityCode) : (ofCode code).bits.toNat = code := by
  have hi : infinityCode < UInt64.size := by decide
  exact UInt64.toNat_ofNat_of_lt' (by omega)

theorem nonneg_ofCode (h : code ≤ infinityCode) : ¬(ofCode code).isNegative := by
  have hi : infinityCode < signCode := by decide
  rw [isNegative, toNat_ofCode h, decide_eq_true_eq]
  omega

theorem code_ofCode (h : code ≤ infinityCode) : (ofCode code).code = code := by
  rw [code_of_nonneg (nonneg_ofCode h), toNat_ofCode h]

theorem eq_ofCode (h : ¬x.isNegative) : x = ofCode x.code := by
  rw [ofCode, code_of_nonneg h, UInt64.ofNat_toNat]

def inUnits (v : ℚ) : ℚ :=
  v * 2 ^ 1074

theorem two_mul_inUnits (v : ℚ) : 2 * inUnits v = v * 2 ^ 1075 := by
  rw [inUnits, mul_left_comm, ← pow_succ']

theorem abs_sub_magnitude (v : ℚ) (x : Binary64) :
    |v - x.magnitude| = |inUnits v - units x.code| / 2 ^ 1074 := by
  have hp : (0 : ℚ) < 2 ^ 1074 := by positivity
  rw [magnitude_eq, inUnits, ← abs_of_pos hp, ← abs_div, abs_of_pos hp, sub_div,
    mul_div_cancel_right₀ _ hp.ne']

end LoxLex.Binary64
