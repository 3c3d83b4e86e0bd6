import LoxLex.Proofs.Binary64.Nearest
import LoxLex.Proofs.Binary64.Value
import Mathlib.Tactic.Linarith

namespace LoxLex.Binary64

-- The number that a rational number is rounded to. Among the values it is the nearest, or the even
-- one of the two nearest, and past the last value by half a step there is infinity.
structure RoundsTo (v : ℚ) (x : Binary64) : Prop where
  nonneg   : ¬x.isNegative
  number   : ¬x.isNaN
  zero     : x.bits = 0 ↔ v ≤ 1 / 2 ^ 1075
  infinity : x.bits = 0x7FF0000000000000 ↔ 2 ^ 1024 - 2 ^ 970 ≤ v
  nearest  : x.isFinite → ∀ y : Binary64, y.isFinite → |v - x.value| ≤ |v - y.value|
  even     : x.isFinite → ∀ y : Binary64, y.isFinite → y.value ≠ x.value →
               |v - y.value| = |v - x.value| → x.bits % 2 = 0

variable {x y : Binary64} {num den code other near exponent significand : Nat} {a b u v : ℚ}

theorem cast_units_le (h : code ≤ other) : (units code : ℚ) ≤ units other :=
  Nat.cast_le.mpr (units_strictMono.monotone h)

theorem cast_middle (code : Nat) : (middle code : ℚ) = units code + units (code + 1) :=
  Nat.cast_add ..

theorem Splits.cast_middle (h : Splits code exponent significand) :
    (middle code : ℚ) = (2 * significand + 1) * 2 ^ exponent := by
  rw [h.middle_eq]
  push_cast
  rfl

theorem cast_middle_maxCode :
    (middle (infinityCode - 1) : ℚ) = (2 ^ 1024 - 2 ^ 970) * 2 ^ 1075 := by
  have h : (2 : ℚ) ^ 2045 = 2 ^ 970 * 2 ^ 1075 := by rw [← pow_add]
  have hi : (2 : ℚ) ^ 1024 = 2 ^ 54 * 2 ^ 970 := by rw [← pow_add]
  have hs : (2 * (2 ^ 53 - 1 : ℕ) + 1 : ℚ) = 2 ^ 54 - 1 := by norm_num
  rw [splits_maxCode.cast_middle, hs, h, hi, ← mul_assoc, sub_mul, one_mul]

-- Of two numbers the greater is nearer from the middle on, and the middle is equally far from both.

theorem abs_sub_le_of_le (h : a ≤ b) (hm : a + b ≤ 2 * u) : |u - b| ≤ |u - a| := by
  have := le_abs_self (u - a)
  refine abs_le.mpr ⟨?_, ?_⟩ <;> linarith

theorem abs_sub_le_of_ge (h : a ≤ b) (hm : 2 * u ≤ a + b) : |u - a| ≤ |u - b| := by
  have := neg_le_abs (u - b)
  refine abs_le.mpr ⟨?_, ?_⟩ <;> linarith

theorem add_eq_of_abs_sub_eq (h : a ≠ b) (he : |u - a| = |u - b|) : a + b = 2 * u := by
  rcases abs_eq_abs.mp he with he | he
  case inl => exact absurd (by linarith) h
  case inr => linarith

theorem abs_sub_magnitude_le (hv : 0 ≤ v) (x : Binary64) : |v - x.magnitude| ≤ |v - x.value| := by
  have hm := x.magnitude_nonneg
  unfold value
  split
  case isFalse => exact le_rfl
  case isTrue  => exact abs_sub_le_of_le (by linarith) (by linarith)

-- A number of units lies beyond a code if it is past the middle behind it. In the middle it counts
-- to the even code.
def Beyond (u : ℚ) (code : Nat) : Prop :=
  middle code < 2 * u ∨ middle code = 2 * u ∧ code % 2 = 1

-- The code whose magnitude is nearest to a number of units.
def Nearest (u : ℚ) (near : Nat) : Prop :=
  ∀ code, code < near ↔ code < infinityCode ∧ Beyond u code

namespace Nearest

theorem le (h : Nearest u near) : near ≤ infinityCode :=
  Nat.le_of_not_lt fun hl => lt_irrefl _ ((h infinityCode).mp hl).left

theorem eq_zero_iff (h : Nearest u near) : near = 0 ↔ 2 * u ≤ 1 := by
  have hp : 0 < infinityCode := by decide
  have hm : (middle 0 : ℚ) = 1 := by simp [splits_zero.middle_eq]
  have hn : near = 0 ↔ ¬0 < near := by omega
  rw [hn, h, Beyond, hm]
  simp [hp]

theorem eq_infinityCode_iff (h : Nearest u near) :
    near = infinityCode ↔ middle (infinityCode - 1) ≤ 2 * u := by
  have hp : infinityCode - 1 < infinityCode := by decide
  have ho : (infinityCode - 1) % 2 = 1 := by decide
  have hn : near = infinityCode ↔ infinityCode - 1 < near := by
    have := h.le
    omega
  rw [hn, h, Beyond, le_iff_lt_or_eq]
  simp only [hp, ho, true_and, and_true]

theorem add_le (h : Nearest u near) (hc : code < near) :
    (units code + units near : ℚ) ≤ 2 * u ∧
      ((units code + units near : ℚ) = 2 * u → near % 2 = 0) := by
  cases near
  case zero => contradiction
  case succ last =>
    have hu := cast_units_le (Nat.le_of_lt_succ hc)
    have hb := ((h last).mp (Nat.lt_add_one last)).right
    rw [Beyond, cast_middle] at hb
    rcases hb with hm | ⟨hm, ho⟩
    case inl => exact ⟨by linarith, fun he => by linarith⟩
    case inr => exact ⟨by linarith, fun _ => by omega⟩

theorem le_add (h : Nearest u near) (hi : near < infinityCode) (hc : near < code) :
    2 * u ≤ units near + units code ∧
      ((units near + units code : ℚ) = 2 * u → near % 2 = 0) := by
  have hu := cast_units_le (Nat.add_one_le_of_lt hc)
  have hb : ¬Beyond u near := fun hb => lt_irrefl _ ((h near).mpr ⟨hi, hb⟩)
  rw [Beyond, cast_middle, not_or, not_lt, not_and] at hb
  exact ⟨by linarith, fun he => Nat.mod_two_ne_one.mp (hb.right (by linarith))⟩

theorem abs_sub_le (h : Nearest u near) (hi : near < infinityCode) (code : Nat) :
    |u - units near| ≤ |u - units code| := by
  rcases Nat.lt_trichotomy code near with hc | rfl | hc
  case inl     => exact abs_sub_le_of_le (cast_units_le hc.le) (h.add_le hc).left
  case inr.inl => exact le_rfl
  case inr.inr => exact abs_sub_le_of_ge (cast_units_le hc.le) (h.le_add hi hc).left

theorem even (h : Nearest u near) (hi : near < infinityCode) (hn : units code ≠ units near)
    (he : |u - units code| = |u - units near|) : near % 2 = 0 := by
  have hm := add_eq_of_abs_sub_eq (Nat.cast_injective.ne hn) he
  rcases Nat.lt_trichotomy code near with hc | rfl | hc
  case inl     => exact (h.add_le hc).right hm
  case inr.inl => exact absurd rfl hn
  case inr.inr => exact (h.le_add hi hc).right (add_comm (units code : ℚ) _ ▸ hm)

theorem abs_sub_magnitude_le (h : Nearest (inUnits v) x.code) (hx : x.isFinite)
    (y : Binary64) : |v - x.magnitude| ≤ |v - y.magnitude| := by
  rw [abs_sub_magnitude, abs_sub_magnitude]
  exact div_le_div_of_nonneg_right (h.abs_sub_le (of_decide_eq_true hx) y.code) (by positivity)

theorem even_code (h : Nearest (inUnits v) x.code) (hx : x.isFinite)
    (hm : y.magnitude ≠ x.magnitude) (he : |v - y.magnitude| = |v - x.magnitude|) :
    x.code % 2 = 0 := by
  have hp : (2 ^ 1074 : ℚ) ≠ 0 := by positivity
  have hu : units y.code ≠ units x.code := fun hu =>
    hm (by rw [magnitude_eq, magnitude_eq, hu])
  rw [abs_sub_magnitude, abs_sub_magnitude, div_left_inj' hp] at he
  exact h.even (of_decide_eq_true hx) hu he

end Nearest

theorem RoundsTo.of_nearest (hv : 0 ≤ v) (hs : ¬x.isNegative) (h : Nearest (inUnits v) x.code) :
    RoundsTo v x := by
  have hx := value_of_nonneg hs
  have hz : x.bits = 0 ↔ v ≤ 1 / 2 ^ 1075 := by
    rw [bits_eq_iff hs, UInt64.toNat_zero, h.eq_zero_iff, two_mul_inUnits,
      le_div_iff₀ (by positivity)]
  constructor
  case nonneg => exact hs
  case number => simpa [isNaN] using h.le
  case zero   => exact hz
  case infinity =>
    have hi : UInt64.toNat 0x7FF0000000000000 = infinityCode := by decide
    rw [bits_eq_iff hs, hi, h.eq_infinityCode_iff, cast_middle_maxCode, two_mul_inUnits,
      mul_le_mul_iff_left₀ (by positivity)]
  case nearest => exact fun hf y _ =>
    hx ▸ (h.abs_sub_magnitude_le hf y).trans (abs_sub_magnitude_le hv y)
  case even =>
    intro hf y hy hne he
    by_cases hm : y.magnitude = x.magnitude
    case pos =>
      -- only zero is equally far from a number and its negative
      have ha : y.value + x.value = 2 * v := add_eq_of_abs_sub_eq hne he
      have hy : y.value = -x.magnitude := by
        unfold value at hne ⊢
        split at hne <;> simp_all
      have hv : v ≤ 1 / 2 ^ 1075 := by
        have : v = 0 := by linarith
        rw [this]
        positivity
      rw [hz.mpr hv]
      rfl
    case neg =>
      rw [hx] at he
      have hl := (abs_sub_magnitude_le hv y).trans he.le
      have hl := hl.antisymm (h.abs_sub_magnitude_le hf y)
      exact (bits_even_iff hs).mpr (h.even_code hf hm hl)

namespace RoundsTo

theorem isFinite (h : RoundsTo v x) (hv : ¬2 ^ 1024 - 2 ^ 970 ≤ v) : x.isFinite := by
  have hi : UInt64.toNat 0x7FF0000000000000 = infinityCode := by decide
  have hb := mt h.infinity.mp hv
  rw [bits_eq_iff h.nonneg, hi] at hb
  have hn := h.number
  simp only [isNaN, Binary64.isFinite, decide_eq_true_eq] at hn ⊢
  omega

theorem lt_of_isFinite (h : RoundsTo v x) (hf : x.isFinite) : v < 2 ^ 1024 := by
  have hi : UInt64.toNat 0x7FF0000000000000 = infinityCode := by decide
  have hp : (0 : ℚ) < 2 ^ 970 := by positivity
  have hb : x.bits ≠ 0x7FF0000000000000 := by
    rw [ne_eq, bits_eq_iff h.nonneg, hi]
    exact (of_decide_eq_true hf).ne
  exact (not_le.mp (mt h.infinity.mpr hb)).trans (sub_lt_self _ hp)

-- Two even codes that were equally near would have a nearer one between them.
theorem not_lt (hx : RoundsTo v x) (hy : RoundsTo v y) (hv : ¬2 ^ 1024 - 2 ^ 970 ≤ v) :
    ¬x.code < y.code := by
  intro h
  have hfx := hx.isFinite hv
  have hfy := hy.isFinite hv
  have he := (hx.nearest hfx y hfy).antisymm (hy.nearest hfy x hfx)
  have hl := (value_lt_iff hx.nonneg hy.nonneg).mpr h
  have hm : x.value + y.value = 2 * v := add_eq_of_abs_sub_eq hl.ne he
  have hex := (bits_even_iff hx.nonneg).mp (hx.even hfx y hfy hl.ne' he.symm)
  have hey := (bits_even_iff hy.nonneg).mp (hy.even hfy x hfx hl.ne he)
  have hc : x.code + 1 < y.code := by omega
  have hi : x.code + 1 < infinityCode := hc.trans (of_decide_eq_true hfy)
  have hn := nonneg_ofCode hi.le
  have hz := code_ofCode hi.le
  have hxz := (value_lt_iff hx.nonneg hn).mpr (by omega)
  have hzy := (value_lt_iff hn hy.nonneg).mpr (by omega)
  have hd : |v - (ofCode (x.code + 1)).value| < v - x.value := abs_lt.mpr ⟨by linarith, by linarith⟩
  have := hx.nearest hfx (ofCode (x.code + 1)) (by simpa [Binary64.isFinite, hz] using hi)
  exact absurd (this.trans_lt hd) (le_abs_self _).not_gt

theorem unique (hx : RoundsTo v x) (hy : RoundsTo v y) : x = y := by
  suffices h : x.bits = y.bits by
    cases x
    cases y
    exact congrArg _ h
  by_cases hv : 2 ^ 1024 - 2 ^ 970 ≤ v
  case pos => rw [hx.infinity.mpr hv, hy.infinity.mpr hv]
  case neg =>
    rw [bits_eq_iff hx.nonneg, ← code_of_nonneg hy.nonneg]
    exact Nat.le_antisymm (Nat.le_of_not_lt (hy.not_lt hx hv)) (Nat.le_of_not_lt (hx.not_lt hy hv))

end RoundsTo

theorem cast_scaled (hd : 0 < den) :
    ((2 * (num <<< 1074) : Nat) : ℚ) = 2 * inUnits (num / den) * den := by
  have hz : (den : ℚ) ≠ 0 := by positivity
  have h (k : Nat) : ((2 * (num <<< k) : Nat) : ℚ) = 2 * (num / den * 2 ^ k) * den := by
    simp only [Nat.shiftLeft_eq, Nat.cast_mul, Nat.cast_pow, Nat.cast_ofNat]
    rw [mul_assoc, mul_right_comm, div_mul_cancel₀ _ hz]
  exact h 1074

theorem passes_iff (hd : 0 < den) : Passes num den code ↔ Beyond (inUnits (num / den)) code := by
  have hp : (0 : ℚ) < den := by positivity
  rw [Passes, Beyond, ← Nat.cast_lt (α := ℚ), ← Nat.cast_inj (R := ℚ), Nat.cast_mul, cast_scaled hd,
    mul_lt_mul_iff_left₀ hp, mul_left_inj' hp.ne']

theorem nearest_nearestCode (hd : 0 < den) :
    Nearest (inUnits (num / den)) (nearestCode num den) := by
  intro code
  rw [lt_nearestCode_iff hd, passes_iff hd]

theorem roundsTo_ofRatio (hd : 0 < den) : RoundsTo (num / den) (ofRatio num den) := by
  have hl := nearestCode_le num den
  refine .of_nearest (by positivity) (nonneg_ofCode hl) ?_
  exact (code_ofCode hl).symm ▸ nearest_nearestCode hd

end LoxLex.Binary64
