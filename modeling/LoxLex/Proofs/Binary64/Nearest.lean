import LoxLex.Proofs.Binary64.Units

namespace LoxLex.Binary64

-- Twice the middle between the magnitudes of a code and the next.
def middle (code : Nat) : Nat :=
  units code + units (code + 1)

-- A ratio lies past the middle behind a code, or in the middle if the code is odd.
def Passes (num den code : Nat) : Prop :=
  middle code * den < 2 * (num <<< 1074) ∨
    middle code * den = 2 * (num <<< 1074) ∧ code % 2 = 1

variable {num den code : Nat}

instance : Decidable (Passes num den code) :=
  inferInstanceAs (Decidable (_ ∨ _))

theorem Splits.middle_eq {exponent significand : Nat} (h : Splits code exponent significand) :
    middle code = (2 * significand + 1) * 2 ^ exponent := by
  rw [middle, h.units_eq, h.units_succ, ← Nat.add_mul, Nat.two_mul, Nat.add_assoc]

section Floor

variable (num den) (hd : 0 < den)

def low : Nat :=
  floorCode (num <<< 1074 / den)

theorem units_low_le : units (low num den) * den ≤ num <<< 1074 :=
  (Nat.mul_le_mul_right den (units_floorCode_le _)).trans (Nat.div_mul_le_self ..)

include hd in
theorem lt_units_low_succ : num <<< 1074 < units (low num den + 1) * den :=
  (Nat.div_lt_iff_lt_mul hd).mp (lt_units_floorCode_succ _)

end Floor

theorem nearestCode_eq : nearestCode num den =
    min (if Passes num den (low num den) then low num den + 1 else low num den) infinityCode := by
  refine congrArg (min · infinityCode) ?_
  grind [Passes, middle, low]

theorem passes_of_lt_low (hd : 0 < den) (h : code < low num den) : Passes num den code := by
  refine .inl ?_
  have hm : middle code < 2 * units (low num den) := by
    have := units_strictMono h
    have := units_strictMono.monotone (Nat.add_one_le_of_lt h)
    unfold middle
    omega
  have := units_low_le num den
  have := Nat.mul_lt_mul_of_pos_right hm hd
  rw [Nat.mul_assoc] at this
  omega

theorem not_passes_of_low_lt (hd : 0 < den) (h : low num den < code) : ¬Passes num den code := by
  have hm : 2 * units (low num den + 1) ≤ middle code := by
    have := units_strictMono.monotone (Nat.add_one_le_of_lt h)
    have := units_strictMono (Nat.lt_add_one code)
    unfold middle
    omega
  have := lt_units_low_succ num den hd
  have := Nat.mul_le_mul_right den hm
  rw [Nat.mul_assoc] at this
  unfold Passes
  omega

-- The nearest code is the number of the middles that are passed.
theorem lt_nearestCode_iff (hd : 0 < den) :
    code < nearestCode num den ↔ code < infinityCode ∧ Passes num den code := by
  rw [nearestCode_eq, Nat.lt_min, and_comm, and_congr_right_iff]
  intro
  rcases Nat.lt_trichotomy code (low num den) with hc | rfl | hc
  case inl =>
    have := passes_of_lt_low hd hc
    split <;> simp [this] <;> omega
  case inr.inl => split <;> simp [*]
  case inr.inr =>
    have := not_passes_of_low_lt hd hc
    split <;> simp [this] <;> omega

theorem nearestCode_le (num den : Nat) : nearestCode num den ≤ infinityCode :=
  Nat.min_le_right ..

theorem nearestCode_eq_iff (hd : 0 < den) (hc : 0 < code) (hi : code < infinityCode) :
    nearestCode num den = code ↔ Passes num den (code - 1) ∧ ¬Passes num den code := by
  have hl : code - 1 < nearestCode num den ↔ code - 1 < infinityCode ∧ _ := lt_nearestCode_iff hd
  have hu : code < nearestCode num den ↔ code < infinityCode ∧ _ := lt_nearestCode_iff hd
  grind

section Mono

variable {num' den' : Nat} (hd : 0 < den) (hd' : 0 < den') (h : num * den' ≤ num' * den)
include hd hd' h

theorem Passes.mono (hp : Passes num den code) : Passes num' den' code := by
  have hs (k : Nat) : 2 * (num <<< k) * den' ≤ 2 * (num' <<< k) * den := by
    rw [Nat.shiftLeft_eq, Nat.shiftLeft_eq]
    calc 2 * (num * 2 ^ k) * den'
      _ = num * den' * (2 * 2 ^ k) := by ac_rfl
      _ ≤ num' * den * (2 * 2 ^ k) := Nat.mul_le_mul_right _ h
      _ = 2 * (num' * 2 ^ k) * den := by ac_rfl
  have hs : 2 * (num <<< 1074) * den' ≤ 2 * (num' <<< 1074) * den := hs 1074
  rcases hp with hl | ⟨he, ho⟩
  case inl =>
    have hl := (Nat.mul_lt_mul_of_pos_right hl hd').trans_le hs
    rw [Nat.mul_right_comm] at hl
    exact .inl (Nat.lt_of_mul_lt_mul_right hl)
  case inr =>
    rw [← he, Nat.mul_right_comm] at hs
    have hs := Nat.le_of_mul_le_mul_right hs hd
    exact (Nat.lt_or_eq_of_le hs).imp_right (⟨·, ho⟩)

theorem nearestCode_mono : nearestCode num den ≤ nearestCode num' den' := by
  refine Nat.le_of_not_lt fun hl => ?_
  have ⟨hi, hp⟩ := (lt_nearestCode_iff hd).mp hl
  exact Nat.lt_irrefl _ ((lt_nearestCode_iff hd').mpr ⟨hi, hp.mono hd hd' h⟩)

end Mono

end LoxLex.Binary64
