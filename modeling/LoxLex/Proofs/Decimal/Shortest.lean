import LoxLex.Proofs.Binary64.Rounding
import LoxLex.Proofs.Decimal.Positional
import LoxLex.Proofs.Decimal.Value

namespace LoxLex

namespace Decimal

variable {d : Decimal} {k m p n : Nat}

theorem length_digits_le_iff (hn : 0 < n) : d.digits.length ≤ n ↔ d.coefficient < 10 ^ n :=
  Nat.length_toDigits_le_iff (by decide) hn

theorem length_fraction :
    ((Nat.toDigits 10 (n % Nat.pow 10 (p + 1))).leftpad (p + 1) '0').length = p + 1 := by
  have hm : n % Nat.pow 10 (p + 1) < 10 ^ (p + 1) := Nat.mod_lt _ (Nat.pow_pos (by decide))
  have hl := (Nat.length_toDigits_le_iff (by decide) (Nat.succ_pos p)).mpr hm
  rw [List.length_leftpad, Nat.max_eq_left hl]

theorem ratio_ofNat (h : d.exponent = .ofNat m) :
    d.numeral.numerator = d.coefficient * 10 ^ m ∧ d.numeral.denominator = 1 := by
  rw [numeral, h]
  simp [Numeral.numerator, Numeral.denominator, Nat.ofDigitChars_toDigits]

theorem ratio_negSucc (h : d.exponent = .negSucc p) :
    d.numeral.numerator = d.coefficient ∧ d.numeral.denominator = 10 ^ (p + 1) := by
  have hr (n : Nat) : Nat.ofDigitChars 10 (Nat.toDigits 10 n) 0 = n :=
    Nat.ofDigitChars_toDigits (by decide) (by decide)
  rw [numeral, h]
  constructor
  case left =>
    -- the zeros in front of the fraction are worth nothing
    simp only [Numeral.numerator]
    rw [Nat.ofDigitChars_append, hr, Nat.ofDigitChars_eq_ofDigitChars_zero, length_fraction,
      List.leftpad, Nat.ofDigitChars_append, Nat.ofDigitChars_replicate_zero, Nat.mul_zero, hr]
    exact Nat.div_add_mod ..
  case right =>
    simp only [Numeral.denominator, length_fraction]
    rfl

theorem ratio_eq (h : d.exponent = (k : Int) - m) :
    d.numeral.numerator * 10 ^ m = d.coefficient * 10 ^ k * d.numeral.denominator := by
  cases he : d.exponent <;> rw [he] at h
  case ofNat n =>
    have hk : (n : Int) = k - m := h
    have hk : k = n + m := by omega
    have ⟨hn, hd⟩ := ratio_ofNat he
    rw [hn, hd, hk, Nat.mul_one, Nat.mul_assoc, ← Nat.pow_add]
  case negSucc p =>
    have hm : m = k + (p + 1) := by omega
    have ⟨hn, hd⟩ := ratio_negSucc he
    rw [hn, hd, hm, Nat.mul_assoc, ← Nat.pow_add]

theorem ratio_le {c : Nat} (hc : d.coefficient ≤ c) (h : d.exponent ≤ (k : Int) - m) :
    d.numeral.numerator * 10 ^ m ≤ c * 10 ^ k * d.numeral.denominator := by
  let more := (-(d.exponent + m)).toNat
  have hs : d.exponent = ((d.exponent + m + more).toNat : Int) - (m + more : Nat) := by omega
  refine Nat.le_of_mul_le_mul_right ?_ (Nat.pow_pos (by decide) : 0 < 10 ^ more)
  calc d.numeral.numerator * 10 ^ m * 10 ^ more
    _ = d.numeral.numerator * 10 ^ (m + more) := by rw [Nat.mul_assoc, ← Nat.pow_add]
    _ = d.coefficient * 10 ^ (d.exponent + m + more).toNat * d.numeral.denominator := ratio_eq hs
    _ ≤ c * 10 ^ (k + more) * d.numeral.denominator := by
      have hk : (d.exponent + m + more).toNat ≤ k + more := by omega
      exact Nat.mul_le_mul_right _ (Nat.mul_le_mul hc (Nat.pow_le_pow_right (by decide) hk))
    _ = c * 10 ^ k * d.numeral.denominator * 10 ^ more := by rw [Nat.pow_add]; ac_rfl

theorem whole_eq :
    d.numeral.whole = Nat.toDigits 10 (d.numeral.numerator / d.numeral.denominator) := by
  cases he : d.exponent
  case ofNat =>
    obtain ⟨hn, hd⟩ := ratio_ofNat he
    rw [hn, hd, Nat.div_one, numeral, he]
    rfl
  case negSucc =>
    obtain ⟨hn, hd⟩ := ratio_negSucc he
    rw [hn, hd, numeral, he]
    rfl

theorem length_fraction_le (h : d.exponent = (k : Int) - m) : d.numeral.fraction.length ≤ m := by
  cases he : d.exponent <;> rw [he] at h
  case ofNat =>
    rw [numeral, he]
    exact Nat.zero_le _
  case negSucc =>
    simp only [numeral, he, length_fraction]
    omega

end Decimal

namespace Binary64

namespace Reading

variable {r : Reading} {a b c i point step : Nat}

-- The magnitude lies between the ends, and is none of them.
structure Proper (r : Reading) : Prop where
  low_lt  : r.low < 2 * r.value
  lt_high : 2 * r.value < r.high

theorem contains_iff : r.contains point ↔
    (r.low < 2 * point ∨ r.low = 2 * point ∧ r.closed) ∧
      (2 * point < r.high ∨ 2 * point = r.high ∧ r.closed) := by
  cases hc : r.closed <;> simp [contains, hc, Nat.le_iff_lt_or_eq]

theorem contains_of_between (ha : r.contains a) (hb : r.contains b) (hac : a ≤ c) (hcb : c ≤ b) :
    r.contains c := by
  rw [contains_iff] at *
  grind

theorem contains_value (hr : r.Proper) : r.contains r.value :=
  contains_iff.mpr ⟨.inl hr.low_lt, .inl hr.lt_high⟩

theorem contains_of_gridPoint? (h : r.gridPoint? step = some c) : r.contains (c * step) := by
  simp only [gridPoint?] at h
  split at h
  case h_1 hd hu => cases h; split <;> assumption
  case h_2 hd hu => cases h; exact hd
  case h_3 hd hu => cases h; exact hu
  case h_4       => cases h

-- A point further down would take the one below the magnitude with it, and so above.
theorem not_contains_of_gridPoint? (hr : r.Proper) (hs : 0 < step)
    (h : r.gridPoint? step = none) (c : Nat) : ¬r.contains (c * step) := by
  intro hc
  have hv := contains_value hr
  simp only [gridPoint?] at h
  split at h
  case h_4 hd hu =>
    by_cases hl : c ≤ r.value / step
    case pos =>
      have hm := Nat.mul_le_mul_right step hl
      have := contains_of_between hc hv hm (Nat.div_mul_le_self ..)
      simp [hd] at this
    case neg =>
      have hm := Nat.mul_le_mul_right step (Nat.lt_of_not_le hl)
      have hn : r.value ≤ (r.value / step + 1) * step := by
        rw [Nat.add_one_mul]
        exact Nat.le_of_lt (Nat.lt_div_mul_add hs)
      have := contains_of_between hv hc hn hm
      simp [hu] at this
  all_goals cases h

-- Of the grids that are tried, the decimal is from the coarsest one with a point.
theorem coarsest_spec (hr : r.Proper) (i : Nat) :
    ∃ k : Nat, (r.coarsest i).exponent = k - (places : Int) ∧
      r.contains ((r.coarsest i).coefficient * 10 ^ k) ∧
        ∀ j ≤ i, k < j → ∀ c, ¬r.contains (c * 10 ^ j) := by
  -- The grids are tried from coarse to fine, so those above `i` are not spoken of.
  induction i
  case zero =>
    refine ⟨0, ?_, ?_, fun j hj hk => absurd hk (by omega)⟩
    · simp [coarsest]
    · simpa [coarsest] using contains_value hr
  case succ i hi =>
    cases hg : r.gridPoint? (Nat.pow 10 (i + 1))
    case some c =>
      have he : r.coarsest (i + 1) = ⟨c, (i + 1 : Nat) - (places : Int)⟩ := by
        simp only [coarsest, hg]
      rw [he]
      exact ⟨i + 1, rfl, contains_of_gridPoint? hg, fun j hj hk => absurd hk (by omega)⟩
    case none =>
      have ⟨k, he, hc, hn⟩ := hi
      have hq : r.coarsest (i + 1) = r.coarsest i := by simp only [coarsest, hg]
      rw [hq]
      refine ⟨k, he, hc, fun j hj hk c => ?_⟩
      rcases Nat.lt_or_eq_of_le hj with hj | rfl
      case inl => exact hn j (Nat.le_of_lt_succ hj) hk c
      case inr => exact not_contains_of_gridPoint? hr (Nat.pow_pos (by decide)) hg c

end Reading

variable {num den point code j k : Nat} {d : Decimal}

theorem fineUnits_eq (code : Nat) : fineUnits code = units code * 5 ^ places := by
  rw [fineUnits, Nat.pow_eq]

theorem fineUnits_strictMono : StrictMono fineUnits := by
  intro a b h
  rw [fineUnits_eq, fineUnits_eq]
  exact Nat.mul_lt_mul_of_pos_right (units_strictMono h) (Nat.pow_pos (by decide))

theorem reading_proper (h : 0 < code) : (reading code).Proper where
  low_lt := by
    have : fineUnits (code - 1) < fineUnits code := fineUnits_strictMono (by omega)
    show fineUnits (code - 1) + fineUnits code < 2 * fineUnits code
    omega
  lt_high := by
    have : fineUnits code < fineUnits (code + 1) := fineUnits_strictMono (by omega)
    show 2 * fineUnits code < fineUnits code + fineUnits (code + 1)
    omega

theorem passes_iff_fine (hd : 0 < den) (h : num * 10 ^ places = point * den) :
    Passes num den code ↔
      fineUnits code + fineUnits (code + 1) < 2 * point ∨
        fineUnits code + fineUnits (code + 1) = 2 * point ∧ code % 2 = 1 := by
  have hp : 0 < 5 ^ places := Nat.pow_pos (by decide)
  have hm : middle code * den * 5 ^ places = (fineUnits code + fineUnits (code + 1)) * den := by
    rw [fineUnits_eq, fineUnits_eq, ← Nat.add_mul, ← middle, Nat.mul_right_comm]
  have hs : 2 * (num <<< places) * 5 ^ places = 2 * point * den := by
    rw [Nat.mul_assoc, Nat.shiftLeft_eq, Nat.mul_assoc num, ← Nat.mul_pow, h, Nat.mul_assoc]
  show middle code * den < 2 * (num <<< places) ∨
    middle code * den = 2 * (num <<< places) ∧ code % 2 = 1 ↔ _
  rw [← Nat.mul_lt_mul_right hp, ← Nat.mul_right_cancel_iff hp, hm, hs, Nat.mul_lt_mul_right hd,
    Nat.mul_right_cancel_iff hd]

theorem contains_reading_iff (hd : 0 < den) (h : num * 10 ^ places = point * den) (hc : 0 < code)
    (hi : code < infinityCode) : (reading code).contains point ↔ nearestCode num den = code := by
  have hs : code - 1 + 1 = code := Nat.sub_add_cancel hc
  have hl : (reading code).low = fineUnits (code - 1) + fineUnits code := rfl
  have hh : (reading code).high = fineUnits code + fineUnits (code + 1) := rfl
  have he : (reading code).closed ↔ code % 2 = 0 := decide_eq_true_iff
  rw [nearestCode_eq_iff hd hc hi, passes_iff_fine hd h, passes_iff_fine hd h, hs,
    Reading.contains_iff, hl, hh, he]
  omega

theorem reading_high_lt (code : Nat) :
    (reading code).high < 10 ^ ((reading code).high.log2 / 3 + 1) := by
  generalize (reading code).high = high
  calc high
    _ < 2 ^ (high.log2 + 1)           := Nat.lt_log2_self
    _ ≤ 2 ^ (3 * (high.log2 / 3 + 1)) := Nat.pow_le_pow_right (by decide) (by omega)
    _ = 8 ^ (high.log2 / 3 + 1)       := Nat.pow_mul ..
    _ ≤ 10 ^ (high.log2 / 3 + 1)      := Nat.pow_le_pow_left (by decide) _

-- The grids that are not tried are too coarse.
theorem shortest_spec (h : 0 < code) : ∃ k : Nat, (shortest code).exponent = k - (places : Int) ∧
    (reading code).contains ((shortest code).coefficient * 10 ^ k) ∧
      ∀ j, k < j → ∀ c, ¬(reading code).contains (c * 10 ^ j) := by
  have hs : shortest code = (reading code).coarsest ((reading code).high.log2 / 3 + 1) :=
    if_neg (Nat.ne_of_gt h)
  have ⟨k, he, hc, hn⟩ :=
    Reading.coarsest_spec (reading_proper h) ((reading code).high.log2 / 3 + 1)
  rw [hs]
  refine ⟨k, he, hc, fun j hk c hj => ?_⟩
  by_cases hi : j ≤ (reading code).high.log2 / 3 + 1
  case pos => exact hn j hi hk c hj
  case neg =>
    have hl : 0 < (reading code).low :=
      Nat.lt_add_left _ (Nat.zero_lt_of_lt (fineUnits_strictMono h))
    have hh : (reading code).high < 10 ^ j :=
      (reading_high_lt code).trans_le (Nat.pow_le_pow_right (by decide) (Nat.le_of_not_le hi))
    rw [Reading.contains_iff] at hj
    -- the first point of the grid is too low, and the second too high
    have hc : 0 < c := by
      refine Nat.pos_of_ne_zero fun hz => ?_
      rw [hz] at hj
      omega
    have := Nat.le_mul_of_pos_left (10 ^ j) hc
    omega

theorem exists_exponent_shortest (code : Nat) :
    ∃ k : Nat, (shortest code).exponent = k - (places : Int) := by
  cases code
  case zero => exact ⟨places, rfl⟩
  case succ last =>
    have ⟨k, he, _⟩ := shortest_spec (Nat.succ_pos last)
    exact ⟨k, he⟩

theorem toBinary64_eq_iff (hi : code < infinityCode) {n : Numeral} :
    n.toBinary64 = ofCode code ↔ nearestCode n.numerator n.denominator = code := by
  constructor
  case mpr => exact fun h => congrArg ofCode h
  case mp =>
    intro h
    have hc := congrArg Binary64.code h
    rw [code_ofCode hi.le] at hc
    exact (code_ofCode (nearestCode_le ..)).symm.trans hc

theorem contains_numeral_iff (he : d.exponent = (k : Int) - places) (hc : 0 < code)
    (hi : code < infinityCode) :
    (reading code).contains (d.coefficient * 10 ^ k) ↔ d.numeral.toBinary64 = ofCode code := by
  rw [toBinary64_eq_iff hi]
  exact contains_reading_iff Numeral.denominator_pos (Decimal.ratio_eq he) hc hi

theorem toBinary64_shortest (hi : code < infinityCode) :
    (shortest code).numeral.toBinary64 = ofCode code := by
  cases code
  case zero => decide +kernel
  case succ last =>
    have ⟨k, he, hc, _⟩ := shortest_spec (Nat.succ_pos last)
    exact (contains_numeral_iff he (Nat.succ_pos last) hi).mp hc

-- No decimal with fewer digits reads back. It would not be from a coarser grid, and from any other
-- it would be so small that there is a power of ten between it and the shortest.
theorem length_digits_shortest_le (hi : code < infinityCode)
    (h : d.numeral.toBinary64 = ofCode code) :
    (shortest code).digits.length ≤ d.digits.length := by
  have hl : 0 < d.digits.length := Nat.length_toDigits_pos
  cases code
  case zero => exact hl
  case succ last =>
    have hp := Nat.succ_pos last
    have ⟨k, he, hc, hn⟩ := shortest_spec hp
    have hs := (contains_numeral_iff he hp hi).mp hc
    refine Nat.le_of_not_lt fun hlt => ?_
    have ⟨n, hn2⟩ : ∃ n, (shortest (last + 1)).digits.length = n + 2 :=
      ⟨_, (Nat.sub_add_cancel (by omega)).symm⟩
    have hdc : d.coefficient < 10 ^ (n + 1) :=
      (Decimal.length_digits_le_iff n.succ_pos).mp (by omega)
    have hsc : 10 ^ (n + 1) ≤ (shortest (last + 1)).coefficient :=
      Nat.le_of_not_lt (mt (Decimal.length_digits_le_iff n.succ_pos).mpr (by omega))
    by_cases hx : d.exponent ≤ (k : Int) - places
    case pos =>
      -- the power of ten between the two reads as the magnitude, and stands on a coarser grid
      let point := 10 ^ (n + 1) * 10 ^ k
      have hz : 0 < 10 ^ places := Nat.pow_pos (by decide)
      rw [toBinary64_eq_iff hi] at h hs
      have hlo : last + 1 ≤ nearestCode point (10 ^ places) :=
        h ▸ nearestCode_mono Numeral.denominator_pos hz (Decimal.ratio_le hdc.le hx)
      have hhi : nearestCode point (10 ^ places) ≤ last + 1 := by
        refine hs ▸ nearestCode_mono hz Numeral.denominator_pos ?_
        rw [Decimal.ratio_eq he]
        exact Nat.mul_le_mul_right _ (Nat.mul_le_mul_right _ hsc)
      have hm := (contains_reading_iff hz rfl hp hi).mpr (hhi.antisymm hlo)
      have hg : point = 10 ^ n * 10 ^ (k + 1) := by
        show 10 ^ (n + 1) * 10 ^ k = _
        rw [Nat.pow_succ, Nat.pow_succ, Nat.mul_assoc, Nat.mul_comm 10]
      exact hn (k + 1) k.lt_succ_self (10 ^ n) (hg ▸ hm)
    case neg =>
      have hj : d.exponent = ((d.exponent + places).toNat : Int) - places := by omega
      exact hn _ (by omega) _ ((contains_numeral_iff hj hp hi).mpr h)

end Binary64
end LoxLex
