import LoxLex.Decimal.Style
import LoxLex.Proofs.Decimal.Numeral

namespace LoxLex

namespace Decimal

-- The numeral that a decimal is when it is written without an exponent.
def numeral (d : Decimal) : Numeral :=
  match d.exponent with
  | .ofNat zeros => ⟨Nat.toDigits 10 (d.coefficient * Nat.pow 10 zeros), []⟩
  | .negSucc p   => {
    whole    := Nat.toDigits 10 (d.coefficient / Nat.pow 10 (p + 1))
    fraction := (Nat.toDigits 10 (d.coefficient % Nat.pow 10 (p + 1))).leftpad (p + 1) '0'
  }

variable {c : Char} {k n : Nat} (d : Decimal)

theorem isDigit_of_mem (h : c ∈ Nat.toDigits 10 n) : c.isDigit :=
  Nat.isDigit_of_mem_toDigits (by decide) (by decide) h

theorem isDigit_of_mem_leftpad (h : c ∈ (Nat.toDigits 10 n).leftpad k '0') : c.isDigit := by
  rcases List.mem_append.mp h with h | h
  case inl => rw [List.eq_of_mem_replicate h]; rfl
  case inr => exact isDigit_of_mem h

theorem leftpad_ne_nil : (Nat.toDigits 10 n).leftpad k '0' ≠ [] := by
  simp [List.leftpad, Nat.toDigits_ne_nil]

theorem numeral_valid : d.numeral.Valid := by
  unfold numeral
  split
  case h_1 => exact ⟨Nat.toDigits_ne_nil, fun _ => isDigit_of_mem, by simp⟩
  case h_2 =>
    exact ⟨Nat.toDigits_ne_nil, fun _ => isDigit_of_mem, fun _ => isDigit_of_mem_leftpad⟩

theorem numeral_text : d.numeral.text = d.positional := by
  cases h : d.exponent <;> simp only [numeral, positional, h]
  case ofNat   => exact Numeral.text_of_nil rfl
  case negSucc => exact Numeral.text_of_ne_nil leftpad_ne_nil

end Decimal

theorem NumberStyle.text_listing {x : Binary64} (hf : x.isFinite) (hs : ¬x.isNegative) :
    NumberStyle.listing.text x = .ofList (Binary64.shortest x.code).numeral.text := by
  simp only [Binary64.isFinite, decide_eq_true_eq] at hf
  have hn : x.isNaN = false := decide_eq_false (Nat.not_lt_of_lt hf)
  have hi : x.isInfinite = false := decide_eq_false (Nat.ne_of_lt hf)
  have hp : listing.isPositional (Binary64.shortest x.code) := rfl
  have hw : listing.wholeSuffix = [] := rfl
  simp [text, hn, hs, magnitudeText, hi, decimalText, hp, hw, Decimal.numeral_text]

end LoxLex
