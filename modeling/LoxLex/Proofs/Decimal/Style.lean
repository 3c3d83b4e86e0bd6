import LoxLex.Decimal.Style
import LoxLex.Proofs.Text.Digits

namespace LoxLex

namespace Decimal

variable {d : Decimal} {i : Int}

theorem newline_not_mem_digits (n : Nat) : '\n' ∉ Nat.toDigits 10 n :=
  Digits.newline_not_mem (by decide)

theorem newline_not_mem_integer : '\n' ∉ integer i := by
  cases i <;> simp [integer, newline_not_mem_digits]

theorem newline_not_mem_positional : '\n' ∉ d.positional := by
  unfold positional
  split
  case h_1 => exact newline_not_mem_digits _
  case h_2 => simp [List.leftpad, newline_not_mem_digits]

theorem newline_not_mem_scientific : '\n' ∉ d.scientific := by
  have hd : '\n' ∉ d.digits := newline_not_mem_digits _
  simp only [scientific, List.mem_append, List.mem_cons, not_or]
  refine ⟨?_, by decide, newline_not_mem_integer⟩
  split
  case h_1 h => simpa [h] using hd
  case h_2   => exact hd

end Decimal

namespace NumberStyle

variable {style : NumberStyle} {x : Binary64}

theorem newline_not_mem_decimalText {d : Decimal} (h : '\n' ∉ style.wholeSuffix) :
    '\n' ∉ style.decimalText d := by
  unfold decimalText
  split
  case isTrue  => split <;> simp [Decimal.newline_not_mem_positional, h]
  case isFalse => exact Decimal.newline_not_mem_scientific

theorem newline_not_mem_text (h : '\n' ∉ style.wholeSuffix) : '\n' ∉ (style.text x).toList := by
  have hm : '\n' ∉ style.magnitudeText x := by
    unfold magnitudeText
    split
    case isTrue  => decide
    case isFalse => exact newline_not_mem_decimalText h
  unfold text
  split
  case isTrue  => decide
  case isFalse => split <;> simp [hm]

end NumberStyle
end LoxLex
