import LoxLex.Decimal.Numeral
import LoxLex.Proofs.Text.Run

namespace LoxLex.Numeral

structure Valid (n : Numeral) : Prop where
  whole_ne_nil : n.whole ≠ []
  whole        : ∀ c ∈ n.whole, c.isDigit
  fraction     : ∀ c ∈ n.fraction, c.isDigit

variable {n : Numeral}

def tail (n : Numeral) : List Char :=
  if n.fraction.isEmpty then [] else '.' :: n.fraction

theorem text_eq : n.text = n.whole ++ n.tail := by
  unfold text tail
  split <;> simp

theorem length_tail_le (n : Numeral) : n.tail.length ≤ n.fraction.length + 1 := by
  unfold tail
  split <;> simp

theorem text_of_nil (h : n.fraction = []) : n.text = n.whole := by
  simp [text, h]

theorem text_of_ne_nil (h : n.fraction ≠ []) : n.text = n.whole ++ '.' :: n.fraction := by
  simp [text, h]

theorem Valid.isDigit_or_eq_of_mem {c : Char} (h : n.Valid) (hc : c ∈ n.text) :
    c.isDigit ∨ c = '.' := by
  unfold text at hc
  split at hc
  case isTrue => exact .inl (h.whole c hc)
  case isFalse =>
    rcases List.mem_append.mp hc with hc | hc
    case inl => exact .inl (h.whole c hc)
    case inr => exact (List.mem_cons.mp hc).symm.imp_left (h.fraction c)

theorem Valid.newline_not_mem_text (h : n.Valid) : '\n' ∉ n.text := by
  intro hm
  cases h.isDigit_or_eq_of_mem hm
  case inl hd => contradiction
  case inr he => contradiction

theorem parse?_text (h : n.Valid) : parse? n.text = some n := by
  have ⟨whole, fraction⟩ := n
  have hw : whole ≠ [] := h.whole_ne_nil
  cases fraction
  case nil =>
    have hr : Run Char.isDigit whole [] := ⟨h.whole, by simp⟩
    have ht := hr.takeWhile_eq
    have hd := hr.dropWhile_eq
    rw [List.append_nil] at ht hd
    simp [parse?, text, ht, hd, hw]
  case cons c cs =>
    have hr : Run Char.isDigit whole ('.' :: c :: cs) := ⟨h.whole, by simp⟩
    have hf := h.fraction
    simp_all [parse?, text, hr.takeWhile_eq, hr.dropWhile_eq]

end LoxLex.Numeral
