import LoxLex.Proofs.Decimal.Style
import LoxLex.Proofs.Scan.WellFormed
import LoxLex.Proofs.Text.Quoted

namespace LoxLex

namespace Kind

variable {a b kind : Kind}

def ofLabel? (label : String) : Option Kind :=
  all.find? (·.label == label)

theorem ofLabel?_label (kind : Kind) : ofLabel? kind.label = some kind := by
  cases kind
  case operator op => cases op <;> rfl
  case keyword kw  => cases kw <;> rfl
  all_goals rfl

theorem label_injective (h : a.label = b.label) : a = b := by
  have h := congrArg ofLabel? h
  rw [ofLabel?_label, ofLabel?_label] at h
  exact Option.some.inj h

theorem isAlpha_of_mem_label (kind : Kind) : ∀ c ∈ kind.label.toList, c.isAlpha := by
  have h : kind.label.toList.all Char.isAlpha := by
    cases kind
    case operator op => cases op <;> rfl
    case keyword kw  => cases kw <;> rfl
    all_goals rfl
  exact List.all_eq_true.mp h

theorem not_mem_label {c : Char} (h : ¬c.isAlpha) : c ∉ kind.label.toList :=
  mt (kind.isAlpha_of_mem_label c) h

end Kind

theorem Literal.newline_not_mem_dump (l : Literal) : '\n' ∉ l.dump.toList := by
  cases l
  case number x =>
    have hx : '\n' ∉ (NumberStyle.dump.text x).toList :=
      NumberStyle.newline_not_mem_text (by decide)
    simp [dump, hx]
  case string s =>
    have hs : '\n' ∉ Quoted.encode '"' s.toList :=
      Quoted.newline_not_mem_encode (.of_isShown rfl)
    simp [dump, Quoted.text, hs]

namespace Token

variable {t u : Token} {x y : List Char}

def value (t : Token) : String :=
  t.literal.elim "" fun l => " = " ++ l.dump

theorem toList_dump (t : Token) :
    t.dump.toList = t.kind.label.toList ++ ' ' :: (Quoted.encode '"' t.lexeme.toList ++
      (t.value.toList ++ (" @ line ".toList ++ Nat.toDigits 10 t.line))) := by
  simp [dump, value, Quoted.text]

theorem newline_not_mem_value (t : Token) : '\n' ∉ t.value.toList := by
  unfold value
  cases t.literal
  case none   => exact List.not_mem_nil
  case some l => simp [l.newline_not_mem_dump]

theorem newline_not_mem_dump (t : Token) : '\n' ∉ t.dump.toList := by
  have hk : '\n' ∉ t.kind.label.toList := Kind.not_mem_label (by decide)
  have hq : '\n' ∉ Quoted.encode '"' t.lexeme.toList :=
    Quoted.newline_not_mem_encode (.of_isShown rfl)
  simp [toList_dump, hk, hq, newline_not_mem_value, Decimal.newline_not_mem_digits]

theorem WellFormed.literal_eq (ht : t.WellFormed) (hu : u.WellFormed) (hk : t.kind = u.kind)
    (hl : t.lexeme = u.lexeme) : t.literal = u.literal := by
  cases h : u.kind <;> simp only [WellFormed, hk, hl, h] at ht hu
  case string =>
    obtain ⟨v, hv, -, ht⟩ := ht
    obtain ⟨w, hw, -, hu⟩ := hu
    have he : v = w := by simpa [← String.toList_inj] using hv.symm.trans hw
    rw [ht, hu, he]
  case number =>
    obtain ⟨n, -, -, hn, ht⟩ := ht
    obtain ⟨m, -, -, hm, hu⟩ := hu
    rw [ht, hu, Option.some.inj (hn.symm.trans hm)]
  case identifier => rw [ht.right.right, hu.right.right]
  all_goals rw [ht.right, hu.right]

theorem WellFormed.dump_append_inj (ht : t.WellFormed) (hu : u.WellFormed)
    (h : t.dump.toList ++ '\n' :: x = u.dump.toList ++ '\n' :: y) : t = u ∧ x = y := by
  simp only [toList_dump, List.append_assoc, List.cons_append] at h
  have hs {kind : Kind} : ' ' ∉ kind.label.toList := Kind.not_mem_label (by decide)
  have ⟨hk, h⟩ := Run.append_cons_inj hs hs h
  have hk := Kind.label_injective (String.toList_inj.mp hk)
  have ⟨hl, h⟩ := Quoted.encode_append_inj h
  have hl := String.toList_inj.mp hl
  have hv := ht.literal_eq hu hk hl
  rw [value, value, hv] at h
  have h := List.append_cancel_left (List.append_cancel_left h)
  have ⟨hn, hx⟩ :=
    Run.append_cons_inj (Decimal.newline_not_mem_digits _) (Decimal.newline_not_mem_digits _) h
  have hn : t.line = u.line := by simpa using congrArg (Nat.ofDigitChars 10 · 0) hn
  refine ⟨?_, hx⟩
  cases t
  cases u
  cases hk
  cases hl
  cases hv
  cases hn
  rfl

end Token
end LoxLex
