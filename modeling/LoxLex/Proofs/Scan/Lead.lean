import LoxLex.Scan.Lead
import LoxLex.Proofs.Piece.Tiling
import LoxLex.Proofs.Text.Utf8

namespace LoxLex.Lead

-- The characters that announce each kind of construct, and what they start.
inductive Announced : Char → Lead → Prop
  | blank      (h : Piece.isBlank c) : Announced c blank
  | newline    : Announced '\n' newline
  | quote      : Announced '"' quote
  | digit      (h : c.isDigit) : Announced c digit
  | letter     (h : Piece.isWordStart c) : Announced c letter
  | slash      : Announced '/' slash
  | mark       (ho : op.lexeme = .ofList [c])
               (h : ∀ cs, Piece.first c cs = (.operator op, cs)) : Announced c (mark op)
  | comparison (ha : alone.lexeme = .ofList [c]) (he : withEqual.lexeme = .ofList [c, '='])
               (h : ∀ cs, cs.head? ≠ some '=' → Piece.first c cs = (.operator alone, cs))
               (h' : ∀ cs, Piece.first c ('=' :: cs) = (.operator withEqual, cs)) :
               Announced c (comparison alone withEqual)
  | other      (h : Piece.IsStray c) : Announced c other

variable {c : Char} {cs : List Char}

theorem val_le_of_isDigit (h : c.isDigit) : c.val ≤ 127 := by
  simp only [Char.isDigit, Bool.and_eq_true, decide_eq_true_eq] at h
  exact UInt32.le_trans h.right (by decide)

theorem val_le_of_isAlpha (h : c.isAlpha) : c.val ≤ 127 := by
  rcases Piece.isAlpha_iff.mp h with h | h
  case inl => exact UInt32.le_trans h.right (by decide)
  case inr => exact UInt32.le_trans h.right (by decide)

theorem val_le_of_isWordStart (h : Piece.isWordStart c) : c.val ≤ 127 := by
  simp only [Piece.isWordStart, Bool.or_eq_true, beq_iff_eq] at h
  rcases h with h | rfl
  case inl => exact val_le_of_isAlpha h
  case inr => decide

theorem val_le_of_isWordPart (h : Piece.isWordPart c) : c.val ≤ 127 := by
  simp only [Piece.isWordPart, Char.isAlphanum, Bool.or_eq_true, beq_iff_eq] at h
  rcases h with (h | h) | rfl
  case inl.inl => exact val_le_of_isAlpha h
  case inl.inr => exact val_le_of_isDigit h
  case inr     => decide

theorem isDigit_agrees : Utf8.Agrees isDigit Char.isDigit :=
  Utf8.agrees_ofUInt8 fun _ => val_le_of_isDigit

theorem isWordStart_agrees : Utf8.Agrees isWordStart Piece.isWordStart :=
  Utf8.agrees_ofUInt8 fun _ => val_le_of_isWordStart

theorem isWordPart_agrees : Utf8.Agrees isWordPart Piece.isWordPart :=
  Utf8.agrees_ofUInt8 fun _ => val_le_of_isWordPart

theorem isStray_of_lt (h : 127 < c.val) : Piece.IsStray c where
  newline  := by rintro rfl; contradiction
  blank    := fun hb => by rcases Piece.eq_of_isBlank hb with rfl | rfl | rfl <;> contradiction
  quote    := by rintro rfl; contradiction
  digit    := fun hd => UInt32.not_le.mpr h (val_le_of_isDigit hd)
  word     := fun hw => UInt32.not_le.mpr h (val_le_of_isWordStart hw)
  operator := fun op ho => by cases op <;> cases ho <;> contradiction

theorem first_alone {op : Operator} (ho : op.lexeme = .ofList [c]) (hs : op ≠ .slash)
    (h : cs.head? ≠ some '=') : Piece.first c cs = (.operator op, cs) := by
  refine Piece.first_of_fits ⟨Operator.isLongest_append h, (absurd · hs)⟩ ?_
  rw [Piece.text, ho, String.toList_ofList, List.singleton_append]

theorem ofByte_of_le {b : UInt8} (h : 128 ≤ b) : ofByte b = other := by
  have hx := Utf8.lt_ofUInt8 h
  have hd : ¬isDigit b := fun hd => UInt32.not_le.mpr hx (val_le_of_isDigit hd)
  have hw : ¬isWordStart b := fun hw => UInt32.not_le.mpr hx (val_le_of_isWordStart hw)
  unfold ofByte
  split
  case h_21 => rw [if_neg hd, if_neg hw]
  all_goals
    have he := ‹Char.ofUInt8 b = _›
    rw [he] at hx
    contradiction

theorem announced (c : Char) : Announced c (ofByte (Utf8.lead c)) := by
  cases Decidable.em (c.val ≤ 127)
  case inr h =>
    have h := UInt32.not_le.mp h
    rw [ofByte_of_le (Utf8.le_lead h)]
    exact .other (isStray_of_lt h)
  case inl h =>
    unfold ofByte
    rw [Utf8.ofUInt8_lead h, isDigit_agrees.lead, isWordStart_agrees.lead]
    -- The cases are the characters in the order in which they are told apart. Those without a case
    -- of their own are marks.
    split
    case h_11 | h_12 | h_13 | h_14 =>
      exact .comparison rfl rfl (fun _ => first_alone rfl nofun) fun cs => rfl
    case h_15 => exact .slash
    case h_16 | h_17 | h_18 => exact .blank rfl
    case h_19 => exact .newline
    case h_20 => exact .quote
    case h_21 =>
      split
      case isTrue hd => exact .digit hd
      split
      case isTrue hw => exact .letter hw
      case isFalse hd hw =>
        refine .other ⟨‹_›, ?_, ‹_›, hd, hw, ?_⟩
        case refine_1 => simp_all [Piece.isBlank]
        case refine_2 =>
          intro op ho
          cases op <;> cases ho <;> contradiction
    all_goals exact .mark rfl fun cs => rfl

end LoxLex.Lead
