import LoxLex.Proofs.Scan.Step.Basic

namespace LoxLex.Scan

open Piece

variable {src : Source} {o line : Nat} {c : Char} {cs xs rest : List Char}

theorem val_le_of_lexeme {op : Operator} (ho : op.lexeme = .ofList xs) : ∀ c ∈ xs, c.val ≤ 127 := by
  have ha : op.lexeme.toList.all (·.val ≤ 127) := by cases op <;> rfl
  rw [ho, String.toList_ofList] at ha
  simpa using ha

theorem emit_operator (op : Operator) (ho : op.lexeme = .ofList xs) (h : src.Reads o (xs ++ rest)) :
    emit src (.operator op) o (o + Utf8.size xs) line =
      .ok (.ofPiece o line (.operator op) rest) := by
  have hn : (operator op).newlines = 0 := by cases op <;> rfl
  rw [emit_eq h, Step.ofPiece, hn, text, ho, String.toList_ofList, ← ho]
  rfl

theorem mark_eq {op : Operator} (ho : op.lexeme = .ofList [c]) (h : src.Reads o (c :: cs)) :
    mark src op o line = .ok (.ofPiece o line (.operator op) cs) := by
  have hc := val_le_of_lexeme ho c List.mem_cons_self
  rw [mark, h.advance, Fault.ok_bind, ← emit_operator op ho h, Utf8.add_size_cons_of_le hc]
  rfl

theorem comparison_alone {alone withEqual : Operator} (ha : alone.lexeme = .ofList [c])
    (h : src.Reads o (c :: cs)) (hn : cs.head? ≠ some '=') :
    comparison src alone withEqual o line = .ok (.ofPiece o line (.operator alone) cs) := by
  have hc := val_le_of_lexeme ha c List.mem_cons_self
  have hf : Utf8.front cs ≠ '='.toUInt8 := mt (Utf8.front_eq_iff (by decide) (by decide)).mp hn
  rw [comparison, h.advance, Fault.ok_bind, (h.tail_of_le hc).current, Fault.ok_bind, if_neg hf,
    ← emit_operator alone ha h, Utf8.add_size_cons_of_le hc]
  rfl

theorem comparison_withEqual {alone withEqual : Operator} (he : withEqual.lexeme = .ofList [c, '='])
    (h : src.Reads o (c :: '=' :: cs)) :
    comparison src alone withEqual o line = .ok (.ofPiece o line (.operator withEqual) cs) := by
  have hc := val_le_of_lexeme he c List.mem_cons_self
  have ht := h.tail_of_le hc
  have hf : Utf8.front ('=' :: cs) = '='.toUInt8 := rfl
  rw [comparison, h.advance, Fault.ok_bind, ht.current, Fault.ok_bind, if_pos hf,
    ht.advance, Fault.ok_bind, ← emit_operator withEqual he h, Utf8.add_size_cons_of_le hc]
  rfl

theorem comparison_eq {alone withEqual : Operator}
    (ha : Lead.Announced c (.comparison alone withEqual)) (h : src.Reads o (c :: cs)) :
    comparison src alone withEqual o line =
      .ok (.ofPiece o line (first c cs).1 (first c cs).2) := by
  cases ha with
  | comparison ha he hf hf' =>
    cases Decidable.em (cs.head? = some '=')
    case inl hd =>
      have ⟨ds, hc⟩ := List.head?_eq_some_iff.mp hd
      subst hc
      rw [hf' ds]
      exact comparison_withEqual he h
    case inr hd =>
      rw [hf cs hd]
      exact comparison_alone ha h hd

theorem slash_alone (h : src.Reads o ('/' :: cs)) (hn : cs.head? ≠ some '/') :
    slash src o line = .ok (.ofPiece o line (.operator .slash) cs) := by
  have hf : Utf8.front cs ≠ '/'.toUInt8 := mt (Utf8.front_eq_iff (by decide) (by decide)).mp hn
  have ht : src.Reads (o + 1) cs := h.tail
  rw [slash, h.advance, Fault.ok_bind, ht.current, Fault.ok_bind, if_neg hf,
    ← emit_operator .slash rfl h]
  rfl

theorem slash_comment {body : List Char} (hb : (comment body).Fits rest)
    (h : src.Reads o ((comment body).text ++ rest)) :
    slash src o line = .ok (.ofPiece o line (.comment body) rest) := by
  have ht : src.Reads (o + 1) ('/' :: body ++ rest) := h.tail
  have hf : Utf8.front ('/' :: body ++ rest) = '/'.toUInt8 := rfl
  have hr : Run (!· == '\n') ('/' :: body) rest := .of_not_mem (by simpa using hb.left) hb.right
  have hn : (comment body).newlines = 0 := hb.newlines_eq
  have hs : o + Utf8.size (comment body).text = o + 1 + Utf8.size ('/' :: body) :=
    Utf8.add_size_cons_of_le (by decide)
  rw [slash, h.advance, Fault.ok_bind, ht.current, Fault.ok_bind, if_pos hf, Source.findNewline,
    ht.find newline_agrees, hr.takeWhile_eq, Step.ofPiece, hn, hs]
  rfl

theorem slash_eq (h : src.Reads o ('/' :: cs)) :
    slash src o line = .ok (.ofPiece o line (first '/' cs).1 (first '/' cs).2) := by
  cases Decidable.em (cs.head? = some '/')
  case inl hd =>
    have ⟨ds, hc⟩ := List.head?_eq_some_iff.mp hd
    subst hc
    have hf := fits_first '/' ('/' :: ds)
    have ht := text_first '/' ('/' :: ds)
    rw [first_comment] at hf ht ⊢
    exact slash_comment hf (ht.symm ▸ h)
  case inr hd =>
    have hm : first '/' cs = marked '/' cs := if_neg fun h : '/' = '/' ∧ _ => hd h.right
    rw [hm]
    exact slash_alone h hd

end LoxLex.Scan
