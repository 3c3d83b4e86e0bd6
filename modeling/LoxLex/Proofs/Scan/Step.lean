import LoxLex.Proofs.Scan.Step.Number
import LoxLex.Proofs.Scan.Step.Operator
import LoxLex.Proofs.Scan.Step.String
import LoxLex.Proofs.Token.Kind

namespace LoxLex.Scan

open Piece

variable {src : Source} {o line : Nat} {c : Char} {cs xs rest : List Char}

theorem word_eq (hp : (Piece.word xs).Fits rest) (h : src.Reads o (xs ++ rest)) :
    word src o line = .ok (.ofPiece o line (.word xs) rest) := by
  have hn : (Piece.word xs).newlines = 0 := hp.newlines_eq
  have ⟨hw, hs⟩ := hp
  cases xs
  case nil => exact absurd hw.start (by simp)
  case cons c cs =>
    have hc : c.val ≤ 127 := Lead.val_le_of_isWordPart (hw.part c List.mem_cons_self)
    have hr : Run isWordPart cs rest := ⟨fun d hd => hw.part d (List.mem_cons_of_mem _ hd), hs⟩
    have ht : src.Reads (o + 1) (cs ++ rest) := h.tail_of_le hc
    have hk := ht.skipWhile Lead.isWordPart_agrees (by decide)
    rw [hr.takeWhile_eq, ← Utf8.add_size_cons_of_le hc] at hk
    have ha : Source.advance o = .ok (o + 1) := h.advance
    simp only [word, ha, Fault.ok_bind, hk, h.lexeme, ofWord_eq_wordKind, Step.ofPiece, hn]
    rfl

theorem unexpected_eq (hp : (Piece.unexpected c).Fits rest) (h : src.Reads o (c :: rest)) :
    unexpected src o line = .ok (.ofPiece o line (.unexpected c) rest) := by
  have hn : (Piece.unexpected c).newlines = 0 := hp.newlines_eq
  simp only [unexpected, h.char?, Fault.ok_bind, h.nextChar, Step.ofPiece, hn, text,
    Utf8.size_singleton]
  rfl

-- A step takes the first piece of the text it starts in.
theorem step_first (h : src.Reads o (c :: cs)) (hl : line + (first c cs).1.newlines < UInt32.size) :
    step src o line = .ok (.ofPiece o line (first c cs).1 (first c cs).2) := by
  have hf := fits_first c cs
  have ht := text_first c cs
  have ha := Lead.announced c
  rw [step, h.current, Fault.ok_bind, Utf8.front_cons]
  generalize Lead.ofByte (Utf8.lead c) = lead at ha
  cases ha
  case blank hb =>
    rw [first_blank hb, h.advance]
    rcases eq_of_isBlank hb with rfl | rfl | rfl <;> rfl
  case newline =>
    have hl : line + 1 < UInt32.size := hl
    rw [first_newline, h.advance, Fault.guard32, if_pos hl]
    rfl
  case quote => exact string_eq h hl
  case digit hd =>
    obtain ⟨n, rest, hn⟩ := exists_numeral c cs
    rw [first_digit hd, hn] at hf ht ⊢
    exact number_eq hf (ht.symm ▸ h)
  case letter hw =>
    rw [first_word hw] at hf ht ⊢
    exact word_eq hf (ht.symm ▸ h)
  case slash => exact slash_eq h
  case mark op ho hm =>
    rw [hm cs]
    exact mark_eq ho h
  case comparison ha he hm hm' => exact comparison_eq (.comparison ha he hm hm') h
  case other hs =>
    rw [first_stray hs] at hf ⊢
    exact unexpected_eq hf h

end LoxLex.Scan
