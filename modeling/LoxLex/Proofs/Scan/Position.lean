import LoxLex.Proofs.Scan.Step

namespace LoxLex

theorem Piece.count_first (c : Char) (cs : List Char) :
    (c :: cs).count '\n' = (first c cs).1.newlines + (first c cs).2.count '\n' := by
  rw [newlines, ← List.count_append, text_first]

namespace Scan

open Piece

structure Stands (text : String) (o line : Nat) (before ahead : List Char) : Prop where
  text_eq   : text.toList = before ++ ahead
  offset_eq : o = Utf8.size before
  line_eq   : line = 1 + before.count '\n'

namespace Stands

variable {text : String} {o line : Nat} {c : Char} {before ahead cs xs : List Char}

theorem start (text : String) : Stands text 0 1 [] text.toList where
  text_eq   := rfl
  offset_eq := rfl
  line_eq   := rfl

theorem boundary (h : Stands text o line before ahead) : (⟨o⟩ : String.Pos.Raw).IsValid text :=
  h.offset_eq ▸ Utf8.isValid_size h.text_eq

theorem append (h : Stands text o line before (xs ++ ahead)) :
    Stands text (o + Utf8.size xs) (line + xs.count '\n') (before ++ xs) ahead where
  text_eq   := by rw [h.text_eq, List.append_assoc]
  offset_eq := by rw [h.offset_eq, Utf8.size_append]
  line_eq   := by rw [h.line_eq, List.count_append, Nat.add_assoc]

-- What one step keeps.
theorem next (h : Stands text o line before (c :: cs)) :
    Stands text (o + Utf8.size (first c cs).1.text) (line + (first c cs).1.newlines)
      (before ++ (first c cs).1.text) (first c cs).2 :=
  ((text_first c cs).symm ▸ h).append

section

variable (hs : text.utf8ByteSize < Source.maxLength)
include hs

theorem reads (h : Stands text o line before ahead) :
    (Source.ofString text).Reads o ahead :=
  h.offset_eq ▸ Source.ofString_reads_append (Nat.le_of_lt hs) h.text_eq

theorem line_lt (h : Stands text o line before ahead) :
    line + ahead.count '\n' < UInt32.size := by
  have hl : text.toList.length ≤ text.utf8ByteSize := Utf8.size_toList text ▸ Utf8.length_le_size
  have hc : before.count '\n' + ahead.count '\n' ≤ text.toList.length := by
    rw [← List.count_append, ← h.text_eq]
    exact List.count_le_length
  have := Source.maxLength_succ
  rw [h.line_eq]
  omega

theorem step_eq (h : Stands text o line before (c :: cs)) :
    step (.ofString text) o line = .ok (.ofPiece o line (first c cs).1 (first c cs).2) := by
  have hl := h.line_lt hs
  rw [count_first] at hl
  exact step_first (h.reads hs) (by omega)

end

end Stands
end Scan
end LoxLex
