import LoxLex.Proofs.Scan.Found

namespace LoxLex

namespace Piece

variable {a b : List Char} {line : Nat}

namespace Closed

variable (h : Closed a)
include h

theorem found_append_newline :
    found line (split (a ++ '\n' :: b)) =
      found line (split a) ++ found (line + (1 + a.count '\n')) (split b) := by
  rw [h.split_append_newline, found_append, (Tiling.of_split a).breaks_eq, Nat.add_comm 1,
    ← Nat.add_assoc]
  rfl

theorem errors_append_newline :
    errors line (split (a ++ '\n' :: b)) =
      errors line (split a) ++ errors (line + (1 + a.count '\n')) (split b) := by
  rw [h.split_append_newline, errors_append (by simp [text]), (Tiling.of_split a).breaks_eq,
    Nat.add_comm 1, ← Nat.add_assoc]
  rfl

theorem tokens_append_newline :
    tokens line (split (a ++ '\n' :: b)) =
      found line (split a) ++ tokens (line + (1 + a.count '\n')) (split b) := by
  rw [tokens_eq, h.found_append_newline, tokens_eq, (Tiling.of_split _).breaks_eq,
    (Tiling.of_split b).breaks_eq, List.count_append, List.count_cons_self, List.append_assoc]
  congr 4
  omega

end Closed
end Piece

-- Texts on both sides of a newline are scanned apart.
theorem scan_append_newline (a b : String)
    (h : a.utf8ByteSize + b.utf8ByteSize + 1 < Source.maxLength)
    (ha : ∀ n, .unterminated n ∉ (scan a).errors) :
    (scan (a ++ "\n" ++ b)).tokens =
        (scan a).found ++ (scan b).tokens.map (.down (1 + a.toList.count '\n')) ∧
      (scan (a ++ "\n" ++ b)).errors =
        (scan a).errors ++ (scan b).errors.map (.down (1 + a.toList.count '\n')) := by
  have ht : (a ++ "\n" ++ b).toList = a.toList ++ '\n' :: b.toList := by simp
  have hs : (a ++ "\n" ++ b).utf8ByteSize < Source.maxLength := by
    rw [String.utf8ByteSize_append, String.utf8ByteSize_append]
    exact Nat.lt_of_le_of_lt (Nat.le_of_eq (Nat.add_right_comm ..)) h
  have hsa : scan a = .ofPieces (Piece.split a.toList) := scan_part_eq .whole (by omega)
  have hsb : scan b = .ofPieces (Piece.split b.toList) := scan_part_eq .whole (by omega)
  rw [hsa] at ha ⊢
  rw [hsb, scan_part_eq .whole hs, Extent.part, ht,
    Piece.found_ofPieces]
  have hc : Piece.Closed a.toList := Piece.not_unterminated_mem_errors.mp ha
  constructor
  case left  => exact hc.tokens_append_newline.trans (congrArg _ (Piece.tokens_add _))
  case right => exact hc.errors_append_newline.trans (congrArg _ (Piece.errors_add _))

-- A number before a point, and a newline between two equals signs.
theorem scan_append_newline_halves :
    "1.\n=".utf8ByteSize + "=\"é".utf8ByteSize + 1 < Source.maxLength ∧
      (∀ n, .unterminated n ∉ (scan "1.\n=").errors) ∧
        (scan ("1.\n=" ++ "\n" ++ "=\"é")).tokens =
            (scan "1.\n=").found ++ (scan "=\"é").tokens.map (.down 2) ∧
          (scan ("1.\n=" ++ "\n" ++ "=\"é")).errors =
            (scan "1.\n=").errors ++ (scan "=\"é").errors.map (.down 2) := by
  have hl : "1.\n=".utf8ByteSize + "=\"é".utf8ByteSize + 1 < Source.maxLength := by decide
  have hs : Piece.split "1.\n=".toList =
      [.number ⟨['1'], []⟩, .operator .dot, .newline, .operator .equal] := by
    refine (Piece.split_cons rfl).trans (congrArg _ ?_)
    refine (Piece.split_cons rfl).trans (congrArg _ ?_)
    refine (Piece.split_cons rfl).trans (congrArg _ ?_)
    exact (Piece.split_cons rfl).trans (congrArg _ Piece.split_nil)
  have ha : ∀ n, .unterminated n ∉ (scan "1.\n=").errors := by
    rw [scan_part_eq .whole (by decide), Extent.part, hs]
    exact Piece.not_unterminated_mem_errors.mpr (by decide)
  exact ⟨hl, ha, scan_append_newline _ _ hl ha⟩

end LoxLex
