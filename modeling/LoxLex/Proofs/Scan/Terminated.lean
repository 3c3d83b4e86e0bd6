import LoxLex.Proofs.Scan.Lines

namespace LoxLex

-- The second scan comes to its end a line after the first one does.
structure Scan.LineBefore (s t : Scan) : Prop where
  tokens : ∃ found last, s.tokens = found ++ [.eof last] ∧ t.tokens = found ++ [.eof (last + 1)]
  errors : s.errors = t.errors

namespace Piece

variable {a : List Char} {line : Nat}

theorem split_open_newline {qs : List Piece} {value : List Char}
    (h : split a = qs ++ [unterminated value]) :
    split (a ++ ['\n']) = qs ++ [unterminated (value ++ ['\n'])] := by
  have ht := split_eq_iff.mp h
  exact split_eq_iff.mpr (ht.append_open (by simp))

theorem found_newline : found line (split (a ++ ['\n'])) = found line (split a) := by
  rcases closed_or_open a with hc | ⟨qs, value, hq⟩
  case inl => simp [hc.found_append_newline, split_nil, found]
  case inr => simp [split_open_newline hq, hq, found_open]

theorem errors_newline : errors line (split (a ++ ['\n'])) = errors line (split a) := by
  rcases closed_or_open a with hc | ⟨qs, value, hq⟩
  case inl => simp [hc.errors_append_newline, split_nil, errors]
  case inr => simp [split_open_newline hq, hq, errors_open]

theorem lineBefore_newline (a : List Char) :
    (Scan.ofPieces (split a)).LineBefore (.ofPieces (split (a ++ ['\n']))) where
  tokens := by
    refine ⟨found 1 (split a), 1 + a.count '\n', ?_, ?_⟩
    case refine_1 => simp [Scan.ofPieces, tokens_eq, (Tiling.of_split _).breaks_eq]
    case refine_2 =>
      simp [Scan.ofPieces, tokens_eq, (Tiling.of_split _).breaks_eq, found_newline, Nat.add_assoc]
  errors := errors_newline.symm

end Piece

theorem scan_lineBefore {text : String} (h : text.utf8ByteSize + 1 < Source.maxLength) :
    (scan (text ++ "\n") .allButLast).LineBefore (scan (text ++ "\n") .whole) := by
  have hs : (text ++ "\n").utf8ByteSize < Source.maxLength := String.utf8ByteSize_append ▸ h
  have ht : (text ++ "\n").toList = text.toList ++ ['\n'] := String.toList_append
  rw [scan_cut .allButLast hs, scan_cut .whole hs, ht, Extent.cut, Extent.cut, List.dropLast_concat]
  exact Piece.lineBefore_newline text.toList

end LoxLex
