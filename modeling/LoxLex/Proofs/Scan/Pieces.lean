import LoxLex.Proofs.Scan.Position

namespace LoxLex

namespace Piece

variable {cs : List Char}

theorem head?_split : (split cs).head?.bind (·.text.head?) = cs.head? := by
  cases cs
  case nil => rw [split_nil, List.head?_nil, Option.bind_none, List.head?_nil]
  case cons c cs =>
    have ht := text_first c cs
    have hn := text_first_ne_nil c cs
    rw [split, List.head?_cons, Option.bind_some, ← ht, List.head?_append,
      List.head?_eq_some_head hn, Option.some_or]

end Piece

namespace Scan

variable {src : Source} {text : String} {o line : Nat} {before ahead : List Char}
variable {tokens : List Token} {errors : List Error}

theorem loop_of_length_le (h : src.length ≤ o) :
    loop src o line tokens errors =
      .ok { tokens := (.eof line :: tokens).reverse, errors := errors.reverse } := by
  rw [loop, if_pos h]

theorem loop_of_step {s : Step} (ho : o < src.length) (h : step src o line = .ok s) :
    loop src o line tokens errors =
      loop src s.offset s.line (s.token?.toList ++ tokens) (s.error?.toList ++ errors) := by
  rw [loop, if_neg (Nat.not_le.mpr ho)]
  split
  case h_1 he => rw [h] at he; cases he
  case h_2 he => rw [h] at he; cases he; rfl

theorem reverse_toList (a? : Option α) : a?.toList.reverse = a?.toList := by
  cases a? <;> rfl

theorem loop_eq (hs : text.utf8ByteSize < Source.maxLength) (h : Stands text o line before ahead) :
    loop (.ofString text) o line tokens errors = .ok {
      tokens := tokens.reverse ++ Piece.tokens line (Piece.split ahead)
      errors := errors.reverse ++ Piece.errors line (Piece.split ahead)
    } := by
  fun_induction Piece.split ahead generalizing o line before tokens errors
  case case1 =>
    have hn := (h.reads hs).length_le_iff.mpr rfl
    rw [loop_of_length_le hn]
    simp [Piece.tokens, Piece.errors]
  case case2 c cs _ hi =>
    rw [loop_of_step (h.reads hs).lt_length (h.step_eq hs)]
    refine (hi h.next).trans ?_
    simp only [Piece.tokens, Piece.errors, Piece.head?_split, Step.ofPiece, List.reverse_append,
      reverse_toList, List.append_assoc]

-- No text of fewer than `2 ^ 32 - 1` bytes has a fault.
theorem ofSource?_eq (h : text.utf8ByteSize < Source.maxLength) :
    ofSource? (.ofString text) = .ok (.ofPieces (Piece.split text.toList)) :=
  loop_eq h (.start text)

end Scan

variable {source : String}

theorem Extent.utf8ByteSize_part_le (extent : Extent) :
    (extent.part source).utf8ByteSize ≤ source.utf8ByteSize := by
  cases extent
  case whole => exact Nat.le_refl _
  case allButLast =>
    rw [part, ← Utf8.size_toList, ← Utf8.size_toList, String.toList_ofList]
    exact Utf8.size_le_of_prefix (List.dropLast_prefix _)

theorem Scan.ofSource?_part_eq (extent : Extent) (h : source.utf8ByteSize < Source.maxLength) :
    ofSource? (.ofString (extent.part source)) =
      .ok (.ofPieces (Piece.split (extent.part source).toList)) :=
  ofSource?_eq (Nat.lt_of_le_of_lt extent.utf8ByteSize_part_le h)

theorem scan_part_eq (extent : Extent) (h : source.utf8ByteSize < Source.maxLength) :
    scan source extent = .ofPieces (Piece.split (extent.part source).toList) := by
  rw [scan, Scan.ofSource?_part_eq extent h]

-- The scan of a source is what its characters say, piece by piece.
theorem scan_eq_ofPieces (source : String) (h : source.utf8ByteSize < Source.maxLength) :
    scan source = .ofPieces (Piece.split source.toList) :=
  scan_part_eq .whole h

-- A point without a digit behind it, and a string that is cut off.
theorem scan_cut_off :
    "1.\"é".utf8ByteSize < Source.maxLength ∧
      scan "1.\"é" = .ofPieces [.number ⟨['1'], []⟩, .operator .dot, .unterminated ['é']] := by
  have hs : Piece.split "1.\"é".toList =
      [.number ⟨['1'], []⟩, .operator .dot, .unterminated ['é']] := by
    refine (Piece.split_cons rfl).trans (congrArg _ ?_)
    refine (Piece.split_cons rfl).trans (congrArg _ ?_)
    exact (Piece.split_cons rfl).trans (congrArg _ Piece.split_nil)
  have hl : "1.\"é".utf8ByteSize < Source.maxLength := by decide
  exact ⟨hl, hs ▸ scan_eq_ofPieces _ hl⟩

end LoxLex
