import LoxLex.Proofs.Scan.Found

namespace LoxLex

namespace Piece

variable {ps : List Piece} {a value : List Char}

structure Opens (ps : List Piece) (a value : List Char) : Prop where
  split_eq : split a = ps
  closed   : Closed a
  unquoted : '"' ∉ value
  whole    : split (a ++ '"' :: value) = ps ++ [unterminated value]

theorem opens_of_split {cs : List Char} (h : split cs = ps ++ [unterminated value]) :
    cs = ps.flatMap text ++ '"' :: value ∧ Opens ps (ps.flatMap text) value := by
  have ht := split_eq_iff.mp h
  have hcs : cs = ps.flatMap text ++ '"' :: value := by simp [← ht.flatMap_text, text]
  have hf : (unterminated value).Fits [] := ht.fits_getLast _ (by simp)
  have hs : split (ps.flatMap text) = ps := split_eq_iff.mpr ht.of_append
  have hn : ∀ p ∈ ps, ¬p.isOpen := ht.not_isOpen (by simp)
  exact ⟨hcs, hs, fun p hp => hn p (hs ▸ hp), hf.left, hcs ▸ h⟩

theorem opens_of_closed (ha : Closed a) (hc : ∀ body, (split a).getLast? ≠ some (comment body))
    (hv : '"' ∉ value) : Opens (split a) a value where
  split_eq := rfl
  closed   := ha
  unquoted := hv
  whole    := by
    have ht := Tiling.of_split a
    have hf : (unterminated value).Fits [] := ⟨hv, rfl⟩
    have hu : Tiling [unterminated value] ('"' :: value) := by
      simpa [text] using Tiling.cons hf .nil
    refine split_eq_iff.mpr (ht.append hu (fun p hp => ?_) (by simp))
    have hn : ∀ body, p ≠ comment body := fun body he => hc body (he ▸ hp)
    exact (ht.fits_getLast p hp).before_quote (ha p (List.mem_of_getLast? hp)) hn

end Piece

namespace Scan

-- The scan of a text, a quote and a value that does not close it.
structure Halts (text value : String) : Prop where
  closed   : ∀ n, .unterminated n ∉ (scan text).errors
  unquoted : '"' ∉ value.toList
  tokens   : (scan (text ++ "\"" ++ value)).tokens =
               (scan text).found ++ [.eof (1 + (text ++ "\"" ++ value).toList.count '\n')]
  errors   : (scan (text ++ "\"" ++ value)).errors =
               (scan text).errors ++ [.unterminated (1 + text.toList.count '\n')]

variable {ps : List Piece} {text value : String}

theorem size_lt_of_append (h : (text ++ "\"" ++ value).utf8ByteSize < Source.maxLength) :
    text.utf8ByteSize < Source.maxLength := by
  simp only [String.utf8ByteSize_append] at h
  omega

theorem Halts.of_opens (hs : (text ++ "\"" ++ value).utf8ByteSize < Source.maxLength)
    (h : Piece.Opens ps text.toList value.toList) : Halts text value := by
  have hl : (text ++ "\"" ++ value).toList = text.toList ++ '"' :: value.toList := by simp
  have ht : scan text = .ofPieces ps := h.split_eq ▸ scan_part_eq .whole (size_lt_of_append hs)
  have hw : scan (text ++ "\"" ++ value) = .ofPieces (ps ++ [.unterminated value.toList]) := by
    rw [← h.whole, ← hl]
    exact scan_part_eq .whole hs
  -- the newlines in the value that is left open count for the end, but not for the error
  have hb := (Piece.split_eq_iff.mp h.split_eq).breaks_eq
  have he := (Piece.split_eq_iff.mp h.whole).breaks_eq
  constructor
  case closed   => exact ht ▸ Piece.not_unterminated_mem_errors.mpr (h.split_eq ▸ h.closed)
  case unquoted => exact h.unquoted
  case tokens   =>
    rw [hw, ht, Piece.found_ofPieces, ofPieces, Piece.tokens_eq, Piece.found_open, hl, he]
  case errors   => rw [hw, ht, ofPieces, ofPieces, Piece.errors_open, hb]

end Scan

-- A string that is left open stops the scan, and the scan stops so at each quote that opens one.
theorem scan_halts :
    (∀ source : String, source.utf8ByteSize < Source.maxLength →
      (∃ n, .unterminated n ∈ (scan source).errors) →
        (∃ errors n, (scan source).errors = errors ++ [.unterminated n] ∧
          ∀ m, .unterminated m ∉ errors) ∧
        ∃ text value, source = text ++ "\"" ++ value ∧ Scan.Halts text value) ∧
    ∀ text value : String, (text ++ "\"" ++ value).utf8ByteSize < Source.maxLength →
      (∀ n, .unterminated n ∉ (scan text).errors) →
      (∀ body, (Piece.split text.toList).getLast? ≠ some (.comment body)) →
      '"' ∉ value.toList →
        Scan.Halts text value := by
  constructor
  case left =>
    intro source hs hn
    have he : (scan source).errors = Piece.errors 1 (Piece.split source.toList) :=
      congrArg _ (scan_part_eq .whole hs)
    have ⟨p, hp, ho⟩ := Piece.unterminated_mem_errors.mp (he ▸ hn)
    -- an open string reaches to the end, so it is the last piece
    have ⟨ps, value, hps⟩ := (Piece.Tiling.of_split source.toList).eq_append_open hp ho
    have ⟨hcs, h⟩ := Piece.opens_of_split hps
    have hsrc : source = .ofList (ps.flatMap Piece.text) ++ "\"" ++ .ofList value :=
      String.toList_injective (by simpa using hcs)
    have hh := Scan.Halts.of_opens (hsrc ▸ hs) (by simpa using h)
    exact ⟨⟨_, _, hsrc ▸ hh.errors, hh.closed⟩, _, _, hsrc, hh⟩
  case right =>
    intro text value hs ht hc hv
    have he : (scan text).errors = Piece.errors 1 (Piece.split text.toList) :=
      congrArg _ (scan_part_eq .whole (Scan.size_lt_of_append hs))
    have ha : Piece.Closed text.toList := Piece.not_unterminated_mem_errors.mp (he ▸ ht)
    exact .of_opens hs (Piece.opens_of_closed ha hc hv)

-- The quote in the comment opens nothing, the one behind the point does.
theorem scan_halts_point :
    Scan.Halts "a//\"\n1." "é\n" ∧
      (∃ n, .unterminated n ∈ (scan "a//\"\n1.\"é\n").errors) ∧
      ∃ text value, "a//\"\n1.\"é\n" = text ++ "\"" ++ value ∧ Scan.Halts text value := by
  have hl : "a//\"\n1.".utf8ByteSize < Source.maxLength := by decide
  have hs : Piece.split "a//\"\n1.".toList =
      [.word ['a'], .comment ['"'], .newline, .number ⟨['1'], []⟩, .operator .dot] := by
    refine (Piece.split_cons rfl).trans (congrArg _ ?_)
    refine (Piece.split_cons rfl).trans (congrArg _ ?_)
    refine (Piece.split_cons rfl).trans (congrArg _ ?_)
    refine (Piece.split_cons rfl).trans (congrArg _ ?_)
    exact (Piece.split_cons rfl).trans (congrArg _ Piece.split_nil)
  have he : (scan "a//\"\n1.").errors = [.malformed 2] := by
    rw [scan_part_eq .whole hl, Extent.part, hs]
    rfl
  have hc : ∀ body, (Piece.split "a//\"\n1.".toList).getLast? ≠ some (.comment body) := by
    rw [hs]
    exact fun _ he => by cases he
  have hh := scan_halts.right "a//\"\n1." "é\n" (by decide) (by simp [he]) hc (by decide)
  have hn : ∃ n, .unterminated n ∈ (scan "a//\"\n1.\"é\n").errors :=
    ⟨_, hh.errors ▸ List.mem_append_right _ (List.mem_singleton_self _)⟩
  exact ⟨hh, hn, (scan_halts.left _ (by decide) hn).right⟩

end LoxLex
