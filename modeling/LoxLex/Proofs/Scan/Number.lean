import LoxLex.Proofs.Binary64.Rounding
import LoxLex.Proofs.Decimal.Value
import LoxLex.Proofs.Scan.WellFormed

namespace LoxLex

theorem Numeral.Valid.roundsTo {n : Numeral} (h : n.Valid) :
    Binary64.RoundsTo (textValue n.text) n.toBinary64 := by
  rw [h.textValue_eq]
  exact Binary64.roundsTo_ofRatio denominator_pos

theorem Token.WellFormed.roundsTo {t : Token} (h : t.WellFormed) (hk : t.kind = .number) :
    ∃ x, t.literal = some (.number x) ∧
      Binary64.RoundsTo (Numeral.textValue t.lexeme.toList) x := by
  simp only [WellFormed, hk] at h
  obtain ⟨n, hn, ht, _, hl⟩ := h
  exact ⟨n.toBinary64, hl, ht ▸ hn.roundsTo⟩

-- Every number in every source is read as the nearest binary64 number.
theorem scan_number_roundsTo (source : String) (extent : Extent)
    (h : source.utf8ByteSize < Source.maxLength) :
    ∀ t ∈ (scan source extent).tokens, t.kind = .number →
      ∃ x, t.literal = some (.number x) ∧
        Binary64.RoundsTo (Numeral.textValue t.lexeme.toList) x :=
  fun t ht => (wellFormed_of_mem_scan h t ht).roundsTo

-- A number halfway between two others is read as the even one.
theorem scan_number_roundsTo_tie :
    "9007199254740993.".utf8ByteSize < Source.maxLength ∧
      ∃ t ∈ (scan "9007199254740993.").tokens, t.kind = .number ∧
        t.literal = some (.number ⟨0x4340000000000000⟩) ∧
        Binary64.RoundsTo 9007199254740993 ⟨0x4340000000000000⟩ := by
  have hl : "9007199254740993.".utf8ByteSize < Source.maxLength := by decide
  have hs : Piece.split "9007199254740993.".toList =
      [.number ⟨"9007199254740993".toList, []⟩, .operator .dot] := by
    refine (Piece.split_cons rfl).trans (congrArg _ ?_)
    exact (Piece.split_cons rfl).trans (congrArg _ Piece.split_nil)
  have hn : Numeral.Valid ⟨"9007199254740993".toList, []⟩ :=
    ⟨by decide, List.all_eq_true.mp rfl, List.all_eq_true.mp rfl⟩
  have hx : Numeral.toBinary64 ⟨"9007199254740993".toList, []⟩ = ⟨0x4340000000000000⟩ := by
    decide +kernel
  have hm : Numeral.numerator ⟨"9007199254740993".toList, []⟩ = 9007199254740993 := by
    decide +kernel
  have hd : Numeral.denominator ⟨"9007199254740993".toList, []⟩ = 1 := rfl
  have hv : Numeral.textValue "9007199254740993".toList = 9007199254740993 := by
    have := hn.textValue_eq
    rwa [Numeral.text_of_nil rfl, hm, hd, Nat.cast_one, div_one] at this
  have ht : ⟨.number, "9007199254740993", some (.number ⟨0x4340000000000000⟩), 1⟩ ∈
      (scan "9007199254740993.").tokens := by
    rw [scan_part_eq .whole hl, Extent.part, hs, ← hx]
    exact List.mem_cons_self
  obtain ⟨x, hl', hr⟩ := scan_number_roundsTo "9007199254740993." .whole hl _ ht rfl
  cases hl'
  exact ⟨hl, _, ht, rfl, rfl, hv ▸ hr⟩

end LoxLex
