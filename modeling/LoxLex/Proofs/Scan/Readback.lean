import LoxLex.Proofs.Decimal.Shortest
import LoxLex.Proofs.Scan.Number

namespace LoxLex

theorem Piece.split_text {p : Piece} (h : p.Fits []) : split p.text = [p] := by
  have := split_append h
  rwa [List.append_nil, split_nil] at this

theorem Numeral.Valid.scan_text {n : Numeral} (h : n.Valid)
    (hs : (String.ofList n.text).utf8ByteSize < Source.maxLength) :
    scan (.ofList n.text) = {
      tokens := [⟨.number, .ofList n.text, some (.number n.toBinary64), 1⟩, .eof 1]
      errors := []
    } := by
  have hf : (Piece.number n).Fits [] := ⟨h, by simp, by simp⟩
  have hp : Piece.split n.text = [.number n] := Piece.split_text hf
  have hn : (Piece.number n).newlines = 0 := hf.newlines_eq
  rw [scan_part_eq .whole hs, Extent.part, String.toList_ofList, hp]
  simp [Scan.ofPieces, Piece.tokens, Piece.errors, Piece.token?, Piece.error?, hn]

namespace Binary64

variable {d : Decimal} {code : Nat}

theorem lt_mul_pow {num den k : Nat} (hd : 0 < den) (h : (num / den : ℚ) < 2 ^ k) :
    num < den * 2 ^ k := by
  rw [div_lt_iff₀ (Nat.cast_pos.mpr hd), mul_comm] at h
  exact_mod_cast h

theorem length_toDigits_le {n k : Nat} (hk : 0 < k) (h : n < 2 ^ k) :
    (Nat.toDigits 10 n).length ≤ k := by
  rw [Nat.length_toDigits_le_iff (by decide) hk]
  exact h.trans_le (Nat.pow_le_pow_left (by decide) k)

theorem length_whole_le (h : d.numeral.toBinary64.isFinite) : d.numeral.whole.length ≤ 1024 := by
  have hd : 0 < d.numeral.denominator := Numeral.denominator_pos
  have hn := lt_mul_pow hd ((roundsTo_ofRatio hd).lt_of_isFinite h)
  rw [Decimal.whole_eq]
  exact length_toDigits_le (by decide) (Nat.div_lt_of_lt_mul hn)

-- The numeral of a finite number has at most 2099 characters.
theorem size_shortest_lt (hi : code < infinityCode) :
    (String.ofList (shortest code).numeral.text).utf8ByteSize < Source.maxLength := by
  have ⟨k, he⟩ := exists_exponent_shortest code
  have hf := Decimal.length_fraction_le he
  have hw : (shortest code).numeral.whole.length ≤ 1024 := by
    refine length_whole_le ?_
    rwa [toBinary64_shortest hi, isFinite, code_ofCode hi.le, decide_eq_true_eq]
  have hl : (shortest code).numeral.text.length ≤ 2099 := by
    have ht := (shortest code).numeral.length_tail_le
    have hp : places = 1074 := rfl
    rw [Numeral.text_eq, List.length_append]
    omega
  rw [← Utf8.size_toList, String.toList_ofList]
  calc Utf8.size (shortest code).numeral.text
    _ ≤ 4 * (shortest code).numeral.text.length := Utf8.size_le_length
    _ ≤ 4 * 2099                                := Nat.mul_le_mul_left 4 hl
    _ < Source.maxLength                        := by decide

end Binary64

-- A number from a source is scanned from its listing as it was, bit by bit.
theorem scan_listing_number (source : String) (extent : Extent)
    (h : source.utf8ByteSize < Source.maxLength) :
    ∀ t ∈ (scan source extent).tokens, t.kind = .number →
      ∃ x, t.literal = some (.number x) ∧
        (x.isFinite →
          scan (Literal.number x).listing = {
            tokens := [⟨.number, (Literal.number x).listing, some (.number x), 1⟩, .eof 1]
            errors := []
          }) := by
  intro t ht hk
  have ⟨x, hl, hr⟩ := (wellFormed_of_mem_scan h t ht).roundsTo hk
  refine ⟨x, hl, fun hf => ?_⟩
  have hi : x.code < Binary64.infinityCode := of_decide_eq_true hf
  have hs := (Binary64.shortest x.code).numeral_valid.scan_text (Binary64.size_shortest_lt hi)
  rwa [Binary64.toBinary64_shortest hi, ← Binary64.eq_ofCode hr.nonneg,
    ← NumberStyle.text_listing hf hr.nonneg] at hs

-- What is not read exactly is listed with fewer digits.
theorem scan_listing_number_tenth :
    "0.1000000000000000055511151231257827;".utf8ByteSize < Source.maxLength ∧
      ∃ t ∈ (scan "0.1000000000000000055511151231257827;").tokens, t.kind = .number ∧
        t.literal = some (.number ⟨0x3FB999999999999A⟩) ∧
        Binary64.isFinite ⟨0x3FB999999999999A⟩ ∧
        scan "0.1" = {
          tokens := [⟨.number, "0.1", some (.number ⟨0x3FB999999999999A⟩), 1⟩, .eof 1]
          errors := []
        } := by
  let n : Numeral := ⟨['0'], "1000000000000000055511151231257827".toList⟩
  have hl : "0.1000000000000000055511151231257827;".utf8ByteSize < Source.maxLength := by decide
  have hs : Piece.split "0.1000000000000000055511151231257827;".toList =
      [.number n, .operator .semicolon] := by
    refine (Piece.split_cons rfl).trans (congrArg _ ?_)
    exact (Piece.split_cons rfl).trans (congrArg _ Piece.split_nil)
  have hx : n.toBinary64 = ⟨0x3FB999999999999A⟩ := by decide +kernel
  have ht : ⟨.number, "0.1000000000000000055511151231257827",
      some (.number ⟨0x3FB999999999999A⟩), 1⟩ ∈
        (scan "0.1000000000000000055511151231257827;").tokens := by
    rw [scan_part_eq .whole hl, Extent.part, hs, ← hx]
    exact List.mem_cons_self
  have hf : Binary64.isFinite ⟨0x3FB999999999999A⟩ := by decide
  have hd : (Literal.number ⟨0x3FB999999999999A⟩).listing = "0.1" := by decide +kernel
  obtain ⟨x, hx, hr⟩ := scan_listing_number _ .whole hl _ ht rfl
  cases hx
  exact ⟨hl, _, ht, rfl, rfl, hf, hd ▸ hr hf⟩

end LoxLex
