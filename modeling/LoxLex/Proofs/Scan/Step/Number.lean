import LoxLex.Proofs.Scan.Step.Basic

namespace LoxLex.Scan

open Piece

variable {src : Source} {o line : Nat} {cs xs rest : List Char} {n : Numeral}

theorem skipWhile_digits (hr : Run Char.isDigit xs rest) (h : src.Reads o (xs ++ rest)) :
    src.skipWhile Lead.isDigit o = .ok (o + Utf8.size xs) := by
  rw [h.skipWhile Lead.isDigit_agrees (by decide), hr.takeWhile_eq]

theorem numberEnd_alone (hd : rest.head? ≠ some '.') (h : src.Reads o rest) :
    numberEnd src o = .ok ⟨o, false⟩ := by
  have hf : Utf8.front rest ≠ '.'.toUInt8 := mt (Utf8.front_eq_iff (by decide) (by decide)).mp hd
  rw [numberEnd, h.current, Fault.ok_bind, if_neg hf]
  rfl

theorem numberEnd_point (h : src.Reads o ('.' :: cs)) :
    numberEnd src o =
      if cs.head?.any Char.isDigit then
        .ok ⟨o + 1 + Utf8.size (cs.takeWhile Char.isDigit), false⟩
      else
        .ok ⟨o, true⟩ := by
  have ht : src.Reads (o + 1) cs := h.tail
  have hf : Utf8.front ('.' :: cs) = '.'.toUInt8 := rfl
  rw [numberEnd, h.current, Fault.ok_bind, if_pos hf, Source.peek, ht.current, Fault.ok_bind,
    Lead.isDigit_agrees.front (by decide), h.advance, Fault.ok_bind,
    ht.skipWhile Lead.isDigit_agrees (by decide)]
  rfl

theorem numberEnd_eq (hv : n.Valid) (he : Ends n rest)
    (h : src.Reads o (n.tail ++ rest)) :
    numberEnd src o =
      .ok ⟨o + Utf8.size n.tail, n.fraction = [] ∧ rest.head? = some '.'⟩ := by
  have ⟨whole, fraction⟩ := n
  cases fraction
  case nil =>
    replace h : src.Reads o rest := h
    cases Decidable.em (rest.head? = some '.')
    case inl hd =>
      have ⟨cs, hc⟩ := List.head?_eq_some_iff.mp hd
      subst hc
      have hc : cs.head?.any Char.isDigit = false := by
        cases cs
        case nil       => rfl
        case cons d ds => simpa using he.point rfl d ds rfl
      rw [numberEnd_point h, hc]
      rfl
    case inr hd =>
      simp only [numberEnd_alone hd h, hd, and_false, decide_false]
      rfl
  case cons c cs =>
    replace h : src.Reads o ('.' :: (c :: cs ++ rest)) := h
    have hr : Run Char.isDigit (c :: cs) rest := ⟨hv.fraction, he.digit⟩
    have hc : c.isDigit := hv.fraction c List.mem_cons_self
    have hs : o + Utf8.size (Numeral.tail ⟨whole, c :: cs⟩) = o + 1 + Utf8.size (c :: cs) :=
      Utf8.add_size_cons_of_le (by decide)
    rw [numberEnd_point h, hr.takeWhile_eq, hs]
    exact if_pos hc

theorem number_eq (hp : (Piece.number n).Fits rest) (h : src.Reads o (n.text ++ rest)) :
    number src o line = .ok (.ofPiece o line (.number n) rest) := by
  have ⟨hv, he⟩ := hp
  have hn : (Piece.number n).newlines = 0 := hp.newlines_eq
  have ⟨d, ds, hd⟩ := List.exists_cons_of_ne_nil hv.whole_ne_nil
  have hc : d.val ≤ 127 := Lead.val_le_of_isDigit (hv.whole d (hd ▸ List.mem_cons_self))
  have hr : Run Char.isDigit ds (n.tail ++ rest) :=
    ⟨fun e h => hv.whole e (hd ▸ List.mem_cons_of_mem _ h), he.tail⟩
  have ht : n.text = d :: (ds ++ n.tail) := by rw [Numeral.text_eq, hd, List.cons_append]
  have hx := h.lexeme
  have h : src.Reads o (d :: (ds ++ (n.tail ++ rest))) := by
    rwa [ht, List.cons_append, List.append_assoc] at h
  have hw := h.tail_of_le hc
  have hs : o + Utf8.size n.text = o + 1 + Utf8.size ds + Utf8.size n.tail := by
    rw [ht, Utf8.add_size_cons_of_le hc, Utf8.size_append, Nat.add_assoc _ (Utf8.size ds)]
  rw [hs] at hx
  simp only [number, h.advance, Fault.ok_bind, skipWhile_digits hr hw, numberEnd_eq hv he hw.append,
    hx, String.toList_ofList, Numeral.parse?_text hv, Step.ofPiece, hn, text, hs, decide_eq_true_eq]
  rfl

end LoxLex.Scan
