import LoxLex.Proofs.Source.Bytes
import LoxLex.Proofs.Text.Utf8

namespace LoxLex.Source

structure Reads (src : Source) (o : Nat) (cs : List Char) : Prop where
  isSealed  : src.Sealed
  le_length : o ≤ src.length
  rest_eq   : src.rest o = Utf8.bytes cs

theorem ofString_reads {text : String} (h : text.utf8ByteSize ≤ maxLength) :
    (ofString text).Reads 0 text.toList where
  isSealed  := ofBytes_sealed h
  le_length := Nat.zero_le _
  rest_eq   := (rest_ofBytes h).trans (Utf8.data_eq_bytes text)

theorem width_ofNat {n : Nat} (h : n < 256) : width (UInt8.ofNat n) =
    if 0xF0 ≤ n ∧ n ≤ 0xF7 then 4 else if 0xE0 ≤ n ∧ n ≤ 0xEF then 3
    else if 0xC0 ≤ n ∧ n ≤ 0xDF then 2 else 1 := by
  simp only [width, UInt8.le_iff_toNat_le, UInt8.toNat_ofNat', Nat.mod_eq_of_lt h]
  rfl

theorem width_lead (c : Char) : width (Utf8.lead c) = c.utf8Size := by
  rw [← String.length_utf8EncodeChar, Utf8.lead, String.utf8EncodeChar]
  split
  case isTrue =>
    rw [List.headD_cons, width_ofNat (by omega), if_neg (by omega), if_neg (by omega),
      if_neg (by omega)]
    rfl
  split
  case isTrue =>
    rw [List.headD_cons, width_ofNat (by omega), if_neg (by omega), if_neg (by omega),
      if_pos (by omega)]
    rfl
  split
  case isTrue =>
    rw [List.headD_cons, width_ofNat (by omega), if_neg (by omega), if_pos (by omega)]
    rfl
  case isFalse =>
    rw [List.headD_cons, width_ofNat (by omega), if_pos (by omega)]
    rfl

namespace Reads

variable {src : Source} {o : Nat} {c : Char} {cs xs ys : List Char}
variable {test : UInt8 → Bool} {p : Char → Bool}

theorem length_eq (h : src.Reads o cs) : src.length = o + Utf8.size cs := by
  have := length_rest src o
  rw [h.rest_eq] at this
  have := h.le_length
  rw [Utf8.size]
  omega

theorem append (h : src.Reads o (xs ++ ys)) : src.Reads (o + Utf8.size xs) ys where
  isSealed := h.isSealed
  le_length := by
    have := h.length_eq
    rw [Utf8.size_append] at this
    omega
  rest_eq := by
    rw [← drop_rest, h.rest_eq, Utf8.bytes_append, Utf8.size, List.drop_left]

theorem tail (h : src.Reads o (c :: cs)) : src.Reads (o + c.utf8Size) cs := by
  have h : src.Reads o ([c] ++ cs) := h
  exact Utf8.size_singleton c ▸ h.append

theorem tail_of_le (h : src.Reads o (c :: cs)) (hc : c.val ≤ 127) : src.Reads (o + 1) cs :=
  Char.utf8Size_eq_one_iff.mpr hc ▸ h.tail

theorem lt_length (h : src.Reads o (c :: cs)) : o < src.length := by
  have := c.utf8Size_pos
  have := h.length_eq
  rw [Utf8.size_cons] at this
  omega

theorem length_le_iff (h : src.Reads o cs) : src.length ≤ o ↔ cs = [] := by
  cases cs
  case nil  => simp [h.length_eq]
  case cons => simp [h.lt_length]

theorem add_lt (h : src.Reads o (c :: cs)) : o + c.utf8Size < UInt32.size := by
  have := h.tail.le_length
  have := h.isSealed.short
  have := maxLength_succ
  omega

theorem current (h : src.Reads o cs) : src.current o = .ok (Utf8.front cs) := by
  rw [current_of_le h.isSealed h.le_length, h.rest_eq, Utf8.front]

theorem advance (h : src.Reads o (c :: cs)) : Source.advance o = .ok (o + 1) := by
  have := h.add_lt
  have := c.utf8Size_pos
  exact if_pos (by omega)

theorem skipWhile (h : src.Reads o cs) (ht : Utf8.Agrees test p) (h₀ : test 0 = false) :
    src.skipWhile test o = .ok (o + Utf8.size (cs.takeWhile p)) := by
  rw [skipWhile_eq h.isSealed h₀ h.le_length, h.rest_eq, ht.takeWhile_bytes, Utf8.size]

theorem find (h : src.Reads o cs) (ht : Utf8.Agrees test p) :
    src.find test o = .ok (o + Utf8.size (cs.takeWhile (!p ·))) := by
  rw [find_eq h.le_length, h.rest_eq, ht.not.takeWhile_bytes, Utf8.size]

theorem between? (h : src.Reads o (xs ++ ys)) :
    src.between? o (o + Utf8.size xs) = some (.ofList xs) := by
  rw [between?_eq h.append.le_length, h.rest_eq, Utf8.bytes_append, Utf8.size, List.take_left,
    Utf8.fromUTF8?_bytes]

theorem slice (h : src.Reads o (xs ++ ys)) :
    src.slice o (o + Utf8.size xs) = .ok (.ofList xs) := by
  rw [Source.slice, if_pos ⟨Nat.le_add_right .., h.append.le_length⟩, h.between?, Option.getD_some]

theorem lexeme (h : src.Reads o (xs ++ ys)) :
    src.lexeme o (o + Utf8.size xs) = .ok (.ofList xs) := by
  rw [Source.lexeme, if_pos ⟨Nat.le_add_right .., h.append.le_length⟩, h.between?]

theorem characterEnd (h : src.Reads o (c :: cs)) : src.characterEnd o = .ok (o + c.utf8Size) := by
  rw [Source.characterEnd, h.current, Utf8.front_cons]
  have := h.tail.le_length
  simp only [bind, Except.bind, width_lead, Fault.guard32, if_pos h.add_lt, pure, Except.pure]
  rw [Nat.min_eq_left this]

theorem nextChar (h : src.Reads o (c :: cs)) : src.nextChar o = .ok (o + c.utf8Size) := by
  have := h.lt_length
  rw [Source.nextChar, if_neg (by simpa [isEnd]), h.characterEnd]

theorem char? (h : src.Reads o (c :: cs)) : src.char? o = .ok (some c) := by
  have hl := h.lt_length
  have hs : src.Reads o ([c] ++ cs) := h
  have hs : src.slice o (o + c.utf8Size) = .ok (.ofList [c]) := Utf8.size_singleton c ▸ hs.slice
  rw [Source.char?, if_neg (by simpa [isEnd]), h.characterEnd]
  simp [bind, Except.bind, hs, pure, Except.pure]

end Reads

theorem ofString_reads_append {text : String} {before ahead : List Char}
    (h : text.utf8ByteSize ≤ maxLength) (ht : text.toList = before ++ ahead) :
    (ofString text).Reads (Utf8.size before) ahead := by
  have hr := ofString_reads h
  rw [ht] at hr
  exact Nat.zero_add (Utf8.size before) ▸ hr.append

end LoxLex.Source
