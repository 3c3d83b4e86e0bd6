import LoxLex.Source

namespace LoxLex.Source

theorem maxLength_succ : maxLength + 1 = UInt32.size :=
  rfl

-- A source whose text is read in full, so that only zeros stand behind it.
structure Sealed (src : Source) : Prop where
  short : src.length ≤ maxLength
  zero  : ∀ {i} (h : i < src.padded.size), src.length ≤ i → src.padded[i] = 0

variable {src : Source} {o n : Nat} {test : UInt8 → Bool}

theorem length_ofBytes {b : ByteArray} (h : b.size ≤ maxLength) : (ofBytes b).length = b.size :=
  Nat.min_eq_left h

theorem length_ofString {text : String} (h : text.utf8ByteSize ≤ maxLength) :
    (ofString text).length = text.utf8ByteSize :=
  length_ofBytes h

theorem ofBytes_sealed {b : ByteArray} (h : b.size ≤ maxLength) : (ofBytes b).Sealed where
  short := length_ofBytes h ▸ h
  zero hi hl := by
    rw [length_ofBytes h] at hl
    simp [ofBytes, ByteArray.getElem_append_right hl, List.getElem_toByteArray]

def rest (src : Source) (o : Nat) : List UInt8 :=
  src.bytes.data.toList.drop o

theorem length_rest (src : Source) (o : Nat) : (src.rest o).length = src.length - o := by
  have := src.length_lt_size
  simp only [rest, bytes, List.length_drop, Array.length_toList, ByteArray.size_data,
    ByteArray.size_extract]
  omega

theorem drop_rest : (src.rest o).drop n = src.rest (o + n) := by
  simp [rest]

theorem lt_size (h : o ≤ src.length) : o < src.padded.size := by
  have := src.length_lt_size
  omega

theorem rest_of_lt (h : o < src.length) (hs : o < src.padded.size) :
    src.rest o = src.padded[o] :: src.rest (o + 1) := by
  have hl : o < src.bytes.data.toList.length := by
    simp only [bytes, Array.length_toList, ByteArray.size_data, ByteArray.size_extract]
    omega
  rw [rest, List.drop_eq_getElem_cons hl]
  simp [rest, bytes, ByteArray.getElem_eq_getElem_data]

theorem rest_of_le (h : src.length ≤ o) : src.rest o = [] := by
  have := length_rest src o
  exact List.eq_nil_of_length_eq_zero (by omega)

theorem rest_ofBytes {b : ByteArray} (h : b.size ≤ maxLength) :
    (ofBytes b).rest 0 = b.data.toList := by
  rw [rest, bytes, length_ofBytes h, List.drop_zero, ofBytes, ByteArray.extract_append_size_left,
    ByteArray.extract_zero_size]

-- What a read at the end of a source gives stands for the end.
theorem current_of_le (hs : src.Sealed) (h : o ≤ src.length) :
    src.current o = .ok ((src.rest o).headD 0) := by
  have hb := lt_size h
  rw [current, dif_pos hb]
  cases Nat.lt_or_ge o src.length
  case inl hl => rw [rest_of_lt hl hb, List.headD_cons]
  case inr hg => rw [rest_of_le hg, hs.zero _ hg, List.headD_nil]

theorem skipWhile_eq (hs : src.Sealed) (h₀ : test 0 = false) (h : o ≤ src.length) :
    src.skipWhile test o = .ok (o + ((src.rest o).takeWhile test).length) := by
  have hm := maxLength_succ
  have := hs.short
  induction hn : src.length - o generalizing o
  case zero =>
    have hb := lt_size h
    have hg : src.length ≤ o := by omega
    rw [skipWhile, dif_pos hb, hs.zero hb hg, h₀, rest_of_le hg]
    rfl
  case succ n hi =>
    have hb := lt_size h
    have hl : o < src.length := by omega
    rw [skipWhile, dif_pos hb, rest_of_lt hl hb, List.takeWhile_cons]
    split
    case isTrue =>
      rw [if_pos (by omega), hi (o := o + 1) hl (by omega), List.length_cons, Nat.add_right_comm,
        Nat.add_assoc]
    case isFalse => rfl

theorem seek_eq (h : o ≤ src.length) :
    src.seek test o = o + ((src.rest o).takeWhile (!test ·)).length := by
  induction hn : src.length - o generalizing o
  case zero =>
    have hg : src.length ≤ o := by omega
    rw [seek, dif_neg (by omega), rest_of_le hg]
    exact Nat.le_antisymm hg h
  case succ n hi =>
    have hb := lt_size h
    have hl : o < src.length := by omega
    rw [seek, dif_pos hl, rest_of_lt hl hb, List.takeWhile_cons]
    cases ht : test src.padded[o]
    case true  => simp [ht]
    case false =>
      simp only [ht, hi (o := o + 1) hl (by omega), Bool.false_eq_true, if_false, Bool.not_false,
        if_true, List.length_cons]
      omega

theorem find_eq (h : o ≤ src.length) :
    src.find test o = .ok (o + ((src.rest o).takeWhile (!test ·)).length) := by
  rw [find, if_pos h, seek_eq h]

theorem between?_eq (h : o + n ≤ src.length) :
    src.between? o (o + n) = String.fromUTF8? ((src.rest o).take n).toByteArray := by
  have := src.length_lt_size
  rw [between?]
  congr 1
  apply ByteArray.ext
  apply Array.ext'
  rw [ByteArray.data_extract, Array.toList_extract, List.toList_data_toByteArray, rest, bytes,
    ByteArray.data_extract, Array.toList_extract]
  simp only [List.extract, List.drop_zero, Nat.sub_zero, List.drop_take, List.take_take]
  congr 1
  omega

end LoxLex.Source
