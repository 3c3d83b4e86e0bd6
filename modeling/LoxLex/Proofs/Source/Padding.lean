import LoxLex.Proofs.Source.Bytes
import LoxLex.Proofs.Text.Utf8

namespace LoxLex

theorem Utf8.bytes_replicate {c : Char} (h : c.val ≤ 127) (n : Nat) :
    bytes (List.replicate n c) = List.replicate n c.toUInt8 := by
  induction n
  case zero      => rfl
  case succ n hi => simp [List.replicate_succ, encode_of_le h, hi]

namespace Source

variable {b : ByteArray} {text : String} {i : Nat}

theorem dvd_paddedSize (n : Nat) : 64 ∣ paddedSize n :=
  Nat.dvd_mul_left ..

theorem size_padded (b : ByteArray) : (ofBytes b).padded.size = paddedSize b.size := by
  have := le_paddedSize b.size
  simp only [ofBytes, ByteArray.size_append, List.size_toByteArray, List.length_replicate]
  omega

theorem getElem?_of_size_le (h : b.size ≤ i) : b[i]?.getD 0 = 0 := by
  rw [getElem?_neg b i (Nat.not_lt.mpr h), Option.getD_none]

theorem getElem_padded (h : i < (ofBytes b).padded.size) :
    (ofBytes b).padded[i] = b[i]?.getD 0 := by
  cases Nat.lt_or_ge i b.size
  case inl hl => simp [ofBytes, ByteArray.getElem_append_left hl, hl]
  case inr hg =>
    rw [getElem?_of_size_le hg]
    simp [ofBytes, ByteArray.getElem_append_right hg, List.getElem_toByteArray]

theorem current_ofBytes (h : i < paddedSize b.size) :
    (ofBytes b).current i = .ok (b[i]?.getD 0) := by
  rw [← size_padded] at h
  rw [current, dif_pos h, getElem_padded h]

theorem extract_padded : (ofBytes b).padded.extract 0 b.size = b := by
  rw [ofBytes, ByteArray.extract_append_size_left, ByteArray.extract_zero_size]

theorem bytes_ofBytes : (ofBytes b).bytes = b.extract 0 (ofBytes b).length := by
  have hl : (ofBytes b).length ≤ b.size := Nat.min_le_left ..
  calc (ofBytes b).padded.extract 0 (ofBytes b).length
    _ = ((ofBytes b).padded.extract 0 b.size).extract 0 (ofBytes b).length := by
      simp [ByteArray.extract_extract, Nat.min_eq_left hl]
    _ = _ := by rw [extract_padded]

-- What a reader relies on that looks at bytes and never asks where the source ends.
structure HasSentinel (src : Source) : Prop where
  room : src.length + 2 < src.padded.size
  zero : src.padded[src.length] = 0

-- The end of the source is the end of the text, or else the greatest offset.
theorem getElem?_length : b[(ofBytes b).length]?.getD 0 = b[maxLength]?.getD 0 := by
  cases Nat.le_total b.size maxLength
  case inl hs =>
    rw [length_ofBytes hs, getElem?_of_size_le (Nat.le_refl _), getElem?_of_size_le hs]
  case inr hl => rw [show (ofBytes b).length = maxLength from Nat.min_eq_right hl]

theorem hasSentinel_iff : (ofBytes b).HasSentinel ↔ b[maxLength]?.getD 0 = 0 := by
  rw [← getElem?_length, ← getElem_padded (lt_size (Nat.le_refl _))]
  exact ⟨HasSentinel.zero, fun h => ⟨(ofBytes b).length_lt_size, h⟩⟩

structure Padded (text : String) (src : Source) : Prop where
  aligned   : 64 ∣ src.padded.size
  room      : text.utf8ByteSize + 3 ≤ src.padded.size
  text_eq   : src.padded.extract 0 text.utf8ByteSize = text.toByteArray
  zero      : ∀ i (h : i < src.padded.size), text.utf8ByteSize ≤ i → src.padded[i] = 0
  length_eq : src.length = min text.utf8ByteSize maxLength
  bytes_eq  : src.bytes = text.toByteArray.extract 0 src.length
  lookahead : src.length + 2 < src.padded.size
  current   : src.current src.length = .ok (text.toByteArray[src.length]?.getD 0)
  peek      : src.peek src.length = .ok (text.toByteArray[src.length + 1]?.getD 0)
  sentinel  : src.HasSentinel ↔ text.toByteArray[maxLength]?.getD 0 = 0
  short     : text.utf8ByteSize ≤ maxLength →
                src.HasSentinel ∧ src.current src.length = .ok 0 ∧ src.peek src.length = .ok 0

-- The padding of a text, and when its first zero stands at the end of the source.
theorem ofString_padded (text : String) : Padded text (ofString text) := by
  let b := text.toByteArray
  have hl := (ofBytes b).length_lt_size
  have hz := size_padded b
  have hc : (ofBytes b).current (ofBytes b).length = _ := current_ofBytes (by omega)
  have hp : (ofBytes b).peek (ofBytes b).length = _ := current_ofBytes (by omega)
  constructor
  case aligned   => exact hz ▸ dvd_paddedSize b.size
  case room      => exact hz ▸ le_paddedSize b.size
  case text_eq   => exact extract_padded
  case zero      => exact fun i h hi => (getElem_padded h).trans (getElem?_of_size_le hi)
  case length_eq => rfl
  case bytes_eq  => exact bytes_ofBytes
  case lookahead => exact hl
  case current   => exact hc
  case peek      => exact hp
  case sentinel  => exact hasSentinel_iff
  case short     =>
    intro hs
    have he := length_ofBytes hs
    rw [getElem?_of_size_le (Nat.le_of_eq he.symm)] at hc
    rw [getElem?_of_size_le (he ▸ Nat.le_succ _)] at hp
    exact ⟨hasSentinel_iff.mpr (getElem?_of_size_le hs), hc, hp⟩

theorem getElem?_replicate {c : Char} {n : Nat} (hc : c.val ≤ 127) (h : i < n) :
    (String.ofList (List.replicate n c)).toByteArray[i]?.getD 0 = c.toUInt8 := by
  rw [← Utf8.toByteArray_bytes, Utf8.bytes_replicate hc]
  simp [List.getElem_toByteArray, h]

-- A text one byte longer than a source can be. At the end of the source stands its last letter.
theorem ofString_not_hasSentinel :
    let text := String.ofList (List.replicate UInt32.size 'x')
    text.utf8ByteSize = maxLength + 1 ∧ ¬(ofString text).HasSentinel ∧
      (ofString text).current (ofString text).length = .ok 'x'.toUInt8 := by
  intro text
  have hx : text.toByteArray[maxLength]?.getD 0 = 'x'.toUInt8 :=
    getElem?_replicate (by decide) (Nat.lt_succ_self maxLength)
  refine ⟨?size, ?sentinel, ?current⟩
  case size     =>
    rw [← Utf8.size_toList, String.toList_ofList, Utf8.size, Utf8.bytes_replicate (by decide),
      List.length_replicate, maxLength_succ]
  case sentinel => exact fun h => absurd (hx.symm.trans (hasSentinel_iff.mp h)) (by decide)
  case current  =>
    have hl := (ofString text).length_lt_size
    rw [ofString, size_padded] at hl
    rw [ofString, current_ofBytes (by omega), getElem?_length, hx]

end Source
end LoxLex
