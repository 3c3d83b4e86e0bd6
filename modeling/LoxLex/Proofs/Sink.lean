import LoxLex.Sink

namespace LoxLex

namespace Sink

variable {r s t : Sink} {a b text : String}

theorem clip_of_size_le {limit? : Option Nat} {bytes : ByteArray}
    (h : ∀ limit ∈ limit?, bytes.size ≤ limit) : clip limit? bytes = bytes := by
  cases limit?
  case none => rfl
  case some limit =>
    have hs : bytes.size ≤ limit := h limit rfl
    calc bytes.extract 0 limit
      _ = (bytes.extract 0 bytes.size).extract 0 limit := by
        rw [ByteArray.extract_zero_size]
      _ = bytes.extract 0 bytes.size := by
        simp only [ByteArray.extract_extract, Nat.zero_add, Nat.min_eq_right hs]
      _ = bytes := ByteArray.extract_zero_size

theorem clip_bytes (s : Sink) : clip s.limit? s.bytes = s.bytes :=
  clip_of_size_le s.size_le

-- What does not fit is lost, and nothing that comes later takes its place.
theorem clip_append (limit? : Option Nat) (x y : ByteArray) :
    clip limit? (clip limit? x ++ y) = clip limit? (x ++ y) := by
  cases limit?
  case none => rfl
  case some limit =>
    have h : limit - min limit x.size = limit - x.size := by omega
    simp only [clip, ByteArray.extract_append, ByteArray.extract_extract, ByteArray.size_extract,
      Nat.sub_zero, Nat.zero_sub, Nat.zero_add, Nat.min_self, h]

theorem fits_of_none (h : s.limit? = none) : s.fits text := by
  rw [fits, h]
  rfl

theorem ext (hl : s.limit? = t.limit?) (hb : s.bytes = t.bytes) (hf : s.flushes = t.flushes) :
    s = t := by
  cases s
  cases t
  cases hl
  cases hb
  cases hf
  rfl

def room? (s : Sink) : Option Nat :=
  s.limit?.map (· - s.bytes.size)

theorem fits_iff : s.fits text ↔ ∀ n ∈ s.room?, text.utf8ByteSize ≤ n := by
  have h := s.size_le
  rw [fits, room?]
  cases hl : s.limit?
  case none => simp
  case some limit =>
    have := h limit hl
    simp
    omega

theorem bytes_write (s : Sink) (text : String) :
    (s.write text).bytes = s.bytes ++ clip s.room? text.toByteArray := by
  have hs := s.size_le
  show clip s.limit? (s.bytes ++ text.toByteArray) = _
  rw [room?]
  generalize s.limit? = limit? at hs
  cases limit?
  case none => rfl
  case some limit =>
    have hb : clip (some limit) s.bytes = s.bytes := clip_of_size_le hs
    rw [clip, ByteArray.extract_append, Nat.zero_sub]
    exact congrArg (· ++ _) hb

theorem room?_write (s : Sink) (text : String) :
    (s.write text).room? = s.room?.map (· - text.utf8ByteSize) := by
  have hs := s.size_le
  simp only [room?, write]
  cases hl : s.limit?
  case none => rfl
  case some limit =>
    have := hs limit hl
    simp [clip]
    omega

theorem fits_empty (s : Sink) : s.fits "" :=
  fits_iff.mpr fun n _ => Nat.zero_le n

theorem write_empty (s : Sink) : s.write "" = s := by
  have h : s.bytes ++ "".toByteArray = s.bytes := ByteArray.append_empty
  exact ext rfl ((congrArg (clip _) h).trans s.clip_bytes) rfl

theorem write_write (s : Sink) (a b : String) : (s.write a).write b = s.write (a ++ b) := by
  refine ext rfl ?_ rfl
  simp only [write, clip_append, String.toByteArray_append, ByteArray.append_assoc]

theorem fits_append : s.fits (a ++ b) ↔ s.fits a ∧ (s.write a).fits b := by
  simp only [fits_iff, room?_write, String.utf8ByteSize_append]
  cases s.room?
  case none   => simp
  case some n =>
    simp
    omega

theorem bytes_write_of_fits (h : s.fits text) :
    (s.write text).bytes = s.bytes ++ text.toByteArray := by
  rw [bytes_write, clip_of_size_le (fits_iff.mp h)]

theorem write_append_of_not_fits (h : ¬s.fits a) : s.write (a ++ b) = s.write a := by
  refine ext rfl ?_ rfl
  rw [bytes_write, bytes_write, String.toByteArray_append]
  rw [fits_iff] at h
  cases hr : s.room?
  case none   => simp [hr] at h
  case some n =>
    simp only [hr, Option.mem_some_iff, forall_eq', Nat.not_le] at h
    have hz : n - a.toByteArray.size = 0 := Nat.sub_eq_zero_of_le (Nat.le_of_lt h)
    rw [clip, ByteArray.extract_append, hz, Nat.zero_sub, ByteArray.extract_same,
      ByteArray.append_empty]
    rfl

theorem write_flush (s : Sink) (text : String) : s.flush.write text = (s.write text).flush :=
  rfl

-- Parts that are written one by one are written as one text. Once a part does not fit there is no
-- room, so it makes no difference that the parts behind it are left out.
theorem writeParts_eq (s : Sink) (texts : List String) :
    s.writeParts texts = s.write (String.join texts) := by
  induction texts generalizing s
  case nil => exact s.write_empty.symm
  case cons text texts hi =>
    rw [writeParts, String.join_cons]
    split
    case isTrue    => rw [hi, write_write]
    case isFalse h => rw [write_append_of_not_fits h]

theorem foldl_writeParts (s : Sink) (writes : List (List String)) :
    writes.foldl writeParts s = s.write (String.join (writes.map String.join)) := by
  induction writes generalizing s
  case nil => exact s.write_empty.symm
  case cons texts writes hi =>
    rw [List.foldl_cons, hi, writeParts_eq, write_write, List.map_cons, String.join_cons]

-- The second sink is what the first one becomes by writing a text, in one or more writes.
structure Wrote (s : Sink) (text : String) (t : Sink) : Prop where
  limit? : t.limit? = s.limit?
  bytes  : t.bytes = clip s.limit? (s.bytes ++ text.toByteArray)

namespace Wrote

theorem none (s : Sink) : s.Wrote "" s where
  limit? := rfl
  bytes  := by
    have h : s.bytes ++ "".toByteArray = s.bytes := ByteArray.append_empty
    rw [h, s.clip_bytes]

theorem write (s : Sink) (text : String) : s.Wrote text (s.write text) where
  limit? := rfl
  bytes  := rfl

theorem flush (h : s.Wrote text t) : s.Wrote text t.flush where
  limit? := h.limit?
  bytes  := h.bytes

theorem append (hr : r.Wrote a s) (hs : s.Wrote b t) : r.Wrote (a ++ b) t where
  limit? := hs.limit?.trans hr.limit?
  bytes  := by
    rw [hs.bytes, hr.limit?, hr.bytes, clip_append, String.toByteArray_append,
      ByteArray.append_assoc]

theorem of_empty (h : (Sink.empty .none).Wrote text t) : t.bytes = text.toByteArray :=
  h.bytes.trans ByteArray.empty_append

end Wrote
end Sink
end LoxLex
