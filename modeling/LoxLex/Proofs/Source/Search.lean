import LoxLex.Proofs.Source.Padding

namespace LoxLex.Source

variable {text : String} {src : Source} {test : UInt8 → Bool} {o stop other : Nat}

-- The first position of a text, from the given one on, whose byte passes the test. If there is none,
-- it is the end of the text.
structure FirstFrom (text : String) (test : UInt8 → Bool) (o stop : Nat) : Prop where
  le      : o ≤ stop
  le_size : stop ≤ text.utf8ByteSize
  pass    : ∀ b ∈ text.toByteArray[stop]?, test b
  fail    : ∀ i < stop, o ≤ i → ∀ b ∈ text.toByteArray[i]?, ¬test b

instance : Decidable (FirstFrom text test o stop) :=
  decidable_of_iff
    (o ≤ stop ∧ stop ≤ text.utf8ByteSize ∧ text.toByteArray[stop]?.all test ∧
      ∀ i < stop, o ≤ i → text.toByteArray[i]?.all (!test ·)) <| by
    simp only [Option.all_eq_true, Bool.not_eq_true', ← Bool.not_eq_true]
    exact ⟨fun ⟨hl, hs, hp, hf⟩ => ⟨hl, hs, hp, hf⟩, fun ⟨hl, hs, hp, hf⟩ => ⟨hl, hs, hp, hf⟩⟩

namespace FirstFrom

theorem exists_byte (h : FirstFrom text test o stop) (hlt : stop < text.utf8ByteSize) :
    ∃ b, text.toByteArray[stop]? = some b ∧ test b := by
  have he := getElem?_pos text.toByteArray stop hlt
  exact ⟨_, he, h.pass _ he⟩

theorem le_of (h : FirstFrom text test o stop) (ho : FirstFrom text test o other) :
    stop ≤ other := by
  refine Nat.le_of_not_lt fun hlt => ?_
  have ⟨b, he, hb⟩ := ho.exists_byte (Nat.lt_of_lt_of_le hlt h.le_size)
  exact h.fail other hlt ho.le b he hb

theorem unique (h : FirstFrom text test o stop) (ho : FirstFrom text test o other) :
    stop = other :=
  Nat.le_antisymm (h.le_of ho) (ho.le_of h)

end FirstFrom

theorem length_takeWhile (test : UInt8 → Bool) (bs : List UInt8) :
    (bs.takeWhile test).length = bs.findIdx (!test ·) := by
  rw [List.takeWhile_eq_take_findIdx_not, List.length_take, Nat.min_eq_left List.findIdx_le_length]

theorem find_eq_findIdx (h : o ≤ src.length) :
    src.find test o = .ok (o + (src.rest o).findIdx test) := by
  simp only [find_eq h, length_takeWhile, Bool.not_not]

section

variable (hl : text.utf8ByteSize ≤ maxLength)
include hl

theorem getElem?_rest (o i : Nat) :
    ((ofString text).rest o)[i]? = text.toByteArray[o + i]? := by
  have hr : (ofString text).rest o = text.toByteArray.data.toList.drop o := by
    rw [← rest_ofBytes hl, drop_rest, Nat.zero_add]
    rfl
  rw [hr, List.getElem?_drop, Array.getElem?_toList]
  rfl

theorem firstFrom_findIdx (test : UInt8 → Bool) (ho : o ≤ text.utf8ByteSize) :
    FirstFrom text test o (o + ((ofString text).rest o).findIdx test) := by
  have hn : ((ofString text).rest o).findIdx test ≤ text.utf8ByteSize - o := by
    rw [← length_ofString hl, ← length_rest]
    exact List.findIdx_le_length
  constructor
  case le      => exact Nat.le_add_right ..
  case le_size => omega
  case pass    =>
    intro b hb
    rw [← getElem?_rest hl] at hb
    exact List.findIdx_of_getElem?_eq_some hb
  case fail    =>
    intro i hi hle b hb
    obtain ⟨k, rfl⟩ := Nat.exists_eq_add_of_le hle
    rw [← getElem?_rest hl] at hb
    obtain ⟨_, rfl⟩ := List.getElem?_eq_some_iff.mp hb
    exact Bool.eq_false_iff.mp (List.not_of_lt_findIdx (Nat.lt_of_add_lt_add_left hi))

theorem exists_skipWhile (h₀ : test 0 = false) (ho : o ≤ text.utf8ByteSize) : ∃ stop,
    (ofString text).skipWhile test o = .ok stop ∧ FirstFrom text (!test ·) o stop := by
  have hs := skipWhile_eq (ofBytes_sealed hl) h₀ (length_ofString hl ▸ ho)
  rw [length_takeWhile] at hs
  exact ⟨_, hs, firstFrom_findIdx hl _ ho⟩

theorem exists_find (test : UInt8 → Bool) (ho : o ≤ text.utf8ByteSize) : ∃ stop,
    (ofString text).find test o = .ok stop ∧ FirstFrom text test o stop :=
  ⟨_, find_eq_findIdx (length_ofString hl ▸ ho), firstFrom_findIdx hl test ho⟩

end

def isDelimiter (b : UInt8) : Bool :=
  b == quote || b == newline

-- The first quote or newline from a position on, with its byte. The byte at the end of the text is
-- zero, and only there.
structure FirstDelimiter (text : String) (o stop : Nat) (b : UInt8) : Prop where
  first : FirstFrom text isDelimiter o stop
  found : stop < text.utf8ByteSize → text.toByteArray[stop]? = some b ∧ (b = quote ∨ b = newline)
  zero  : b = 0 ↔ stop = text.utf8ByteSize

theorem FirstFrom.delimiter (h : FirstFrom text isDelimiter o stop) :
    FirstDelimiter text o stop (text.toByteArray[stop]?.getD 0) := by
  constructor
  case first => exact h
  case found =>
    intro hlt
    have ⟨b, he, hb⟩ := h.exists_byte hlt
    rw [he]
    exact ⟨rfl, by simpa [isDelimiter] using hb⟩
  case zero =>
    constructor
    case mp =>
      intro hz
      refine Nat.le_antisymm h.le_size (Nat.le_of_not_lt fun hlt => ?_)
      have ⟨b, he, hb⟩ := h.exists_byte hlt
      rw [he, Option.getD_some] at hz
      exact absurd (hz ▸ hb) (by decide)
    case mpr => exact fun he => getElem?_of_size_le (Nat.le_of_eq he.symm)

theorem exists_findDelimiter (hl : text.utf8ByteSize ≤ maxLength) (ho : o ≤ text.utf8ByteSize) :
    ∃ stop b, (ofString text).findDelimiter o = .ok (stop, b) ∧ FirstDelimiter text o stop b := by
  have ⟨stop, hs, hf⟩ := exists_find hl isDelimiter ho
  have hc : (ofString text).current stop = .ok (text.toByteArray[stop]?.getD 0) := by
    have hz : stop ≤ text.toByteArray.size := hf.le_size
    have := le_paddedSize text.toByteArray.size
    exact current_ofBytes (by omega)
  refine ⟨stop, _, ?_, hf.delimiter⟩
  rw [findDelimiter]
  exact Fault.bind_eq_ok.mpr ⟨stop, hs, by rw [hc]; rfl⟩

-- What is relied on in a search through bytes. The index that it gives is that of the first byte
-- that passes the test, and it gives none only if no byte passes.
structure FindsFirst (test : UInt8 → Bool) (search : List UInt8 → Option Nat) : Prop where
  found  : ∀ {bs i}, search bs = some i →
             ∃ h : i < bs.length, test bs[i] ∧ ∀ j (hj : j < i), ¬test bs[j]
  absent : ∀ {bs}, search bs = none → ∀ b ∈ bs, ¬test b

theorem findIdx?_findsFirst (test : UInt8 → Bool) : FindsFirst test (List.findIdx? test) where
  found         := List.findIdx?_eq_some_iff_getElem.mp
  absent h b hb := Bool.eq_false_iff.mp (List.findIdx?_eq_none_iff.mp h b hb)

-- From a position to where a search finds something in the rest of a source, or else to its end.
def jump (src : Source) (search : List UInt8 → Option Nat) (o : Nat) : Except Fault Nat :=
  if o ≤ src.length then
    match search (src.rest o) with
    | some i => Fault.guard32 (o + i)
    | none   => .ok src.length
  else
    .error .outOfBounds

theorem FindsFirst.jump_eq {search : List UInt8 → Option Nat} (h : FindsFirst test search)
    (hs : src.length ≤ maxLength) (o : Nat) : src.jump search o = src.find test o := by
  by_cases ho : o ≤ src.length
  case neg => rw [jump, find, if_neg ho, if_neg ho]
  case pos =>
    rw [jump, if_pos ho, find_eq_findIdx ho]
    have hn := length_rest src o
    cases he : search (src.rest o)
    case none =>
      have hb b (hb : b ∈ src.rest o) := Bool.eq_false_iff.mpr (h.absent he b hb)
      rw [List.findIdx_eq_length_of_false hb, hn, Nat.add_sub_cancel' ho]
    case some i =>
      obtain ⟨hi, ht, hf⟩ := h.found he
      rw [(List.findIdx_eq hi).mpr ⟨ht, fun j hj => Bool.eq_false_iff.mpr (hf j hj)⟩]
      have := maxLength_succ
      exact if_pos (by omega)

structure Bounded (text : String) (src : Source) : Prop where
  walk        : ∀ test o, test 0 = false → o ≤ text.utf8ByteSize → ∃ stop,
                  src.skipWhile test o = .ok stop ∧ FirstFrom text (!test ·) o stop
  toNewline   : ∀ o ≤ text.utf8ByteSize, ∃ stop,
                  src.findNewline o = .ok stop ∧ FirstFrom text (· == newline) o stop
  toDelimiter : ∀ o ≤ text.utf8ByteSize, ∃ stop b,
                  src.findDelimiter o = .ok (stop, b) ∧ FirstDelimiter text o stop b
  search      : ∀ test search o, FindsFirst test search → src.jump search o = src.find test o

-- Walks and searches stop where they would with each position compared to the end of the text.
theorem ofString_bounded (text : String) (h : text.utf8ByteSize ≤ maxLength) :
    Bounded text (ofString text) := by
  constructor
  case walk        => exact fun test o h₀ ho => exists_skipWhile h h₀ ho
  case toNewline   => exact fun o ho => exists_find h _ ho
  case toDelimiter => exact fun o ho => exists_findDelimiter h ho
  case search      => exact fun test search o hs => hs.jump_eq (Nat.min_le_right ..) o

-- A walk stops at the zero at 2, and a search from 0 goes over it to the quote behind it. The zero
-- at 4 is the last byte of the text, and a search that starts at it goes on to the end.
theorem ofString_bounded_zeros :
    let text := "ab\x00\"\x00"
    let src := ofString text
    text.utf8ByteSize ≤ maxLength ∧ src.skipWhile (· != 0) 0 = .ok 2 ∧
      src.findNewline 0 = .ok 5 ∧ src.findDelimiter 0 = .ok (3, quote) ∧
      src.findDelimiter 4 = .ok (5, 0) ∧
      src.jump (List.findIdx? isDelimiter) 0 = src.find isDelimiter 0 := by
  intro text src
  have hl : text.utf8ByteSize ≤ maxLength := by decide
  have h := ofString_bounded text hl
  refine ⟨hl, ?walk, ?newline, ?quote, ?none, ?search⟩
  case walk =>
    have ⟨stop, hs, hf⟩ := h.walk (· != 0) 0 (by decide) (by decide)
    exact hf.unique (by decide : FirstFrom text _ 0 2) ▸ hs
  case newline =>
    have ⟨stop, hs, hf⟩ := h.toNewline 0 (by decide)
    exact hf.unique (by decide : FirstFrom text _ 0 5) ▸ hs
  case quote =>
    have ⟨stop, b, hs, hd⟩ := h.toDelimiter 0 (by decide)
    cases hd.first.unique (by decide : FirstFrom text _ 0 3)
    cases (hd.found (by decide)).left
    exact hs
  case none =>
    have ⟨stop, b, hs, hd⟩ := h.toDelimiter 4 (by decide)
    cases hd.first.unique (by decide : FirstFrom text _ 4 5)
    cases hd.zero.mpr rfl
    exact hs
  case search => exact h.search _ _ 0 (findIdx?_findsFirst isDelimiter)

end LoxLex.Source
