import LoxLex.Fault

namespace LoxLex

-- A source is followed by zero bytes, so that a reader which looks at the next byte, or the one
-- after, need not ask first where the source ends. Offsets are 32 bits wide: no more than the first
-- `2 ^ 32 - 1` bytes of a text are read.
structure Source where
  padded : ByteArray
  -- The end of the source, where the padding starts.
  length : Nat
  length_lt_size : length + 2 < padded.size

namespace Source

def maxLength : Nat := UInt32.size - 1

-- Padded sources are a whole number of cache lines and have room for three zero bytes.
def paddedSize (n : Nat) : Nat :=
  (n + 3 + 63) / 64 * 64

theorem le_paddedSize (n : Nat) : n + 3 ≤ paddedSize n := by
  simp only [paddedSize]
  omega

def ofBytes (bytes : ByteArray) : Source where
  padded := bytes ++ (List.replicate (paddedSize bytes.size - bytes.size) (0 : UInt8)).toByteArray
  length := min bytes.size maxLength
  length_lt_size := by
    have := le_paddedSize bytes.size
    simp only [ByteArray.size_append, List.size_toByteArray, List.length_replicate]
    omega

def ofString (text : String) : Source :=
  ofBytes text.toByteArray

def advance (o : Nat) : Except Fault Nat :=
  Fault.guard32 (o + 1)

theorem advance_eq_ok {o next : Nat} (h : advance o = .ok next) : next = o + 1 :=
  Fault.guard32_eq_ok h

variable (src : Source)

def bytes : ByteArray :=
  src.padded.extract 0 src.length

def isEnd (o : Nat) : Bool :=
  src.length ≤ o

-- The byte at a position. At the end of a source that is read in full it is zero.
def current (o : Nat) : Except Fault UInt8 :=
  if h : o < src.padded.size then .ok src.padded[o] else .error .outOfBounds

def peek (o : Nat) : Except Fault UInt8 :=
  src.current (o + 1)

-- The text between two positions, unless one of them stands inside a character.
def between? (start stop : Nat) : Option String :=
  String.fromUTF8? (src.padded.extract start stop)

-- Ranges that split a character have an empty text.
def slice (start stop : Nat) : Except Fault String :=
  if start ≤ stop ∧ stop ≤ src.length then
    .ok ((src.between? start stop).getD "")
  else
    .error (.badSlice start stop)

def lexeme (start stop : Nat) : Except Fault String :=
  if start ≤ stop ∧ stop ≤ src.length then
    match src.between? start stop with
    | some text => .ok text
    | none      => .error .splitCharacter
  else
    .error (.badSlice start stop)

-- The number of bytes that a character takes, by the first of them. A byte that cannot be first
-- stands for itself.
def width (lead : UInt8) : Nat :=
  if 0xF0 ≤ lead ∧ lead ≤ 0xF7 then 4
  else if 0xE0 ≤ lead ∧ lead ≤ 0xEF then 3
  else if 0xC0 ≤ lead ∧ lead ≤ 0xDF then 2
  else 1

def characterEnd (o : Nat) : Except Fault Nat := do
  let lead ← src.current o
  let stop ← Fault.guard32 (o + width lead)
  return min stop src.length

-- The character at a position. There is none at the end of the source or inside a character.
def char? (o : Nat) : Except Fault (Option Char) := do
  if src.isEnd o then
    return none
  else
    let text ← src.slice o (← src.characterEnd o)
    return text.toList.head?

def nextChar (o : Nat) : Except Fault Nat :=
  if src.isEnd o then .error .atEnd else src.characterEnd o

theorem one_le_width (lead : UInt8) : 1 ≤ width lead := by
  unfold width
  repeat' split
  all_goals decide

theorem lt_nextChar {o next : Nat} (h : src.nextChar o = .ok next) : o < next := by
  unfold nextChar at h
  split at h
  case isTrue => cases h
  case isFalse ho =>
    simp only [characterEnd, Fault.bind_eq_ok] at h
    obtain ⟨lead, _, stop, hs, h⟩ := h
    cases Fault.guard32_eq_ok hs
    cases h
    have := one_le_width lead
    simp only [isEnd, decide_eq_true_eq] at ho
    omega

-- The first position from the given one on whose byte fails the test. The test should fail on
-- zero, or the walk goes on through the padding.
def skipWhile (test : UInt8 → Bool) (o : Nat) : Except Fault Nat :=
  if h : o < src.padded.size then
    if test src.padded[o] then
      if o + 1 < UInt32.size then skipWhile test (o + 1) else .error .overflow
    else
      .ok o
  else
    .error .outOfBounds
termination_by src.padded.size - o

theorem le_skipWhile {test : UInt8 → Bool} {o stop : Nat} (h : src.skipWhile test o = .ok stop) :
    o ≤ stop := by
  fun_induction skipWhile src test o with
  | case1 o _ _ _ ih => exact Nat.le_of_lt (ih h)
  | case2 => cases h
  | case3 => cases h; exact Nat.le_refl _
  | case4 => cases h

def seek (test : UInt8 → Bool) (o : Nat) : Nat :=
  if h : o < src.length then
    have : o < src.padded.size := by have := src.length_lt_size; omega
    if test src.padded[o] then o else seek test (o + 1)
  else
    src.length
termination_by src.length - o

def find (test : UInt8 → Bool) (o : Nat) : Except Fault Nat :=
  if o ≤ src.length then .ok (src.seek test o) else .error .outOfBounds

theorem le_seek {test : UInt8 → Bool} {o : Nat} (h : o ≤ src.length) : o ≤ src.seek test o := by
  fun_induction seek src test o with
  | case1 => exact Nat.le_refl _
  | case2 o _ _ _ ih => exact Nat.le_of_succ_le (ih (by omega))
  | case3 => omega

theorem seek_le_length (test : UInt8 → Bool) (o : Nat) : src.seek test o ≤ src.length := by
  fun_induction seek src test o with
  | case1 => omega
  | case2 o _ _ _ ih => exact ih
  | case3 => exact Nat.le_refl _

theorem find_bounds {test : UInt8 → Bool} {o stop : Nat} (h : src.find test o = .ok stop) :
    o ≤ stop ∧ stop ≤ src.length := by
  unfold find at h
  split at h
  case isTrue ho => cases h; exact ⟨src.le_seek ho, src.seek_le_length test o⟩
  case isFalse => cases h

def newline : UInt8 := 0x0A

def quote : UInt8 := 0x22

def findNewline (o : Nat) : Except Fault Nat :=
  src.find (· == newline) o

-- The next quote or newline and the byte there, or the end of the source and the byte zero.
def findDelimiter (o : Nat) : Except Fault (Nat × UInt8) := do
  let stop ← src.find (fun b => b == quote || b == newline) o
  return (stop, ← src.current stop)

theorem findDelimiter_bounds {o stop : Nat} {b : UInt8} (h : src.findDelimiter o = .ok (stop, b)) :
    o ≤ stop ∧ stop ≤ src.length := by
  simp only [findDelimiter, bind, Except.bind] at h
  split at h
  case h_1 => cases h
  case h_2 at' hf =>
    split at h
    case h_1 => cases h
    case h_2 => cases h; exact src.find_bounds hf

end Source
end LoxLex
