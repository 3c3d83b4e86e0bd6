import LoxLex.Decimal.Numeral
import LoxLex.Scan.Error
import LoxLex.Scan.Extent
import LoxLex.Scan.Lead
import LoxLex.Source
import LoxLex.Token

namespace LoxLex

structure Scan where
  tokens : List Token
  errors : List Scan.Error
  deriving DecidableEq

namespace Scan

structure Step where
  offset : Nat
  line   : Nat
  token? : Option Token := none
  error? : Option Error := none

variable (src : Source)

def emit (kind : Kind) (start stop line : Nat) : Except Fault Step := do
  let lexeme ← src.lexeme start stop
  return { offset := stop, line, token? := some ⟨kind, lexeme, none, line⟩ }

def mark (op : Operator) (start line : Nat) : Except Fault Step := do
  emit src (.operator op) start (← Source.advance start) line

def comparison (alone withEqual : Operator) (start line : Nat) : Except Fault Step := do
  let next ← Source.advance start
  if (← src.current next) = '='.toUInt8 then
    emit src (.operator withEqual) start (← Source.advance next) line
  else
    emit src (.operator alone) start next line

-- The newline behind a comment is not a part of it.
def slash (start line : Nat) : Except Fault Step := do
  let next ← Source.advance start
  if (← src.current next) = '/'.toUInt8 then
    return { offset := ← src.findNewline next, line }
  else
    emit src (.operator .slash) start next line

structure StringEnd where
  offset : Nat
  line   : Nat
  closed : Bool

def stringEnd (o line : Nat) : Except Fault StringEnd :=
  match h : src.findDelimiter o with
  | .error f => .error f
  | .ok (stop, b) =>
    if b = Source.quote then
      .ok ⟨stop, line, true⟩
    else if b = Source.newline then
      if stop + 1 < UInt32.size ∧ line + 1 < UInt32.size then stringEnd (stop + 1) (line + 1)
      else .error .overflow
    else
      .ok ⟨stop, line, false⟩
termination_by src.length + 1 - o
decreasing_by
  have := src.findDelimiter_bounds h
  omega

-- A string stands on the line of its opening quote. Nothing in it is an escape.
def string (start line : Nat) : Except Fault Step := do
  let inside ← Source.advance start
  let last ← stringEnd src inside line
  if last.closed then
    let value ← src.lexeme inside last.offset
    let stop ← Source.advance last.offset
    let lexeme ← src.lexeme start stop
    return {
      offset := stop, line := last.line
      token? := some ⟨.string, lexeme, some (.string value), line⟩
    }
  else
    return { offset := last.offset, line := last.line, error? := some (.unterminated line) }

structure NumberEnd where
  offset   : Nat
  -- A point follows that does not belong to the number.
  dangling : Bool

-- From the end of the whole part of a number to the end of the number. A point belongs to a number
-- only if there is a digit behind it.
def numberEnd (o : Nat) : Except Fault NumberEnd := do
  if (← src.current o) = '.'.toUInt8 then
    if Lead.isDigit (← src.peek o) then
      return ⟨← src.skipWhile Lead.isDigit (← Source.advance o), false⟩
    else
      return ⟨o, true⟩
  else
    return ⟨o, false⟩

def number (start line : Nat) : Except Fault Step := do
  let last ← numberEnd src (← src.skipWhile Lead.isDigit (← Source.advance start))
  let lexeme ← src.lexeme start last.offset
  match Numeral.parse? lexeme.toList with
  | none => throw .badNumeral
  | some n =>
    return {
      offset := last.offset, line
      token? := some ⟨.number, lexeme, some (.number n.toBinary64), line⟩
      error? := if last.dangling then some (.malformed line) else none
    }

def word (start line : Nat) : Except Fault Step := do
  let stop ← src.skipWhile Lead.isWordPart (← Source.advance start)
  let lexeme ← src.lexeme start stop
  return { offset := stop, line, token? := some ⟨.ofWord lexeme, lexeme, none, line⟩ }

def unexpected (start line : Nat) : Except Fault Step := do
  match ← src.char? start with
  | none   => throw .splitCharacter
  | some c =>
    return { offset := ← src.nextChar start, line, error? := some (.unexpected line c) }

-- Takes one whole construct. The zero bytes behind the source end every run of bytes, so only at
-- the start of a construct is the position compared with the length of the source. A step can fail
-- only by a `Fault`: what is wrong with the source is recorded, and the scan goes on.
def step (start line : Nat) : Except Fault Step := do
  match Lead.ofByte (← src.current start) with
  | .blank                      => return { offset := ← Source.advance start, line }
  | .newline                    => return { offset := ← Source.advance start,
                                            line := ← Fault.guard32 (line + 1) }
  | .quote                      => string src start line
  | .digit                      => number src start line
  | .letter                     => word src start line
  | .slash                      => slash src start line
  | .mark op                    => mark src op start line
  | .comparison alone withEqual => comparison src alone withEqual start line
  | .other                      => unexpected src start line

section Progress

variable {src : Source} {start line : Nat} {s : Step}

theorem emit_offset {kind : Kind} {stop : Nat} (h : emit src kind start stop line = .ok s) :
    s.offset = stop := by
  simp only [emit, Fault.bind_eq_ok, pure, Except.pure] at h
  obtain ⟨_, _, h⟩ := h
  cases h
  rfl

theorem mark_progress {op : Operator} (h : mark src op start line = .ok s) : start < s.offset := by
  simp only [mark, Fault.bind_eq_ok] at h
  obtain ⟨_, ha, h⟩ := h
  rw [emit_offset h, Source.advance_eq_ok ha]
  exact Nat.lt_succ_self _

theorem comparison_progress {alone withEqual : Operator}
    (h : comparison src alone withEqual start line = .ok s) : start < s.offset := by
  simp only [comparison, Fault.bind_eq_ok] at h
  obtain ⟨_, ha, _, _, h⟩ := h
  cases Source.advance_eq_ok ha
  split at h
  case isTrue =>
    obtain ⟨_, ha, h⟩ := Fault.bind_eq_ok.mp h
    rw [emit_offset h, Source.advance_eq_ok ha]
    omega
  case isFalse =>
    rw [emit_offset h]
    omega

theorem slash_progress (h : slash src start line = .ok s) : start < s.offset := by
  simp only [slash, Fault.bind_eq_ok] at h
  obtain ⟨_, ha, _, _, h⟩ := h
  cases Source.advance_eq_ok ha
  split at h
  case isTrue =>
    obtain ⟨_, hf, h⟩ := Fault.bind_eq_ok.mp h
    cases h
    exact (src.find_bounds hf).left
  case isFalse =>
    rw [emit_offset h]
    omega

theorem le_stringEnd {o : Nat} {last : StringEnd} (h : stringEnd src o line = .ok last) :
    o ≤ last.offset := by
  fun_induction stringEnd src o line with
  | case1 => cases h
  | case2 _ _ _ hf => cases h; exact (src.findDelimiter_bounds hf).left
  | case3 _ _ _ _ hf _ ih =>
    exact Nat.le_trans (src.findDelimiter_bounds hf).left (Nat.le_of_succ_le (ih h))
  | case4 => cases h
  | case5 _ _ _ _ hf => cases h; exact (src.findDelimiter_bounds hf).left

theorem string_progress (h : string src start line = .ok s) : start < s.offset := by
  simp only [string, Fault.bind_eq_ok] at h
  obtain ⟨_, ha, last, hl, h⟩ := h
  cases Source.advance_eq_ok ha
  have := le_stringEnd hl
  split at h
  case isTrue =>
    simp only [Fault.bind_eq_ok] at h
    obtain ⟨_, _, _, ha, _, _, h⟩ := h
    cases Source.advance_eq_ok ha
    cases h
    exact Nat.lt_succ_of_le (Nat.le_of_succ_le this)
  case isFalse =>
    cases h
    exact this

theorem le_numberEnd {o : Nat} {last : NumberEnd} (h : numberEnd src o = .ok last) :
    o ≤ last.offset := by
  obtain ⟨_, _, h⟩ := Fault.bind_eq_ok.mp h
  split at h
  case isTrue =>
    obtain ⟨_, _, h⟩ := Fault.bind_eq_ok.mp h
    split at h
    case isTrue =>
      simp only [Fault.bind_eq_ok] at h
      obtain ⟨_, ha, _, hs, h⟩ := h
      cases Source.advance_eq_ok ha
      cases h
      exact Nat.le_of_succ_le (src.le_skipWhile hs)
    case isFalse =>
      cases h
      exact Nat.le_refl _
  case isFalse =>
    cases h
    exact Nat.le_refl _

theorem number_progress (h : number src start line = .ok s) : start < s.offset := by
  simp only [number, Fault.bind_eq_ok] at h
  obtain ⟨_, ha, _, hw, last, hl, _, _, h⟩ := h
  cases Source.advance_eq_ok ha
  have := Nat.le_trans (src.le_skipWhile hw) (le_numberEnd hl)
  split at h
  case h_1 => cases h
  case h_2 => cases h; exact this

theorem word_progress (h : word src start line = .ok s) : start < s.offset := by
  simp only [word, Fault.bind_eq_ok] at h
  obtain ⟨_, ha, _, hs, _, _, h⟩ := h
  cases Source.advance_eq_ok ha
  cases h
  exact src.le_skipWhile hs

theorem unexpected_progress (h : unexpected src start line = .ok s) : start < s.offset := by
  simp only [unexpected, Fault.bind_eq_ok] at h
  obtain ⟨c?, _, h⟩ := h
  cases c? with
  | none => cases h
  | some c =>
    obtain ⟨_, hn, h⟩ := Fault.bind_eq_ok.mp h
    cases h
    exact src.lt_nextChar hn

theorem step_progress (h : step src start line = .ok s) : start < s.offset := by
  simp only [step, Fault.bind_eq_ok] at h
  obtain ⟨b, _, h⟩ := h
  cases hb : Lead.ofByte b <;> simp only [hb] at h
  case blank =>
    obtain ⟨_, ha, h⟩ := Fault.bind_eq_ok.mp h
    cases h
    exact Nat.lt_of_lt_of_eq (Nat.lt_succ_self _) (Source.advance_eq_ok ha).symm
  case newline =>
    simp only [Fault.bind_eq_ok] at h
    obtain ⟨_, ha, _, _, h⟩ := h
    cases h
    exact Nat.lt_of_lt_of_eq (Nat.lt_succ_self _) (Source.advance_eq_ok ha).symm
  case quote      => exact string_progress h
  case digit      => exact number_progress h
  case letter     => exact word_progress h
  case slash      => exact slash_progress h
  case mark       => exact mark_progress h
  case comparison => exact comparison_progress h
  case other      => exact unexpected_progress h

end Progress

-- The tokens and errors that were found so far are given in reverse.
def loop (offset line : Nat) (tokens : List Token) (errors : List Error) : Except Fault Scan :=
  if src.length ≤ offset then
    .ok { tokens := (Token.eof line :: tokens).reverse, errors := errors.reverse }
  else
    match h : step src offset line with
    | .error f => .error f
    | .ok s =>
      have := step_progress h
      loop s.offset s.line (s.token?.toList ++ tokens) (s.error?.toList ++ errors)
termination_by src.length - offset

def ofSource? : Except Fault Scan :=
  loop src 0 1 [] []

end Scan

def scan (source : String) (extent : Extent := .whole) : Scan :=
  match Scan.ofSource? (.ofString (extent.part source)) with
  | .ok result => result
  -- No text of fewer than `2 ^ 32 - 1` bytes has a fault.
  | .error _   => { tokens := [.eof 1], errors := [] }

end LoxLex
