import LoxLex.Proofs.Scan.Coverage
import LoxLex.Proofs.Scan.Trace

namespace LoxLex

namespace Scan

open Piece

-- The dispatches of a scan: how many there were before, and the offset and the line each is at.
inductive Visits (src : Source) : Nat → Nat → Nat → Prop
  | behind : Path src 0 1 steps o line → Visits src steps.length o line

-- What a step from offset `o` keeps to.
structure SafeStep (text : String) (o : Nat) (s : Step) : Prop where
  lt       : o < s.offset
  le_size  : s.offset ≤ text.utf8ByteSize
  boundary : (⟨s.offset⟩ : String.Pos.Raw).IsValid text
  line_lt  : s.line < UInt32.size
  lexeme   : ∀ t ∈ s.token?, (Source.ofString text).between? o s.offset = some t.lexeme
  value    : ∀ t ∈ s.token?, ∀ v, t.literal = some (.string v) →
               (⟨o + 1⟩ : String.Pos.Raw).IsValid text ∧
               (⟨s.offset - 1⟩ : String.Pos.Raw).IsValid text ∧
               (Source.ofString text).between? (o + 1) (s.offset - 1) = some v

-- What holds at a dispatch with `n` dispatches before.
structure Safe (text : String) (n o line : Nat) : Prop where
  count_le : n ≤ o
  le_size  : o ≤ text.utf8ByteSize
  boundary : (⟨o⟩ : String.Pos.Raw).IsValid text
  char?    : o < text.utf8ByteSize → ∃ c, (Source.ofString text).char? o = .ok (some c)
  step     : o < text.utf8ByteSize → ∃ s, step (.ofString text) o line = .ok s ∧ SafeStep text o s

section

variable {text : String} {n o line : Nat} {c : Char} {before ahead cs value rest : List Char}
variable (hs : text.utf8ByteSize < Source.maxLength)
include hs

theorem length_ofString :
    (Source.ofString text).length = text.utf8ByteSize :=
  Source.length_ofString (Nat.le_of_lt hs)

theorem Stands.quoted
    (h : Stands text o line before ((Piece.string value).text ++ rest)) :
    (⟨o + 1⟩ : String.Pos.Raw).IsValid text ∧
      (⟨o + 1 + Utf8.size value⟩ : String.Pos.Raw).IsValid text ∧
        (Source.ofString text).between? (o + 1) (o + 1 + Utf8.size value) =
          some (.ofList value) := by
  have h : Stands text o line before (['"'] ++ (value ++ '"' :: rest)) := by
    simpa [Piece.text] using h
  exact ⟨h.append.boundary, h.append.append.boundary, (h.append.reads hs).between?⟩

theorem Stands.safeStep (h : Stands text o line before (c :: cs)) :
    SafeStep text o (.ofPiece o line (first c cs).1 (first c cs).2) where
  lt       := Nat.lt_add_of_pos_right (Utf8.size_pos (text_first_ne_nil c cs))
  le_size  := length_ofString hs ▸ (h.next.reads hs).le_length
  boundary := h.next.boundary
  line_lt  := Nat.lt_of_le_of_lt (Nat.le_add_right ..) (h.next.line_lt hs)
  lexeme t ht := by
    have hr := h.reads hs
    rw [← text_first c cs] at hr
    rw [lexeme_of_token? ht]
    exact hr.between?
  value t ht v hv := by
    have he := eq_string_of_token? ht hv
    have ho : o + Utf8.size (first c cs).1.text - 1 = o + 1 + Utf8.size v.toList := by
      rw [he, size_string]
      omega
    rw [← text_first c cs] at h
    rw [he] at h
    have hq := h.quoted hs
    rw [String.ofList_toList, ← ho] at hq
    exact hq

theorem Visits.stands (h : Visits (.ofString text) n o line) :
    n ≤ o ∧ ∃ before ahead, Stands text o line before ahead := by
  obtain ⟨hp⟩ := h
  have ⟨_, _, _, h⟩ := hp.stands hs (.start text)
  have hl := hp.length_le hs (.start text)
  rw [Nat.zero_add] at hl
  exact ⟨hl, _, _, h⟩

theorem Visits.safe (h : Visits (.ofString text) n o line) : Safe text n o line := by
  have ⟨hn, before, ahead, h⟩ := h.stands hs
  have hl : o ≤ text.utf8ByteSize := length_ofString hs ▸ (h.reads hs).le_length
  cases ahead
  case nil =>
    have he := (h.reads hs).length_le_iff.mpr rfl
    rw [length_ofString hs] at he
    have hf (ho : o < text.utf8ByteSize) := Nat.not_le.mpr ho he
    exact ⟨hn, hl, h.boundary, (hf · |>.elim), (hf · |>.elim)⟩
  case cons c cs =>
    exact ⟨hn, hl, h.boundary, fun _ => ⟨c, (h.reads hs).char?⟩,
      fun _ => ⟨_, h.step_eq hs, h.safeStep hs⟩⟩

end

structure SafeScan (source : String) (extent : Extent) : Prop where
  ok     : ofSource? (.ofString (extent.part source)) = .ok (scan source extent)
  visits : ∀ n o line, Visits (.ofString (extent.part source)) n o line →
             Safe (extent.part source) n o line
  ends   : ∃ n line, n ≤ (extent.part source).utf8ByteSize ∧
             Visits (.ofString (extent.part source)) n (extent.part source).utf8ByteSize line

end Scan

-- No scan fails, and none takes more steps than its source has bytes.
theorem scan_safe (source : String) (extent : Extent) (h : source.utf8ByteSize < Source.maxLength) :
    Scan.SafeScan source extent := by
  have hs := Nat.lt_of_le_of_lt extent.utf8ByteSize_part_le h
  have ⟨steps, hp, _⟩ := (Scan.Stands.start _).exists_path hs
  rw [Scan.length_ofString hs] at hp
  constructor
  case ok     => rw [scan_part_eq extent h, Scan.ofSource?_part_eq extent h]
  case visits => exact fun _ _ _ hv => hv.safe hs
  case ends   => exact ⟨_, _, (Scan.Visits.behind hp |>.safe hs).count_le, .behind hp⟩

-- A string that is cut off behind a character of more than one byte.
theorem scan_safe_allButLast :
    "\"é\n".utf8ByteSize < Source.maxLength ∧ Scan.SafeScan "\"é\n" .allButLast :=
  ⟨by decide, scan_safe _ _ (by decide)⟩

end LoxLex
