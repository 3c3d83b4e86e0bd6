import LoxLex.Proofs.Decimal.Style
import LoxLex.Proofs.Scan.WellFormed
import LoxLex.Proofs.Session.Output
import LoxLex.Proofs.Text.Lines
import Mathlib.Algebra.BigOperators.Ring.List
import Mathlib.Algebra.Ring.Nat

namespace LoxLex

theorem Kind.newline_not_mem_name (kind : Kind) : '\n' ∉ kind.name.toList := by
  have h : ∀ k ∈ all, '\n' ∉ k.name.toList := by decide
  exact h kind kind.mem_all

namespace Token

variable {t : Token} {ts : List Token}

theorem WellFormed.newline_not_mem_lexeme (h : t.WellFormed) (hk : t.kind ≠ .string) :
    '\n' ∉ t.lexeme.toList := by
  cases ht : t.kind <;> simp only [WellFormed, ht] at h
  case operator op =>
    rw [h.left]
    cases op <;> decide
  case identifier => exact h.left.newline_not_mem
  case string     => contradiction
  case number     =>
    obtain ⟨n, hn, hl, -, -⟩ := h
    rw [hl]
    exact hn.newline_not_mem_text
  case keyword kw =>
    rw [h.left, kw.toLower_name]
    cases kw <;> decide
  case eof =>
    rw [h.left]
    decide

def shown (t : Token) : String :=
  t.literal.elim "null" Literal.listing

theorem toList_listing (t : Token) : t.listing.toList =
    t.kind.name.toList ++ ' ' :: (t.lexeme.toList ++ ' ' :: t.shown.toList) := by
  simp [listing, shown]

theorem newline_not_mem_shown_of_none (h : t.literal = none) : '\n' ∉ t.shown.toList := by
  rw [shown, h]
  decide

-- The value of a string is shown as well, with all the newlines it has.
theorem WellFormed.count_shown (h : t.WellFormed) :
    t.shown.toList.count '\n' = t.lexeme.toList.count '\n' := by
  by_cases hk : t.kind = .string
  case pos =>
    simp only [WellFormed, hk] at h
    obtain ⟨value, hl, -, hv⟩ := h
    have hs : t.shown = value := by rw [shown, hv]; rfl
    rw [hs, hl]
    simp
  case neg =>
    have hs : '\n' ∉ t.shown.toList := by
      cases ht : t.kind <;> simp only [WellFormed, ht] at h
      case string => contradiction
      case identifier => exact newline_not_mem_shown_of_none h.right.right
      case number =>
        obtain ⟨n, -, -, -, hv⟩ := h
        rw [shown, hv]
        exact NumberStyle.newline_not_mem_text (by decide)
      all_goals exact newline_not_mem_shown_of_none h.right
    rw [List.count_eq_zero.mpr hs, List.count_eq_zero.mpr (h.newline_not_mem_lexeme hk)]

theorem WellFormed.count_listing (h : t.WellFormed) :
    t.listing.toList.count '\n' = 2 * t.lexeme.toList.count '\n' := by
  have hk := List.count_eq_zero.mpr t.kind.newline_not_mem_name
  simp [toList_listing, hk, h.count_shown]
  omega

theorem WellFormed.newline_mem_listing_iff (h : t.WellFormed) :
    '\n' ∈ t.listing.toList ↔ '\n' ∈ t.lexeme.toList := by
  rw [← List.count_pos_iff, ← List.count_pos_iff, h.count_listing]
  omega

def breaks (ts : List Token) : Nat :=
  (ts.map fun t => t.lexeme.toList.count '\n').sum

theorem count_list (h : ∀ t ∈ ts, t.WellFormed) :
    (list ts).toList.count '\n' = ts.length + 2 * breaks ts := by
  have hm : (ts.map fun t => t.listing.toList.count '\n') =
      ts.map fun t => 2 * t.lexeme.toList.count '\n' :=
    List.map_congr_left fun t ht => (h t ht).count_listing
  rw [list, count_join, hm, List.sum_map_mul_left, breaks]

theorem breaks_eq_zero_iff : breaks ts = 0 ↔ ∀ t ∈ ts, '\n' ∉ t.lexeme.toList := by
  rw [breaks, List.sum_eq_zero_iff_forall_eq_nat]
  simp [List.count_eq_zero]

theorem textLines_list_iff (h : ∀ t ∈ ts, t.WellFormed) :
    textLines (list ts) = (ts.map fun t => t.listing ++ "\n") ↔
      ∀ t ∈ ts, '\n' ∉ t.lexeme.toList := by
  constructor
  case mp =>
    intro he t ht hm
    have hl : t.listing ++ "\n" ∈ textLines (list ts) := he ▸ List.mem_map_of_mem ht
    obtain ⟨a, ha, hl⟩ := (Lines.of_split _).exists_of_mem _ (toList_mem_of_mem hl)
    have hn := (h t ht).newline_mem_listing_iff.mpr hm
    rw [String.toList_append] at hl
    rcases hl with hl | hl
    case inl => exact ha (hl ▸ List.mem_append_left _ hn)
    case inr => exact ha (List.append_cancel_right hl ▸ hn)
  case mpr =>
    intro hm
    refine textLines_join fun l hl => ?_
    obtain ⟨t, ht, rfl⟩ := List.mem_map.mp hl
    exact ⟨t.listing, mt (h t ht).newline_mem_listing_iff.mp (hm t ht), rfl⟩

end Token

namespace Session

-- How a session lists tokens. It writes a line for each of them if no string goes over several
-- lines, and only then.
structure Lists (s : Session) (tokens : List Token) (t : Session) : Prop where
  out     : t.out.bytes = s.out.bytes ++ (Token.list tokens).toByteArray
  count   : (Token.list tokens).toList.count '\n' = tokens.length + 2 * Token.breaks tokens
  strings : ∀ t ∈ tokens, t.kind ≠ .string → '\n' ∉ t.lexeme.toList
  exact   : (Token.list tokens).toList.count '\n' = tokens.length ↔
              ∀ t ∈ tokens, '\n' ∉ t.lexeme.toList
  lines   : textLines (Token.list tokens) = (tokens.map fun t => t.listing ++ "\n") ↔
              ∀ t ∈ tokens, '\n' ∉ t.lexeme.toList

theorem list_lines (s : Session) (source : String) (hs : source.utf8ByteSize < Source.maxLength)
    (ho : s.out.limit? = none) :
    ∃ t, (list source).run s = .ok (scan source s.extent) t ∧
      s.Lists (scan source s.extent).tokens t := by
  have hw : ∀ t ∈ (scan source s.extent).tokens, t.WellFormed := wellFormed_of_mem_scan hs
  have hf : s.out.fits (Token.list (scan source s.extent).tokens) := Sink.fits_of_none ho
  refine ⟨_, run_list_of_fits hf, ?_⟩
  constructor
  case out     => exact Sink.bytes_write_of_fits hf
  case count   => exact Token.count_list hw
  case strings => exact fun t ht => (hw t ht).newline_not_mem_lexeme
  case exact   =>
    rw [Token.count_list hw, ← Token.breaks_eq_zero_iff]
    omega
  case lines   => exact Token.textLines_list_iff hw

-- The second line of the string looks like the line of another token.
theorem list_lines_string :
    let s : Session := {
      extent := .allButLast
      out    := .empty none
      log    := { sink := .empty (some 0), colored := true }
    }
    "\"\nEOF  null\n\" or 1.5 ".utf8ByteSize < Source.maxLength ∧ s.out.limit? = none ∧
      ∃ t, (list "\"\nEOF  null\n\" or 1.5 ").run s =
          .ok (scan "\"\nEOF  null\n\" or 1.5 " s.extent) t ∧
        s.Lists (scan "\"\nEOF  null\n\" or 1.5 " s.extent).tokens t := by
  intro s
  exact ⟨by decide, rfl, s.list_lines _ (by decide) rfl⟩

-- Two tokens on four lines.
theorem list_newline :
    let s : Session := {
      extent := .whole
      out    := .empty none
      log    := { sink := .empty none, colored := false }
    }
    ∃ t, (list "\"\n\"").run s = .ok (scan "\"\n\"" s.extent) t ∧
      (scan "\"\n\"" s.extent).tokens.length = 2 ∧
      t.out.bytes = "STRING \"\n\" \n\nEOF  null\n".toByteArray ∧
      "STRING \"\n\" \n\nEOF  null\n".toList.count '\n' = 4 :=
  ⟨_, run_list_of_fits (Sink.fits_of_none rfl), by decide +kernel, by decide +kernel, by decide⟩

end Session
end LoxLex
