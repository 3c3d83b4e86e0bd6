import LoxLex.Proofs.Scan.Found
import LoxLex.Proofs.Scan.Trace

namespace LoxLex

namespace Piece

variable {p : Piece} {ps : List Piece} {line : Nat}

theorem line_of_token? {t : Token} (h : t ∈ p.token? line) : t.line = line := by
  cases p <;> cases h <;> rfl

theorem line_of_error? {e : Scan.Error} {next? : Option Char} (h : e ∈ p.error? line next?) :
    e.line = line := by
  cases p
  case number =>
    simp only [error?] at h
    split at h <;> cases h
    rfl
  all_goals cases h <;> rfl

theorem le_line_of_mem_tokens {t : Token} (h : t ∈ tokens line ps) : line ≤ t.line := by
  induction ps generalizing line
  case nil =>
    cases List.mem_singleton.mp h
    exact Nat.le_refl _
  case cons p ps hi =>
    rcases List.mem_append.mp h with h | h
    case inl => exact Nat.le_of_eq (line_of_token? (Option.mem_toList.mp h)).symm
    case inr => exact Nat.le_trans (Nat.le_add_right ..) (hi h)

theorem le_line_of_mem_errors {e : Scan.Error} (h : e ∈ errors line ps) : line ≤ e.line := by
  induction ps generalizing line
  case nil => cases h
  case cons p ps hi =>
    rcases List.mem_append.mp h with h | h
    case inl => exact Nat.le_of_eq (line_of_error? (Option.mem_toList.mp h)).symm
    case inr => exact Nat.le_trans (Nat.le_add_right ..) (hi h)

theorem pairwise_toList_append {r : α → α → Prop} {a? : Option α} {as : List α}
    (h : ∀ a ∈ a?, ∀ b ∈ as, r a b) (hs : as.Pairwise r) : (a?.toList ++ as).Pairwise r := by
  cases a?
  case none   => exact hs
  case some a => exact List.pairwise_cons.mpr ⟨h a rfl, hs⟩

theorem pairwise_tokens : (tokens line ps).Pairwise (·.line ≤ ·.line) := by
  induction ps generalizing line
  case nil => exact List.pairwise_singleton ..
  case cons p ps hi =>
    refine pairwise_toList_append (fun t ht u hu => ?_) hi
    have := le_line_of_mem_tokens hu
    rw [line_of_token? ht]
    omega

theorem pairwise_errors : (errors line ps).Pairwise (·.line ≤ ·.line) := by
  induction ps generalizing line
  case nil => exact .nil
  case cons p ps hi =>
    refine pairwise_toList_append (fun e he f hf => ?_) hi
    have := le_line_of_mem_errors hf
    rw [line_of_error? he]
    omega

end Piece

namespace Scan

open Piece

-- What an error is about is at the front of the text from there on.
def Error.IsAbout : Error → List Char → Prop
  | unexpected _ c, ahead => ahead.head? = some c
  | unterminated _, ahead => ∃ value, ahead = '"' :: value ∧ '"' ∉ value
  | malformed _,    ahead => ∃ digits rest, ahead = digits ++ '.' :: rest ∧ digits ≠ [] ∧
                               (∀ c ∈ digits, c.isDigit) ∧ ∀ c ∈ rest.head?, ¬c.isDigit

structure OnLine (text : String) (o : Nat) (s : Step) : Prop where
  token : ∀ t ∈ s.token?, ∃ before ahead, Stands text o t.line before (t.lexeme.toList ++ ahead)
  error : ∀ e ∈ s.error?, ∃ before ahead, Stands text o e.line before ahead ∧ e.IsAbout ahead

theorem Error.isAbout_of_fits {p : Piece} {line : Nat} {rest : List Char} {e : Error}
    (h : p.Fits rest) (he : e ∈ p.error? line rest.head?) : e.IsAbout (p.text ++ rest) := by
  cases p
  case unexpected =>
    cases he
    rfl
  case unterminated value =>
    cases he
    exact ⟨value, by simp [text, h.right], h.left⟩
  case number n =>
    simp only [error?] at he
    split at he
    case isFalse => cases he
    case isTrue hn =>
      cases he
      obtain ⟨r, hr⟩ := List.head?_eq_some_iff.mp hn.right
      refine ⟨n.whole, r, ?_, h.left.whole_ne_nil, h.left.whole, ?_⟩
      case refine_1 => rw [text, Numeral.text_of_nil hn.left, hr]
      case refine_2 =>
        intro c hc
        obtain ⟨cs, hcs⟩ := List.head?_eq_some_iff.mp hc
        exact h.right.point hn.left c cs (hcs ▸ hr)
  all_goals cases he

theorem Takes.onLine {text : String} {x : Nat × Step} (h : Takes text x) : OnLine text x.1 x.2 := by
  cases h
  case piece before p rest h hf =>
    constructor
    case token =>
      intro t ht
      rw [line_of_token? ht, lexeme_of_token? ht, String.toList_ofList]
      exact ⟨_, _, h⟩
    case error =>
      intro e he
      rw [line_of_error? he]
      exact ⟨_, _, h, Error.isAbout_of_fits hf he⟩

structure ExactLines (source : String) (extent : Extent) (s : Scan) : Prop where
  beginning   : (extent.part source).toList <+: source.toList
  steps       : ∃ steps last, Trace (.ofString (extent.part source)) 0 1 steps last ∧
                  s = .ofSteps steps last ∧ last = 1 + (extent.part source).toList.count '\n' ∧
                    ∀ x ∈ steps, OnLine (extent.part source) x.1 x.2
  tokens_line : s.tokens.Pairwise (·.line ≤ ·.line)
  errors_line : s.errors.Pairwise (·.line ≤ ·.line)

end Scan

theorem Extent.isPrefix_part (extent : Extent) (source : String) :
    (extent.part source).toList <+: source.toList := by
  cases extent
  case whole      => exact List.prefix_refl _
  case allButLast =>
    rw [part, String.toList_ofList]
    exact List.dropLast_prefix _

-- Every line that a scan tells is the line in the source.
theorem scan_exactLines (source : String) (extent : Extent)
    (h : source.utf8ByteSize < Source.maxLength) :
    Scan.ExactLines source extent (scan source extent) := by
  constructor
  case beginning   => exact extent.isPrefix_part source
  case tokens_line => exact scan_part_eq extent h ▸ Piece.pairwise_tokens
  case errors_line => exact scan_part_eq extent h ▸ Piece.pairwise_errors
  case steps =>
    have ⟨steps, last, ht, hl, hs, hx⟩ := scan_eq_ofSteps extent h
    exact ⟨steps, last, ht, hs, hl, fun x hm => (hx x hm).onLine⟩

-- A string over two lines, and another that is never closed.
theorem scan_exactLines_strings :
    "\"a\r\n\" é \"\n".utf8ByteSize < Source.maxLength ∧
      Scan.ExactLines "\"a\r\n\" é \"\n" .whole (scan "\"a\r\n\" é \"\n") :=
  ⟨by decide, scan_exactLines _ .whole (by decide)⟩

end LoxLex
