import LoxLex.Proofs.Diagnostic.ErrorLog
import LoxLex.Proofs.Text.Lines
import LoxLex.Proofs.Text.Quoted

namespace LoxLex

-- All that comes from the source is one character, in quotes.
theorem Scan.Error.plain_of_mem_message (e : Error) : ∀ c ∈ e.message.toList, Plain c := by
  cases e
  case unexpected line c =>
    have hq : ∀ d ∈ (Quoted.character c).toList, Plain d := by
      rw [Quoted.character, String.toList_ofList]
      exact Quoted.plain_of_mem_encode (.of_isShown rfl)
    show ∀ d ∈ ("Unexpected character " ++ Quoted.character c ++ ".").toList, Plain d
    rw [String.toList_append, String.toList_append, List.forall_mem_append, List.forall_mem_append]
    exact ⟨⟨Plain.forall_of_isShown rfl, hq⟩, Plain.forall_of_isShown rfl⟩
  case unterminated =>
    show ∀ c ∈ "Unterminated string.".toList, Plain c
    exact Plain.forall_of_isShown rfl
  case malformed =>
    show ∀ c ∈ "No digit after the decimal point.".toList, Plain c
    exact Plain.forall_of_isShown rfl

end LoxLex
