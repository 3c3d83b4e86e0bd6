import LoxLex.CommandLine
import LoxLex.Proofs.Command.Transcript
import LoxLex.Proofs.CommandLine.Options
import LoxLex.Proofs.Diagnostic.Line
import LoxLex.Proofs.Scan.Pieces

namespace LoxLex

namespace Session

variable {bytes : ByteArray}

end Session

namespace Command

end Command

namespace CommandLine

open Session Command Options

variable {arguments : List String} {input : ByteArray} {read : FileReader} {onTerminal : Bool}

def unreadable (path : String) (e : ReadError) : Outcome where
  code   := 74
  stdout := .empty
  stderr := ("cannot read '" ++ path ++ "': " ++ e.message ++ "\n").toByteArray

-- The positional arguments that are not taken for a path.
def words : List String :=
  ["help", "--help", "-h", "version", "--version", "-v", "ast", "lex"]

section

variable {options : Options} {c : Command Unit}

theorem complaint_invalidText : complaint (.stream ReadError.invalidText.message) =
    "i/o error on standard streams: stream did not contain valid UTF-8\n" := by
  decide

section

variable {r : EStateM.Result Failure Session Unit} {failure : Failure}

theorem ofResult_of_ok (h : result r = .ok ()) : Outcome.ofResult r =
    { code := 0, stdout := (after r).out.bytes, stderr := (after r).err.bytes } := by
  cases r
  case ok    => rfl
  case error => cases h

theorem ofResult_of_error (h : result r = .error failure) :
    Outcome.ofResult r = .ofFailure failure (after r).out.bytes (after r).err.bytes := by
  cases r
  case ok    => cases h
  case error => cases h; rfl

end

theorem ofResult_failOnErrors (s : Session) : Outcome.ofResult (failOnErrors.run s) = {
    code   := if s.hasErrors then 65 else 0
    stdout := s.out.bytes
    stderr := s.err.bytes
  } := by
  cases h : s.hasErrors
  case false =>
    have hr : failOnErrors.run s = .ok () s := by simp [failOnErrors, h]
    rw [hr]
    rfl
  case true =>
    have hr : failOnErrors.run s = .error (.scan s.errorCount) s := by simp [failOnErrors, h]
    rw [hr]
    show Outcome.mk 65 (s.out.bytes ++ .empty) (s.err.bytes ++ .empty) = _
    rw [ByteArray.append_empty, ByteArray.append_empty]
    rfl

theorem ofResult_completed (output : String) (errors : List Scan.Error) :
    Outcome.ofResult (completed (session options onTerminal) output errors).ended = {
      code   := if errors = [] then 0 else 65
      stdout := output.toByteArray
      stderr := (Diagnostic.render (options.color.applies onTerminal)
                  (errors.map .ofError)).toByteArray
    } := by
  have hn : (completed (session options onTerminal) output errors).hasErrors = (errors ≠ []) := by
    have hc : (completed (session options onTerminal) output errors).log.count = errors.length :=
      ErrorLog.count_recordAll.trans (by simp [session])
    simp [hasErrors, ErrorLog.hasErrors, hc, List.length_pos_iff]
  have ho : (completed (session options onTerminal) output errors).out.bytes = output.toByteArray :=
    (Sink.Wrote.write _ output).of_empty
  have he : (completed (session options onTerminal) output errors).err.bytes =
      (Diagnostic.render (options.color.applies onTerminal) (errors.map .ofError)).toByteArray :=
    (ErrorLog.bytes_recordAll rfl).trans ByteArray.empty_append
  rw [← run_failOnErrors, ofResult_failOnErrors, ho, he]
  simp only [hn, ite_not]

-- How the prompt ends a run. It goes on over errors, and only a line that is no text stops it.
theorem ofResult_prompt (lines : List ByteArray) :
    Outcome.ofResult ((prompt lines).run (session options onTerminal)) = {
      code   := if (readable lines).length = lines.length then 0 else 74
      stdout := (transcript options.extent lines).toByteArray
      stderr := (remarks options.extent (options.color.applies onTerminal) (readable lines) ++
                  if (readable lines).length = lines.length then ""
                  else "i/o error on standard streams: stream did not contain valid UTF-8\n"
                ).toByteArray
    } := by
  have h : Transcribes (session options onTerminal) lines _ := transcribes rfl rfl
  have ⟨hr, he⟩ := h.covered (Sink.fits_of_none rfl)
  have ho := h.out.trans (Sink.Wrote.write (.empty none) _).of_empty
  have he := he.trans ByteArray.empty_append
  rw [outcome] at hr
  split at hr
  case isTrue hl =>
    rw [ofResult_of_ok hr, ho, he, if_pos hl, if_pos hl, String.append_empty]
    rfl
  case isFalse hl =>
    rw [ofResult_of_error hr, Outcome.ofFailure, complaint_invalidText, ho, he, if_neg hl,
      if_neg hl, String.toByteArray_append]
    show Outcome.mk 74 (_ ++ .empty) _ = _
    rw [ByteArray.append_empty]
    rfl

section

variable {e : UsageError} {invocation : Invocation}

end

end

end CommandLine
end LoxLex
