import LoxLex.Proofs.Scan.Lead
import LoxLex.Proofs.Source.Reads

namespace LoxLex

theorem Fault.ok_bind {a : α} {f : α → Except Fault β} : ((.ok a : Except Fault α) >>= f) = f a :=
  rfl

namespace Scan

open Piece

def Step.ofPiece (o line : Nat) (p : Piece) (rest : List Char) : Step where
  offset := o + Utf8.size p.text
  line   := line + p.newlines
  token? := p.token? line
  error? := p.error? line rest.head?

variable {src : Source} {o line : Nat} {xs rest : List Char}

theorem emit_eq {kind : Kind} (h : src.Reads o (xs ++ rest)) :
    emit src kind o (o + Utf8.size xs) line =
      .ok { offset := o + Utf8.size xs, line, token? := some ⟨kind, .ofList xs, none, line⟩ } := by
  rw [emit, h.lexeme]
  rfl

theorem newline_agrees : Utf8.Agrees (· == Source.newline) (· == '\n') :=
  Utf8.agrees_beq (d := '\n') (by decide)

theorem quote_agrees : Utf8.Agrees (· == Source.quote) (· == '"') :=
  Utf8.agrees_beq (d := '"') (by decide)

end Scan
end LoxLex
