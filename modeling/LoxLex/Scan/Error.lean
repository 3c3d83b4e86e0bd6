import LoxLex.Text.Quoted

namespace LoxLex.Scan

inductive Error
  -- A character that no token starts with. It is skipped.
  | unexpected (line : Nat) (char : Char)
  -- A string that is still open at the end of the source, on the line of its opening quote.
  | unterminated (line : Nat)
  -- A number with a point behind it, but no digit behind the point. The number is kept without
  -- the point.
  | malformed (line : Nat)
  deriving DecidableEq

namespace Error

def line : Error → Nat
  | unexpected line _ => line
  | unterminated line => line
  | malformed line    => line

def char? : Error → Option Char
  | unexpected _ c => some c
  | _              => none

def isTerminal : Error → Bool
  | unterminated _ => true
  | _              => false

def message : Error → String
  | unexpected _ c => "Unexpected character " ++ Quoted.character c ++ "."
  | unterminated _ => "Unterminated string."
  | malformed _    => "No digit after the decimal point."

end Error
end LoxLex.Scan
