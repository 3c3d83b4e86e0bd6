import LoxLex.Decimal.Style
import LoxLex.Text.Quoted
import LoxLex.Token.Kind

namespace LoxLex

inductive Literal
  | number (x : Binary64)
  | string (s : String)
  deriving DecidableEq

namespace Literal

def listing : Literal → String
  | number x => NumberStyle.listing.text x
  | string s => s

def dump : Literal → String
  | number x => "Number(" ++ NumberStyle.dump.text x ++ ")"
  | string s => "String(" ++ Quoted.text s ++ ")"

end Literal

structure Token where
  kind    : Kind
  lexeme  : String
  literal : Option Literal
  -- The line of the first character of the lexeme. Lines are counted from 1.
  line    : Nat
  deriving DecidableEq

namespace Token

def eof (line : Nat) : Token where
  kind    := .eof
  lexeme  := ""
  literal := none
  line    := line

def unplaced (kind : Kind) (lexeme : String) : Token where
  kind    := kind
  lexeme  := lexeme
  literal := none
  line    := 1

variable (t : Token)

def listing : String :=
  t.kind.name ++ " " ++ t.lexeme ++ " " ++ t.literal.elim "null" Literal.listing

-- Every part of a token is shown, quoted, so that no lexeme can pass for something else.
def dump : String :=
  t.kind.label ++ " " ++ Quoted.text t.lexeme ++ (t.literal.elim "" fun l => " = " ++ l.dump) ++
    " @ line " ++ t.line.repr

end Token
end LoxLex
