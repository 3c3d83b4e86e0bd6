import LoxLex.Token.Keyword
import LoxLex.Token.Operator

namespace LoxLex

inductive Kind
  | operator (op : Operator)
  | identifier
  | string
  | number
  | keyword (kw : Keyword)
  | eof
  deriving DecidableEq

namespace Kind

def all : List Kind :=
  Operator.all.map operator ++ [identifier, string, number] ++ Keyword.all.map keyword ++ [eof]

theorem mem_all (kind : Kind) : kind ∈ all := by
  cases kind <;> simp [all, Operator.mem_all, Keyword.mem_all]

def name : Kind → String
  | operator op => op.name
  | identifier  => "IDENTIFIER"
  | string      => "STRING"
  | number      => "NUMBER"
  | keyword kw  => kw.name
  | eof         => "EOF"

def label : Kind → String
  | operator op => op.label
  | identifier  => "Identifier"
  | string      => "String"
  | number      => "Number"
  | keyword kw  => kw.label
  | eof         => "Eof"

def isKeyword : Kind → Bool
  | keyword _ => true
  | _         => false

def ofWord (word : String) : Kind :=
  (Keyword.ofText? word).elim identifier keyword

end Kind
end LoxLex
