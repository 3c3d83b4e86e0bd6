import LoxLex.Decimal.Numeral
import LoxLex.Token

namespace LoxLex

inductive Value
  | number (x : Binary64)
  | string (s : String)
  | bool (b : Bool)
  | nil
  deriving DecidableEq

namespace Value

def ofLiteral : Literal → Value
  | .number x => number x
  | .string s => string s

def text : Value → String
  | number x   => NumberStyle.listing.text x
  | string s   => s
  | bool true  => "true"
  | bool false => "false"
  | nil        => "nil"

end Value

-- Operators are tokens, so that they still have their lexeme and their line.
inductive Expr
  | binary (left : Expr) (op : Token) (right : Expr)
  | grouping (inner : Expr)
  | literal (value : Value)
  | unary (op : Token) (right : Expr)
  deriving DecidableEq

namespace Expr

def print : Expr → String
  | binary left op right => "(" ++ op.lexeme ++ " " ++ left.print ++ " " ++ right.print ++ ")"
  | grouping inner       => "(group " ++ inner.print ++ ")"
  | literal value        => value.text
  | unary op right       => "(" ++ op.lexeme ++ " " ++ right.print ++ ")"

instance : ToString Expr where
  toString := print

-- The expression `-123 * (45.67)`.
def sample : Expr :=
  let number (n : Numeral) := literal (.number n.toBinary64)
  binary
    (unary (.unplaced (.operator .minus) "-") (number ⟨['1', '2', '3'], []⟩))
    (.unplaced (.operator .star) "*")
    (grouping (number ⟨['4', '5'], ['6', '7']⟩))

end Expr
end LoxLex
