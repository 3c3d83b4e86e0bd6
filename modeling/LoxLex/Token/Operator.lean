namespace LoxLex

inductive Operator
  | leftParen
  | rightParen
  | leftBrace
  | rightBrace
  | comma
  | dot
  | minus
  | plus
  | semicolon
  | slash
  | star
  | bang
  | bangEqual
  | equal
  | equalEqual
  | greater
  | greaterEqual
  | less
  | lessEqual
  deriving DecidableEq

namespace Operator

def all : List Operator :=
  [leftParen, rightParen, leftBrace, rightBrace, comma, dot, minus, plus, semicolon, slash, star,
   bang, bangEqual, equal, equalEqual, greater, greaterEqual, less, lessEqual]

theorem mem_all (op : Operator) : op ∈ all := by
  cases op <;> decide

def lexeme : Operator → String
  | leftParen    => "("
  | rightParen   => ")"
  | leftBrace    => "\x7b"
  | rightBrace   => "\x7d"
  | comma        => ","
  | dot          => "."
  | minus        => "-"
  | plus         => "+"
  | semicolon    => ";"
  | slash        => "/"
  | star         => "*"
  | bang         => "!"
  | bangEqual    => "!="
  | equal        => "="
  | equalEqual   => "=="
  | greater      => ">"
  | greaterEqual => ">="
  | less         => "<"
  | lessEqual    => "<="

-- The name in listings.
def name : Operator → String
  | leftParen    => "LEFT_PAREN"
  | rightParen   => "RIGHT_PAREN"
  | leftBrace    => "LEFT_BRACE"
  | rightBrace   => "RIGHT_BRACE"
  | comma        => "COMMA"
  | dot          => "DOT"
  | minus        => "MINUS"
  | plus         => "PLUS"
  | semicolon    => "SEMICOLON"
  | slash        => "SLASH"
  | star         => "STAR"
  | bang         => "BANG"
  | bangEqual    => "BANG_EQUAL"
  | equal        => "EQUAL"
  | equalEqual   => "EQUAL_EQUAL"
  | greater      => "GREATER"
  | greaterEqual => "GREATER_EQUAL"
  | less         => "LESS"
  | lessEqual    => "LESS_EQUAL"

-- The name in dumps.
def label : Operator → String
  | leftParen    => "LeftParen"
  | rightParen   => "RightParen"
  | leftBrace    => "LeftBrace"
  | rightBrace   => "RightBrace"
  | comma        => "Comma"
  | dot          => "Dot"
  | minus        => "Minus"
  | plus         => "Plus"
  | semicolon    => "Semicolon"
  | slash        => "Slash"
  | star         => "Star"
  | bang         => "Bang"
  | bangEqual    => "BangEqual"
  | equal        => "Equal"
  | equalEqual   => "EqualEqual"
  | greater      => "Greater"
  | greaterEqual => "GreaterEqual"
  | less         => "Less"
  | lessEqual    => "LessEqual"

-- Read from the front of a text, the operator is the one with the longest lexeme that fits.
def longest? (text : List Char) : Option Operator :=
  [2, 1].findSome? fun n => all.find? fun op =>
    op.lexeme.toList.length == n && op.lexeme.toList.isPrefixOf text

theorem lexeme_ne_empty (op : Operator) : op.lexeme ≠ "" := by
  cases op <;> decide

theorem lexeme_of_longest? {text : List Char} {op : Operator} (h : longest? text = some op) :
    op.lexeme.toList <+: text := by
  have ⟨n, _, h⟩ := List.exists_of_findSome?_eq_some h
  have h := List.find?_some h
  simp only [Bool.and_eq_true, List.isPrefixOf_iff_prefix] at h
  exact h.right

end Operator
end LoxLex
