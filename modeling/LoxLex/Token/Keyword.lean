namespace LoxLex

inductive Keyword
  | kwAnd
  | kwClass
  | kwElse
  | kwFalse
  | kwFun
  | kwFor
  | kwIf
  | kwNil
  | kwOr
  | kwPrint
  | kwReturn
  | kwSuper
  | kwThis
  | kwTrue
  | kwVar
  | kwWhile
  deriving DecidableEq

namespace Keyword

def all : List Keyword :=
  [kwAnd, kwClass, kwElse, kwFalse, kwFun, kwFor, kwIf, kwNil, kwOr, kwPrint, kwReturn, kwSuper,
   kwThis, kwTrue, kwVar, kwWhile]

theorem mem_all (kw : Keyword) : kw ∈ all := by
  cases kw <;> decide

def text : Keyword → String
  | kwAnd    => "and"
  | kwClass  => "class"
  | kwElse   => "else"
  | kwFalse  => "false"
  | kwFun    => "fun"
  | kwFor    => "for"
  | kwIf     => "if"
  | kwNil    => "nil"
  | kwOr     => "or"
  | kwPrint  => "print"
  | kwReturn => "return"
  | kwSuper  => "super"
  | kwThis   => "this"
  | kwTrue   => "true"
  | kwVar    => "var"
  | kwWhile  => "while"

-- The name in listings.
def name : Keyword → String
  | kwAnd    => "AND"
  | kwClass  => "CLASS"
  | kwElse   => "ELSE"
  | kwFalse  => "FALSE"
  | kwFun    => "FUN"
  | kwFor    => "FOR"
  | kwIf     => "IF"
  | kwNil    => "NIL"
  | kwOr     => "OR"
  | kwPrint  => "PRINT"
  | kwReturn => "RETURN"
  | kwSuper  => "SUPER"
  | kwThis   => "THIS"
  | kwTrue   => "TRUE"
  | kwVar    => "VAR"
  | kwWhile  => "WHILE"

-- The name in dumps.
def label : Keyword → String
  | kwAnd    => "And"
  | kwClass  => "Class"
  | kwElse   => "Else"
  | kwFalse  => "False"
  | kwFun    => "Fun"
  | kwFor    => "For"
  | kwIf     => "If"
  | kwNil    => "Nil"
  | kwOr     => "Or"
  | kwPrint  => "Print"
  | kwReturn => "Return"
  | kwSuper  => "Super"
  | kwThis   => "This"
  | kwTrue   => "True"
  | kwVar    => "Var"
  | kwWhile  => "While"

def ofLength : Nat → List Keyword
  | 2 => [kwIf, kwOr]
  | 3 => [kwAnd, kwFor, kwFun, kwNil, kwVar]
  | 4 => [kwElse, kwThis, kwTrue]
  | 5 => [kwClass, kwFalse, kwPrint, kwSuper, kwWhile]
  | 6 => [kwReturn]
  | _ => []

def mayBe (word : String) : Bool :=
  2 ≤ word.utf8ByteSize && word.utf8ByteSize ≤ 6 && word.toList.head?.any Char.isLower

-- The case of a word makes a difference.
def ofText? (word : String) : Option Keyword :=
  if mayBe word then
    (ofLength word.utf8ByteSize).find? (·.text == word)
  else
    none

theorem ofText?_text (kw : Keyword) : ofText? kw.text = some kw := by
  cases kw <;> rfl

theorem text_of_ofText? {word : String} {kw : Keyword} (h : ofText? word = some kw) :
    kw.text = word := by
  rw [ofText?] at h
  split at h
  case isTrue  => simpa using List.find?_some h
  case isFalse => cases h

end Keyword
end LoxLex
