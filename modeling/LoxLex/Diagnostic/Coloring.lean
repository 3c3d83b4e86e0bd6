namespace LoxLex

inductive Coloring
  -- Coloured on a terminal.
  | auto
  | always
  | never
  deriving DecidableEq

namespace Coloring

def all : List Coloring :=
  [auto, always, never]

def name : Coloring → String
  | auto   => "auto"
  | always => "always"
  | never  => "never"

def ofName? (name : String) : Option Coloring :=
  all.find? (·.name == name)

def applies (onTerminal : Bool) : Coloring → Bool
  | auto   => onTerminal
  | always => true
  | never  => false

end Coloring
end LoxLex
