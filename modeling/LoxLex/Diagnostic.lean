import LoxLex.Scan.Error

namespace LoxLex

structure Diagnostic where
  line     : Nat
  -- Where on the line. It is empty if the line says it all.
  location : String := ""
  message  : String
  deriving DecidableEq

namespace Diagnostic

def ofError (e : Scan.Error) : Diagnostic where
  line    := e.line
  message := e.message

-- What shows the label in bold red on a terminal, and what ends that.

def labelStart : String := "\x1b[1;31m"

def labelStop : String := "\x1b[0m"

variable (d : Diagnostic)

def label : String :=
  if d.location = "" then "Error" else "Error " ++ d.location

def textWith (start stop : String) : String :=
  "[line " ++ d.line.repr ++ "] " ++ start ++ d.label ++ stop ++ ": " ++ d.message

def text : String :=
  d.textWith "" ""

def rendered (colored : Bool) : String :=
  (if colored then d.textWith labelStart labelStop else d.text) ++ "\n"

-- What stands before the label, the label, and what stands behind it, each written in parts.
def writes (colored : Bool) : List (List String) := [
  ["[line ", d.line.repr, "] "],
  if colored then [labelStart, d.label, labelStop] else [d.label],
  [": ", d.message, "\n"]
]

end Diagnostic
end LoxLex
