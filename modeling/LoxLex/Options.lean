import LoxLex.Diagnostic.Coloring
import LoxLex.Scan.Extent

namespace LoxLex

inductive UsageError
  | unknownOption (argument : String)
  | unknownColor (value : String)
  | missingFile
  | tooManyArguments
  deriving DecidableEq

def UsageError.message : UsageError → String
  | unknownOption argument => "unknown option '" ++ argument ++ "'"
  | unknownColor value     =>
    "invalid value '" ++ value ++ "' for --color (expected auto, always or never)"
  | missingFile            => "Usage: gdx lex <file>"
  | tooManyArguments       => "Usage: gdx [script]"

-- Options start with two dashes and may stand anywhere.
structure Options where
  extent : Extent   := .whole
  color  : Coloring := .auto
  deriving DecidableEq

namespace Options

def after? (start text : String) : Option String :=
  if start.toList.isPrefixOf text.toList then
    some (.ofList (text.toList.drop start.toList.length))
  else
    none

-- `--help` and `--version` stand for commands.
def isCommand (argument : String) : Bool :=
  argument == "--help" || argument == "--version"

structure Parsed where
  options     : Options     := {}
  positionals : List String := []
  deriving DecidableEq

def Parsed.add (parsed : Parsed) (argument : String) : Except UsageError Parsed :=
  if argument == "--legacy-eof" then
    .ok { parsed with options := { parsed.options with extent := .allButLast } }
  else match after? "--color=" argument with
    | some value =>
      match Coloring.ofName? value with
      | some mode => .ok { parsed with options := { parsed.options with color := mode } }
      | none      => .error (.unknownColor value)
    | none =>
      if (after? "--" argument).isSome && !isCommand argument then
        .error (.unknownOption argument)
      else
        .ok { parsed with positionals := parsed.positionals ++ [argument] }

def parse (arguments : List String) : Except UsageError Parsed :=
  arguments.foldlM Parsed.add {}

end Options
end LoxLex
