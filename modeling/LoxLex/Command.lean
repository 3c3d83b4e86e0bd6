import LoxLex.Expr
import LoxLex.Session

namespace LoxLex.Command

open Session

def listFile (read : FileReader) (path : String) : Command Unit := do
  let source ← readText read path
  let _ ← list source
  flush
  failOnErrors

def dumpFile (read : FileReader) (path : String) : Command Unit := do
  let source ← readText read path
  let result ← scanSource source
  write ("Tokens for '" ++ path ++ "' (" ++ result.tokens.length.repr ++ " tokens):\n")
  result.tokens.forM fun t => write ("  " ++ t.dump ++ "\n")
  flush
  report result.errors
  failOnErrors

def printSample : Command Unit :=
  write (Expr.sample.print ++ "\n")

-- The prompt lists the tokens of each line by itself. Errors in a line are forgotten after it.

def ask : Command Unit := do
  write "> "
  flush

def answer (line : ByteArray) : Command Unit := do
  match decode line with
  | .error e => throw (.stream e.message)
  | .ok source =>
    let _ ← list source
    forgetErrors

def farewell : Command Unit := do
  write "\nGoodbye!\n"
  flush

def prompt : List ByteArray → Command Unit
  | []            => do ask; farewell
  | line :: lines => do ask; answer line; prompt lines

def splitLines (input : List UInt8) : List (List UInt8) :=
  match input with
  | []     => []
  | b :: r =>
    if b = Source.newline then
      [b] :: splitLines r
    else match splitLines r with
      | []            => [[b]]
      | line :: lines => (b :: line) :: lines

def lines (input : ByteArray) : List ByteArray :=
  (splitLines input.data.toList).map List.toByteArray

end LoxLex.Command
