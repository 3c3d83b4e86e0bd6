import LoxLex.Diagnostic.ErrorLog
import LoxLex.Failure
import LoxLex.FileTree
import LoxLex.Scan

namespace LoxLex

structure Session where
  extent : Extent
  out    : Sink
  log    : ErrorLog

abbrev Command := EStateM Failure Session

namespace Session

def err (s : Session) : Sink :=
  s.log.sink

def hasErrors (s : Session) : Bool :=
  s.log.hasErrors

def errorCount (s : Session) : Nat :=
  s.log.count

-- A text that does not fit is written as far as it fits, and stops the command.
def write (text : String) : Command Unit := fun s =>
  if s.out.fits text then
    .ok () { s with out := s.out.write text }
  else
    .error (.stream "sink full") { s with out := s.out.write text }

def flush : Command Unit :=
  modify fun s => { s with out := s.out.flush }

def scanSource (source : String) : Command Scan :=
  return scan source (← get).extent

def report (errors : List Scan.Error) : Command Unit :=
  modify fun s => { s with log := s.log.recordAll (errors.map .ofError) }

def forgetErrors : Command Unit :=
  modify fun s => { s with log := s.log.clear }

-- All tokens are listed before any error is reported.
def list (source : String) : Command Scan := do
  let result ← scanSource source
  result.tokens.forM fun t => write (t.listing ++ "\n")
  report result.errors
  return result

def decode (bytes : ByteArray) : Except ReadError String :=
  match String.fromUTF8? bytes with
  | some text => .ok text
  | none      => .error .invalidText

def readText (read : FileReader) (path : String) : Command String :=
  match read path >>= decode with
  | .ok text => return text
  | .error e => throw (.unreadable path e.message)

def failOnErrors : Command Unit := do
  let s ← get
  if s.hasErrors then
    throw (.scan s.errorCount)

end Session
end LoxLex
