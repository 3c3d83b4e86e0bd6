namespace LoxLex

-- What stops a command, as distinct from what is wrong with a source.
inductive Failure
  | unreadable (path reason : String)
  | stream (reason : String)
  | usage (complaint : String)
  -- A source with errors, which have already been reported.
  | scan (errors : Nat)
  deriving DecidableEq

namespace Failure

def message : Failure → String
  | unreadable path reason => "cannot read '" ++ path ++ "': " ++ reason
  | stream reason          => "i/o error on standard streams: " ++ reason
  | usage complaint        => complaint
  | scan errors            => errors.repr ++ " scan error(s)"

-- The codes are those of sysexits: EX_IOERR, EX_USAGE and EX_DATAERR.
def exitCode : Failure → Nat
  | unreadable _ _ => 74
  | stream _       => 74
  | usage _        => 64
  | scan _         => 65

def needsReport : Failure → Bool
  | scan _ => false
  | _      => true

def isUsage : Failure → Bool
  | usage _ => true
  | _       => false

end Failure
end LoxLex
