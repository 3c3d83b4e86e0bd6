import LoxLex.Diagnostic
import LoxLex.Sink

namespace LoxLex

structure ErrorLog where
  sink    : Sink
  colored : Bool
  -- The number of diagnostics that were recorded since the start, or since it was cleared.
  count   : Nat := 0

namespace ErrorLog

variable (log : ErrorLog)

-- Writes a diagnostic without counting it. A write that fails does not keep the next from being
-- tried.
def put (d : Diagnostic) : ErrorLog :=
  { log with sink := (d.writes log.colored).foldl Sink.writeParts log.sink }

def putAll (ds : List Diagnostic) : ErrorLog :=
  ds.foldl put log

def record (d : Diagnostic) : ErrorLog :=
  { log.put d with count := log.count + 1 }

def flush : ErrorLog :=
  { log with sink := log.sink.flush }

def recordAll (ds : List Diagnostic) : ErrorLog :=
  (ds.foldl record log).flush

-- What was written stays written.
def clear : ErrorLog :=
  { log with count := 0 }

def hasErrors : Bool :=
  0 < log.count

end ErrorLog
end LoxLex
