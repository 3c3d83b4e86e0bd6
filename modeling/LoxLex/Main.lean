import LoxLex.CommandLine

namespace LoxLex.Main

-- The number of a system error may come with either sign.
def readFailure : IO.Error → ReadError
  | .noFileOrDirectory ..       => .missing
  | .inappropriateType _ code _ => if code = 21 ∨ code = -21 then .isDirectory else .notDirectory
  | e                           => .other (toString e)

def readFile (path : String) : IO (Except ReadError ByteArray) := do
  if path.contains '\x00' then
    return .error .nulByte
  try
    return .ok (← IO.FS.readBinFile path)
  catch e =>
    return .error (readFailure e)

partial def readLine (input : IO.FS.Stream) (line : ByteArray) : IO ByteArray := do
  let byte ← input.read 1
  if byte.isEmpty || byte[0]? == some Source.newline then
    return line ++ byte
  else
    readLine input (line ++ byte)

def put (out err : ByteArray) : IO Unit := do
  let stdout ← IO.getStdout
  stdout.write out
  stdout.flush
  (← IO.getStderr).write err

def emptied (s : Session) : Session :=
  { s with
    out := .empty none
    log := { s.log with sink := .empty none } }

-- A command runs on sinks in memory, and what it wrote is brought to the streams when it ends.
def perform (command : Command Unit) (s : Session) : IO (Except Failure Session) := do
  try
    match command.run s with
    | .ok () s =>
      put s.out.bytes s.err.bytes
      return .ok (emptied s)
    | .error failure s =>
      put s.out.bytes s.err.bytes
      return .error failure
  catch e =>
    return .error (.stream (toString e))

partial def converse (input : IO.FS.Stream) (s : Session) : IO (Except Failure Session) := do
  match ← perform Command.ask s with
  | .error failure => return .error failure
  | .ok s =>
    let line ← readLine input .empty
    if line.isEmpty then
      perform Command.farewell s
    else match ← perform (Command.answer line) s with
      | .error failure => return .error failure
      | .ok s          => converse input s

def invoke (invocation : Invocation) (s : Session) : IO (Except Failure Session) := do
  match invocation with
  | .prompt => converse (← IO.getStdin) s
  | .lex path | .run path =>
    let contents ← readFile path
    perform (CommandLine.perform (fun _ => contents) .empty invocation) s
  | _ => perform (CommandLine.perform (fun _ => .error .missing) .empty invocation) s

def finish (failure : Failure) : IO UInt32 := do
  put (CommandLine.advice failure).toByteArray (CommandLine.complaint failure).toByteArray
  return failure.exitCode.toUInt32

end LoxLex.Main

open LoxLex in
def main (arguments : List String) : IO UInt32 := do
  match CommandLine.plan arguments with
  | .error e => Main.finish (.usage e.message)
  | .ok (options, invocation) =>
    let onTerminal ← (← IO.getStderr).isTty
    match ← Main.invoke invocation (CommandLine.session options onTerminal) with
    | .error failure => Main.finish failure
    | .ok _          => return 0
