import LoxLex.Command
import LoxLex.Options

namespace LoxLex

inductive Invocation
  | prompt
  | help
  | version
  | sample
  | lex (path : String)
  | run (path : String)
  deriving DecidableEq

namespace Invocation

def ofPositionals : List String → Except UsageError Invocation
  | []            => .ok prompt
  | [argument]    =>
    if argument ∈ ["help", "--help", "-h"] then .ok help
    else if argument ∈ ["version", "--version", "-v"] then .ok version
    else if argument = "ast" then .ok sample
    else if argument = "lex" then .error .missingFile
    else .ok (run argument)
  | ["lex", path] => .ok (lex path)
  | _             => .error .tooManyArguments

end Invocation

namespace CommandLine

def usage : String :=
  "gdx scanner and driver\n\n" ++
  "Usage: gdx [options] [script]\n" ++
  "       gdx [options] <command>\n\n" ++
  "With no script, gdx starts an interactive prompt.\n\n" ++
  "Commands:\n" ++
  "  lex <file>           Tokenize a file and display its tokens\n" ++
  "  ast                  Print a sample expression tree\n" ++
  "  help                 Show this help message\n" ++
  "  version              Show version information\n\n" ++
  "Options:\n" ++
  "  --legacy-eof         Never scan the last character of the input\n" ++
  "  --color=<when>       Colour diagnostics: auto (default), always, never\n\n" ++
  "Environment:\n" ++
  "  RUST_LOG             Enable tracing output (e.g. RUST_LOG=gdx_lexer=debug)\n" ++
  "  GDX_LOG_TREE         Render tracing spans as a tree\n"

def version : String :=
  "gdx 0.1.0\n"

def session (options : Options) (onTerminal : Bool) : Session where
  extent := options.extent
  out    := .empty none
  log    := { sink := .empty none, colored := options.color.applies onTerminal }

def perform (read : FileReader) (input : ByteArray) : Invocation → Command Unit
  | .prompt   => Command.prompt (Command.lines input)
  | .help     => Session.write usage
  | .version  => Session.write version
  | .sample   => Command.printSample
  | .lex path => Command.dumpFile read path
  | .run path => Command.listFile read path

def complaint (failure : Failure) : String :=
  (if failure.needsReport then failure.message ++ "\n" else "") ++
    (if failure.isUsage then "\n" else "")

def advice (failure : Failure) : String :=
  if failure.isUsage then usage else ""

structure Outcome where
  code   : Nat
  stdout : ByteArray
  stderr : ByteArray

def Outcome.ofFailure (failure : Failure) (out err : ByteArray) : Outcome where
  code   := failure.exitCode
  stdout := out ++ (advice failure).toByteArray
  stderr := err ++ (complaint failure).toByteArray

def Outcome.ofResult : EStateM.Result Failure Session Unit → Outcome
  | .ok () s         => { code := 0, stdout := s.out.bytes, stderr := s.err.bytes }
  | .error failure s => .ofFailure failure s.out.bytes s.err.bytes

def plan (arguments : List String) : Except UsageError (Options × Invocation) := do
  let parsed ← Options.parse arguments
  return (parsed.options, ← Invocation.ofPositionals parsed.positionals)

def run (arguments : List String) (input : ByteArray) (read : FileReader) (onTerminal : Bool) :
    Outcome :=
  match plan arguments with
  | .error e => .ofFailure (.usage e.message) .empty .empty
  | .ok (options, invocation) =>
    .ofResult ((perform read input invocation).run (session options onTerminal))

end CommandLine
end LoxLex
