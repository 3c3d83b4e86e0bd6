import LoxLex.Token.Operator

namespace LoxLex

-- What the first byte of a construct announces. There is one way to go on from each byte.
inductive Lead
  | blank
  | newline
  | quote
  | digit
  | letter
  -- A slash, which two of make a comment.
  | slash
  -- A mark that is an operator whatever follows.
  | mark (op : Operator)
  -- A mark that is one operator by itself and another with an equals sign behind it.
  | comparison (alone withEqual : Operator)
  | other
  deriving DecidableEq

namespace Lead

-- The bytes below 128 stand for themselves as characters. No construct but an unexpected character
-- starts with another byte.

def isDigit (b : UInt8) : Bool :=
  (Char.ofUInt8 b).isDigit

def isWordStart (b : UInt8) : Bool :=
  (Char.ofUInt8 b).isAlpha || Char.ofUInt8 b == '_'

def isWordPart (b : UInt8) : Bool :=
  (Char.ofUInt8 b).isAlphanum || Char.ofUInt8 b == '_'

def ofByte (b : UInt8) : Lead :=
  match Char.ofUInt8 b with
  | '('    => mark .leftParen
  | ')'    => mark .rightParen
  | '\x7b' => mark .leftBrace
  | '\x7d' => mark .rightBrace
  | ','    => mark .comma
  | '.'    => mark .dot
  | '-'    => mark .minus
  | '+'    => mark .plus
  | ';'    => mark .semicolon
  | '*'    => mark .star
  | '!'    => comparison .bang .bangEqual
  | '='    => comparison .equal .equalEqual
  | '<'    => comparison .less .lessEqual
  | '>'    => comparison .greater .greaterEqual
  | '/'    => slash
  | ' '    => blank
  | '\t'   => blank
  | '\r'   => blank
  | '\n'   => newline
  | '"'    => quote
  | _      => if isDigit b then digit else if isWordStart b then letter else other

end Lead
end LoxLex
