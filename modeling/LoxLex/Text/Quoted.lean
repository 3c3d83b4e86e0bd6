import LoxLex.Text.Unprintable

namespace LoxLex.Quoted

def codePointEscape (c : Char) : List Char :=
  ['\\', 'u', '\x7b'] ++ Nat.toDigits 16 c.toNat ++ ['\x7d']

-- The quote that does not stand around the text needs no escape.
def escape (quote c : Char) : List Char :=
  if c = '\x00' then ['\\', '0']
  else if c = '\t' then ['\\', 't']
  else if c = '\n' then ['\\', 'n']
  else if c = '\r' then ['\\', 'r']
  else if c = '\\' ∨ c = quote then ['\\', c]
  else if isUnprintable c then codePointEscape c
  else [c]

def encode (quote : Char) (text : List Char) : List Char :=
  quote :: text.flatMap (escape quote) ++ [quote]

def text (s : String) : String :=
  .ofList (encode '"' s.toList)

def character (c : Char) : String :=
  .ofList (encode '\x27' [c])

end LoxLex.Quoted
