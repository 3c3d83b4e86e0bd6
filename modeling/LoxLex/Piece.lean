import LoxLex.Scan

namespace LoxLex

-- The lexical grammar over characters, with no regard to bytes, offsets or padding.
inductive Piece
  | blank (c : Char)
  | newline
  -- The text behind the two slashes. The newline that ends it is a piece of its own.
  | comment (body : List Char)
  | operator (op : Operator)
  | string (value : List Char)
  -- A string without a closing quote, which reaches to the end.
  | unterminated (value : List Char)
  | number (n : Numeral)
  | word (text : List Char)
  | unexpected (c : Char)
  deriving DecidableEq

namespace Piece

def text : Piece → List Char
  | blank c            => [c]
  | newline            => ['\n']
  | comment body       => '/' :: '/' :: body
  | operator op        => op.lexeme.toList
  | string value       => '"' :: value ++ ['"']
  | unterminated value => '"' :: value
  | number n           => n.text
  | word text          => text
  | unexpected c       => [c]

def isBlank (c : Char) : Bool :=
  c == ' ' || c == '\t' || c == '\r'

def isWordStart (c : Char) : Bool :=
  c.isAlpha || c == '_'

def isWordPart (c : Char) : Bool :=
  c.isAlphanum || c == '_'

def quoted (cs : List Char) : Piece × List Char :=
  match cs.dropWhile (· != '"') with
  | []        => (unterminated (cs.takeWhile (· != '"')), [])
  | _ :: rest => (string (cs.takeWhile (· != '"')), rest)

-- A point without a digit behind it is not a part of the number that starts with `d`.
def numeral (d : Char) (cs : List Char) : Piece × List Char :=
  let whole := d :: cs.takeWhile Char.isDigit
  match cs.dropWhile Char.isDigit with
  | '.' :: r =>
    if (r.takeWhile Char.isDigit).isEmpty then (number ⟨whole, []⟩, '.' :: r)
    else (number ⟨whole, r.takeWhile Char.isDigit⟩, r.dropWhile Char.isDigit)
  | rest => (number ⟨whole, []⟩, rest)

def marked (c : Char) (cs : List Char) : Piece × List Char :=
  match Operator.longest? (c :: cs) with
  | some op => (operator op, (c :: cs).drop op.lexeme.toList.length)
  | none    => (unexpected c, cs)

def first (c : Char) (cs : List Char) : Piece × List Char :=
  if c = '\n' then
    (newline, cs)
  else if isBlank c then
    (blank c, cs)
  else if c = '"' then
    quoted cs
  else if c.isDigit then
    numeral c cs
  else if isWordStart c then
    (word (c :: cs.takeWhile isWordPart), cs.dropWhile isWordPart)
  else if c = '/' ∧ cs.head? = some '/' then
    (comment (cs.tail.takeWhile (· != '\n')), cs.tail.dropWhile (· != '\n'))
  else
    marked c cs

section First

variable (c : Char) (cs : List Char)

theorem text_quoted : (quoted cs).1.text ++ (quoted cs).2 = '"' :: cs := by
  have h := cs.takeWhile_append_dropWhile (p := (· != '"'))
  unfold quoted
  split
  case h_1 hd =>
    rw [hd] at h
    simpa [text] using h
  case h_2 q rest hd =>
    have hq := List.head?_dropWhile_not (· != '"') cs
    rw [hd] at h hq
    simp_all [text]

theorem text_numeral : (numeral c cs).1.text ++ (numeral c cs).2 = c :: cs := by
  have h := cs.takeWhile_append_dropWhile (p := Char.isDigit)
  unfold numeral
  split
  case h_1 r hd =>
    rw [hd] at h
    split
    case isTrue  => simpa [text, Numeral.text] using h
    case isFalse hf =>
      simp only [text, Numeral.text, if_neg hf, List.append_assoc, List.cons_append,
        List.takeWhile_append_dropWhile, h]
  case h_2 => simp [text, Numeral.text, h]

theorem text_marked : (marked c cs).1.text ++ (marked c cs).2 = c :: cs := by
  unfold marked
  split
  case h_1 op ho =>
    have ⟨r, hr⟩ := Operator.lexeme_of_longest? ho
    rw [← hr]
    simp [text]
  case h_2 => rfl

-- No character is lost or taken twice.
theorem text_first : (first c cs).1.text ++ (first c cs).2 = c :: cs := by
  unfold first
  split
  case isTrue h => rw [h]; rfl
  split
  case isTrue => rfl
  split
  case isTrue h => rw [h]; exact text_quoted cs
  split
  case isTrue => exact text_numeral c cs
  split
  case isTrue => simp [text]
  split
  case isTrue h =>
    cases cs
    case nil => simp at h
    case cons => simp_all [text]
  case isFalse => exact text_marked c cs

theorem text_first_ne_nil : (first c cs).1.text ≠ [] := by
  simp only [first, quoted, numeral, marked]
  repeat' split
  all_goals simp [text, Numeral.text_ne_nil, Operator.lexeme_ne_empty]

theorem length_first : (first c cs).2.length < (c :: cs).length := by
  have h := congrArg List.length (text_first c cs)
  have := List.length_pos_iff.mpr (text_first_ne_nil c cs)
  simp only [List.length_append] at h
  omega

end First

def split : List Char → List Piece
  | []      => []
  | c :: cs =>
    have := length_first c cs
    (first c cs).1 :: split (first c cs).2
termination_by cs => cs.length
decreasing_by exact this

theorem text_split (cs : List Char) : (split cs).flatMap text = cs := by
  fun_induction split cs with
  | case1          => rfl
  | case2 _ _ _ ih => rw [List.flatMap_cons, ih, text_first]

variable (p : Piece)

def newlines : Nat :=
  p.text.count '\n'

-- A word is a keyword if it is the text of one, and an identifier otherwise.
def wordKind (text : List Char) : Kind :=
  (Keyword.all.find? (·.text.toList == text)).elim .identifier .keyword

def token? (line : Nat) : Piece → Option Token
  | operator op  => some ⟨.operator op, op.lexeme, none, line⟩
  | string value =>
    some ⟨.string, .ofList ('"' :: value ++ ['"']), some (.string (.ofList value)), line⟩
  | number n     => some ⟨.number, .ofList n.text, some (.number n.toBinary64), line⟩
  | word text    => some ⟨wordKind text, .ofList text, none, line⟩
  | _            => none

-- What is wrong with a piece on a given line, before a given character.
def error? (line : Nat) (next? : Option Char) : Piece → Option Scan.Error
  | unexpected c   => some (.unexpected line c)
  | unterminated _ => some (.unterminated line)
  | number n       =>
    if n.fraction = [] ∧ next? = some '.' then some (.malformed line) else none
  | _              => none

def tokens : Nat → List Piece → List Token
  | line, []      => [.eof line]
  | line, p :: ps => (p.token? line).toList ++ tokens (line + p.newlines) ps

def errors : Nat → List Piece → List Scan.Error
  | _,    []      => []
  | line, p :: ps =>
    (p.error? line (ps.head?.bind (·.text.head?))).toList ++ errors (line + p.newlines) ps

end Piece

-- What a scan should find in a source, by its pieces.
def Scan.ofPieces (ps : List Piece) : Scan where
  tokens := Piece.tokens 1 ps
  errors := Piece.errors 1 ps

end LoxLex
