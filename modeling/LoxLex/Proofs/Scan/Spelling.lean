import LoxLex.Proofs.Scan.Pieces
import LoxLex.Proofs.Token.Kind

namespace LoxLex

-- A token is known by all but the line it is on.
def Token.content (t : Token) : Kind × String × Option Literal :=
  (t.kind, t.lexeme, t.literal)

inductive Spelling
  | operator (op : Operator)
  | keyword (kw : Keyword)
  | identifier (word : List Char) (isWord : Piece.IsWord word)
      (free : ∀ kw : Keyword, kw.text ≠ .ofList word)
  | string (value : List Char) (unquoted : '"' ∉ value)
  | number (n : Numeral) (valid : n.Valid)

namespace Spelling

def piece : Spelling → Piece
  | operator op         => .operator op
  | keyword kw          => .word kw.text.toList
  | identifier word _ _ => .word word
  | string value _      => .string value
  | number n _          => .number n

def text (t : Spelling) : List Char :=
  t.piece.text

def kind : Spelling → Kind
  | operator op       => .operator op
  | keyword kw        => .keyword kw
  | identifier _ _ _  => .identifier
  | string _ _        => .string
  | number _ _        => .number

def literal : Spelling → Option Literal
  | string value _ => some (.string (.ofList value))
  | number n _     => some (.number n.toBinary64)
  | _              => none

def content (t : Spelling) : Kind × String × Option Literal :=
  (t.kind, .ofList t.text, t.literal)

end Spelling

def isSpace (c : Char) : Bool :=
  Piece.isBlank c || c == '\n'

-- Spaces and comments, each comment with its newline.
inductive Gap : List Char → Prop
  | nil     : Gap []
  | space   : isSpace c → Gap cs → Gap (c :: cs)
  | comment : '\n' ∉ body → Gap cs → Gap ('/' :: '/' :: body ++ '\n' :: cs)

structure Separator where
  first   : Char
  others  : List Char
  isSpace : isSpace first
  isGap   : Gap others

namespace Separator

def text (s : Separator) : List Char :=
  s.first :: s.others

def blank : Separator where
  first   := ' '
  others  := []
  isSpace := rfl
  isGap   := .nil

end Separator

namespace Spelling

-- Tokens with separators between them. The separators are counted from the last on.
def written (sep : Nat → Separator) : List Spelling → List Char
  | []           => []
  | [t]          => t.text
  | t :: u :: ts => t.text ++ (sep ts.length).text ++ written sep (u :: ts)

def source (lead? trail? : Option Separator) (sep : Nat → Separator) (ts : List Spelling) :
    String :=
  .ofList (lead?.elim [] (·.text) ++ (written sep ts ++ trail?.elim [] (·.text)))

variable {t : Spelling} {ts : List Spelling} {c : Char} {cs body rest : List Char}
variable {p : Piece}

-- A character that no token goes on with, and that no error is told by.
def isApart (c : Char) : Bool :=
  !Piece.isWordPart c && c != '=' && c != '/' && c != '.'

theorem isApart_of_isSpace (h : isSpace c) : isApart c := by
  simp only [isSpace, Bool.or_eq_true, beq_iff_eq] at h
  rcases h with h | rfl
  case inl => rcases Piece.eq_of_isBlank h with rfl | rfl | rfl <;> decide
  case inr => decide

theorem fits (t : Spelling) (h : ∀ c ∈ rest.head?, isApart c) : t.piece.Fits rest := by
  have hw : ∀ c ∈ rest.head?, ¬Piece.isWordPart c := by
    intro c hc hp
    simpa [isApart, hp] using h c hc
  cases t
  case operator op =>
    have he : rest.head? ≠ some '=' := fun he => absurd (h _ he) (by decide)
    have hs : rest.head? ≠ some '/' := fun hs => absurd (h _ hs) (by decide)
    exact ⟨Operator.isLongest_append he, fun _ => hs⟩
  case keyword kw          => exact ⟨kw.isWord_text, hw⟩
  case identifier isWord _ => exact ⟨isWord, hw⟩
  case string unquoted     => exact unquoted
  case number valid =>
    refine ⟨valid, fun c hc hd => hw c hc (Piece.isWordPart_of_isDigit hd), fun _ c cs hp => ?_⟩
    rw [hp] at h
    exact absurd (h '.' rfl) (by decide)

theorem content_token? (t : Spelling) (line : Nat) :
    (t.piece.token? line).map Token.content = some t.content := by
  cases t
  case operator op =>
    show some (Kind.operator op, op.lexeme, none) =
      some (Kind.operator op, String.ofList op.lexeme.toList, none)
    rw [String.ofList_toList]
  case keyword kw =>
    show some (Piece.wordKind kw.text.toList, String.ofList kw.text.toList, none) =
      some (Kind.keyword kw, String.ofList kw.text.toList, none)
    rw [Piece.wordKind_text]
  case identifier word _ free =>
    show some (Piece.wordKind word, String.ofList word, none) =
      some (Kind.identifier, String.ofList word, none)
    rw [Piece.wordKind_of_ne free]
  case string => rfl
  case number => rfl

theorem error?_eq_none (t : Spelling) (line : Nat) (h : ∀ c ∈ rest.head?, isApart c) :
    t.piece.error? line rest.head? = none := by
  cases t
  case number n _ =>
    have hp : rest.head? ≠ some '.' := fun hp => absurd (h _ hp) (by decide)
    simp [piece, Piece.error?, hp]
  all_goals rfl

structure Spells (cs : List Char) (ts : List Spelling) : Prop where
  tokens : ∀ line, (Piece.tokens line (Piece.split cs)).map Token.content =
             ts.map content ++ [(.eof, "", none)]
  errors : ∀ line, Piece.errors line (Piece.split cs) = []

namespace Spells

theorem nil : Spells [] [] where
  tokens line := by rw [Piece.split_nil]; rfl
  errors line := by rw [Piece.split_nil]; rfl

theorem skip (hf : p.Fits rest) (ht : ∀ line, p.token? line = none)
    (he : ∀ line next?, p.error? line next? = none) (h : Spells rest ts) :
    Spells (p.text ++ rest) ts where
  tokens line := by
    rw [Piece.split_append hf, Piece.tokens, ht]
    exact h.tokens _
  errors line := by
    rw [Piece.split_append hf, Piece.errors, he]
    exact h.errors _

theorem space (hs : isSpace c) (h : Spells rest ts) : Spells (c :: rest) ts := by
  simp only [isSpace, Bool.or_eq_true, beq_iff_eq] at hs
  rcases hs with hb | rfl
  case inl =>
    have hf : (Piece.blank c).Fits rest := hb
    exact h.skip hf (fun _ => rfl) fun _ _ => rfl
  case inr =>
    have hf : Piece.newline.Fits rest := trivial
    exact h.skip hf (fun _ => rfl) fun _ _ => rfl

theorem gap (hg : Gap cs) (h : Spells rest ts) : Spells (cs ++ rest) ts := by
  induction hg
  case nil           => exact h
  case space hs _ hi => exact hi.space hs
  case comment body cs hn _ hi =>
    have hf : (Piece.comment body).Fits ('\n' :: (cs ++ rest)) := ⟨hn, by simp⟩
    have hi := (hi.space (c := '\n') rfl).skip hf (fun _ => rfl) fun _ _ => rfl
    rwa [List.append_assoc, List.cons_append]

theorem separator (s : Separator) (h : Spells rest ts) : Spells (s.text ++ rest) ts :=
  (h.gap s.isGap).space s.isSpace

theorem cons (t : Spelling) (hf : t.piece.Fits rest)
    (he : ∀ line, t.piece.error? line rest.head? = none) (h : Spells rest ts) :
    Spells (t.text ++ rest) (t :: ts) where
  tokens line := by
    have ⟨token, ht, hc⟩ := Option.map_eq_some_iff.mp (t.content_token? line)
    rw [text, Piece.split_append hf, Piece.tokens, ht]
    simp [hc, h.tokens]
  errors line := by
    rw [text, Piece.split_append hf, Piece.errors, Piece.head?_split, he]
    exact h.errors _

theorem token (t : Spelling) (hs : ∀ c ∈ rest.head?, isApart c) (h : Spells rest ts) :
    Spells (t.text ++ rest) (t :: ts) :=
  h.cons t (t.fits hs) fun line => t.error?_eq_none line hs

theorem written (sep : Nat → Separator) (hs : ∀ c ∈ rest.head?, isApart c) (h : Spells rest []) :
    Spells (written sep ts ++ rest) ts := by
  fun_induction Spelling.written sep ts
  case case1 => exact h
  case case2 t => exact h.token t hs
  case case3 t u ts hi =>
    have hs := isApart_of_isSpace (sep ts.length).isSpace
    have hi := (hi.separator (sep ts.length)).token t (by simp [Separator.text, hs])
    rwa [List.append_assoc, List.append_assoc]

theorem source (lead? trail? : Option Separator) (sep : Nat → Separator) (ts : List Spelling) :
    Spells (source lead? trail? sep ts).toList ts := by
  rw [Spelling.source, String.toList_ofList]
  have ht : Spells (trail?.elim [] (·.text)) [] := by
    cases trail?
    case none   => exact nil
    case some s => simpa using nil.separator s
  have hs : ∀ c ∈ (trail?.elim [] (·.text)).head?, isApart c := by
    cases trail?
    case none   => simp
    case some s => simp [Separator.text, isApart_of_isSpace s.isSpace]
  cases lead?
  case none   => exact ht.written sep hs
  case some s => exact (ht.written sep hs).separator s

end Spells
end Spelling

-- To write out tokens and to scan them gives back the same tokens.
theorem scan_source (ts : List Spelling) (sep : Nat → Separator) (lead? trail? : Option Separator)
    (h : (Spelling.source lead? trail? sep ts).utf8ByteSize < Source.maxLength) :
    (scan (Spelling.source lead? trail? sep ts)).errors = [] ∧
      (scan (Spelling.source lead? trail? sep ts)).tokens.map Token.content =
        ts.map Spelling.content ++ [(.eof, "", none)] := by
  have hs := Spelling.Spells.source lead? trail? sep ts
  rw [scan_part_eq .whole h]
  exact ⟨hs.errors 1, hs.tokens 1⟩

-- A number before a dot, and a string over two lines.
theorem scan_source_blank :
    let ts : List Spelling := [
      .number ⟨['1'], []⟩ ⟨by decide, List.all_eq_true.mp rfl, List.all_eq_true.mp rfl⟩,
      .operator .dot, .string ['é', '\n'] (by decide)
    ]
    (Spelling.source none none (fun _ => .blank) ts).utf8ByteSize < Source.maxLength ∧
      (scan (Spelling.source none none (fun _ => .blank) ts)).errors = [] ∧
        (scan (Spelling.source none none (fun _ => .blank) ts)).tokens.map Token.content =
          ts.map Spelling.content ++ [(.eof, "", none)] := by
  intro ts
  have hs : (Spelling.source none none (fun _ => .blank) ts).utf8ByteSize < Source.maxLength := by
    decide
  exact ⟨hs, scan_source ts _ none none hs⟩

end LoxLex
