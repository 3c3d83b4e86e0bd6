import LoxLex.Proofs.Decimal.Positional
import LoxLex.Proofs.Expr.Print
import LoxLex.Proofs.Scan.Spelling

namespace LoxLex

namespace Operator

def ofLexeme? (lexeme : String) : Option Operator :=
  all.find? (·.lexeme == lexeme)

theorem ofLexeme?_lexeme (op : Operator) : ofLexeme? op.lexeme = some op := by
  cases op <;> rfl

theorem isLongest_leftParen {rest : List Char} : leftParen.IsLongest ('(' :: rest) := by
  refine ⟨List.prefix_append ['('] rest, fun op ⟨ahead, h⟩ => ?_⟩
  cases op <;> cases h
  case leftParen => exact Nat.le_refl _

end Operator

namespace Value

def IsLexical : Value → Prop
  | number x => x.isFinite ∧ ¬x.isNegative
  | string _ => False
  | bool _   => True
  | nil      => True

def content : Value → Kind × String × Option Literal
  | number x   => (.number, (number x).text,
                    (Numeral.parse? (number x).text.toList).map (.number ·.toBinary64))
  | string s   => (.string, s, none)
  | bool true  => (.keyword .kwTrue, "true", none)
  | bool false => (.keyword .kwFalse, "false", none)
  | nil        => (.keyword .kwNil, "nil", none)

theorem IsLexical.exists_spelling {v : Value} (h : v.IsLexical) :
    ∃ t : Spelling, t.content = v.content ∧ t.text = v.text.toList := by
  cases v
  case number x =>
    let n := (Binary64.shortest x.code).numeral
    have hv : n.Valid := Decimal.numeral_valid _
    have ht : (number x).text = .ofList n.text := NumberStyle.text_listing h.left h.right
    refine ⟨.number n hv, ?_, ?_⟩
    case refine_1 =>
      rw [content, ht, String.toList_ofList, Numeral.parse?_text hv]
      rfl
    case refine_2 => rw [ht, String.toList_ofList]; rfl
  case string => exact h.elim
  case bool b =>
    cases b
    case false => exact ⟨.keyword .kwFalse, rfl, rfl⟩
    case true  => exact ⟨.keyword .kwTrue, rfl, rfl⟩
  case nil => exact ⟨.keyword .kwNil, rfl, rfl⟩

end Value

namespace Expr

-- An expression whose operators are those of the language, and whose literals stand for themselves
-- in a source.
inductive IsLexical : Expr → Prop
  | binary (mark : Operator) : op.lexeme = mark.lexeme → IsLexical left → IsLexical right →
                               IsLexical (binary left op right)
  | grouping                 : IsLexical content → IsLexical (grouping content)
  | literal                  : value.IsLexical → IsLexical (literal value)
  | unary (mark : Operator)  : op.lexeme = mark.lexeme → IsLexical right →
                               IsLexical (unary op right)

def markKind (lexeme : String) : Kind :=
  (Operator.ofLexeme? lexeme).elim .identifier .operator

def enclosed (kind : Kind) (name : String) (operands : List (Kind × String × Option Literal)) :
    List (Kind × String × Option Literal) :=
  (.operator .leftParen, "(", none) :: (kind, name, none) :: operands ++
    [(.operator .rightParen, ")", none)]

def flatten : Expr → List (Kind × String × Option Literal)
  | binary left op right =>
    enclosed (markKind op.lexeme) op.lexeme (left.flatten ++ right.flatten)
  | grouping inner       => enclosed .identifier "group" inner.flatten
  | literal value        => [value.content]
  | unary op right       => enclosed (markKind op.lexeme) op.lexeme right.flatten

variable {left right inner : Expr} {op : Token} {value : Value} {mark : Operator}
variable {x rest : List Char} {t : Spelling} {ts us : List Spelling}
variable {kind : Kind} {name : String}

theorem isApart_of_delimited (h : Delimited rest) : ∀ c ∈ rest.head?, Spelling.isApart c := by
  intro c hc
  have h := h c hc
  simp only [isDelimiter, Bool.or_eq_true, beq_iff_eq, or_assoc] at h
  rcases h with rfl | rfl | rfl <;> decide

structure Names (t : Spelling) (kind : Kind) (name : String) : Prop where
  content : t.content = (kind, name, none)
  text    : t.text = name.toList

theorem names_mark (h : name = mark.lexeme) : Names (.operator mark) (markKind name) name where
  content := by
    rw [h, markKind, Operator.ofLexeme?_lexeme]
    exact congrArg (_, ·, none) String.ofList_toList
  text := h ▸ rfl

theorem exists_names_group : ∃ t, Names t .identifier "group" := by
  have hw : Piece.IsWord "group".toList := ⟨by decide, List.all_eq_true.mp rfl⟩
  have hf : ∀ kw : Keyword, kw.text ≠ .ofList "group".toList := by
    intro kw
    cases kw <;> decide
  exact ⟨.identifier _ hw hf, rfl, rfl⟩

-- Whatever follows the printed form, tokens are found in it first.
structure Spelled (e : Expr) (ts : List Spelling) : Prop where
  content : ts.map Spelling.content = e.flatten
  spells  : ∀ ⦃rest us⦄, Delimited rest → Spelling.Spells rest us →
              Spelling.Spells (e.print.toList ++ rest) (ts ++ us)

def spelling (t : Spelling) (ts : List Spelling) : List Spelling :=
  .operator .leftParen :: t :: ts ++ [.operator .rightParen]

theorem Names.content_spelling (ht : Names t kind name) :
    (spelling t ts).map Spelling.content = enclosed kind name (ts.map Spelling.content) := by
  have hl : (Spelling.operator .leftParen).content = (.operator .leftParen, "(", none) := rfl
  have hr : (Spelling.operator .rightParen).content = (.operator .rightParen, ")", none) := rfl
  simp [spelling, enclosed, hl, ht.content, hr]

theorem spells_compound (ht : Names t kind name) (h : Spelling.Spells x us) :
    Spelling.Spells (compound name x) (.operator .leftParen :: t :: us) := by
  have hn : Spelling.Spells (t.text ++ ' ' :: x) (t :: us) :=
    (h.space rfl).token t (isApart_of_delimited (delimited_cons rfl))
  have hf : (Piece.operator .leftParen).Fits (name.toList ++ ' ' :: x) :=
    ⟨Operator.isLongest_leftParen, by simp⟩
  rw [ht.text] at hn
  exact hn.cons (.operator .leftParen) hf fun _ => rfl

theorem spells_close (hr : Delimited rest) (h : Spelling.Spells rest us) :
    Spelling.Spells (')' :: rest) (.operator .rightParen :: us) :=
  h.token (.operator .rightParen) (isApart_of_delimited hr)

namespace Spelled

theorem literal (h : value.IsLexical) : ∃ ts, Spelled (literal value) ts := by
  have ⟨t, hc, ht⟩ := h.exists_spelling
  refine ⟨[t], ⟨by rw [List.map_singleton, hc]; rfl, fun rest us hd hs => ?_⟩⟩
  have hs := hs.token t (isApart_of_delimited hd)
  rwa [ht] at hs

theorem unary (ht : Names t (markKind op.lexeme) op.lexeme) (hr : Spelled right ts) :
    Spelled (unary op right) (spelling t ts) where
  content := by rw [ht.content_spelling, hr.content]; rfl
  spells rest vs hd hs := by
    have hs := hr.spells (delimited_cons rfl) (spells_close hd hs)
    have hs := spells_compound ht hs
    simpa [print_unary, spelling] using hs

theorem grouping (ht : Names t .identifier "group") (hi : Spelled inner ts) :
    Spelled (grouping inner) (spelling t ts) where
  content := by rw [ht.content_spelling, hi.content]; rfl
  spells rest vs hd hs := by
    have hs := hi.spells (delimited_cons rfl) (spells_close hd hs)
    have hs := spells_compound ht hs
    simpa [print_grouping, spelling] using hs

theorem binary (ht : Names t (markKind op.lexeme) op.lexeme) (hl : Spelled left ts)
    (hr : Spelled right us) :
    Spelled (binary left op right) (spelling t (ts ++ us)) where
  content := by
    rw [ht.content_spelling, List.map_append, hl.content, hr.content]
    rfl
  spells rest vs hd hs := by
    have hs := hr.spells (delimited_cons rfl) (spells_close hd hs)
    have hs := hl.spells (delimited_cons rfl) (hs.space (c := ' ') rfl)
    have hs := spells_compound ht hs
    simpa [print_binary, spelling] using hs

end Spelled

theorem IsLexical.exists_spelled {e : Expr} (h : e.IsLexical) : ∃ ts, Spelled e ts := by
  induction h
  case binary hm _ _ hl hr =>
    have ⟨ts, hl⟩ := hl
    have ⟨us, hr⟩ := hr
    exact ⟨_, .binary (names_mark hm) hl hr⟩
  case grouping hi =>
    have ⟨t, ht⟩ := exists_names_group
    have ⟨ts, hi⟩ := hi
    exact ⟨_, .grouping ht hi⟩
  case literal hv => exact Spelled.literal hv
  case unary hm _ hr =>
    have ⟨ts, hr⟩ := hr
    exact ⟨_, .unary (names_mark hm) hr⟩

-- A printed expression is scanned as its operators and literals between parentheses.
theorem scan_print (e : Expr) (he : e.IsLexical) (h : e.print.utf8ByteSize < Source.maxLength) :
    (scan e.print).errors = [] ∧
      (scan e.print).tokens.map Token.content = e.flatten ++ [(.eof, "", none)] := by
  have ⟨ts, ht⟩ := he.exists_spelled
  have hs := ht.spells delimited_nil .nil
  rw [List.append_nil, List.append_nil] at hs
  rw [scan_part_eq .whole h, ← ht.content]
  exact ⟨hs.errors 1, hs.tokens 1⟩

-- A parenthesis before an equals sign, and a number that has a fraction.
theorem scan_print_mixed :
    let number : Value := .number ⟨0x3ff8000000000000⟩
    let e := binary (unary (.unplaced .identifier "=") (literal (.bool true)))
      (.unplaced (.operator .slash) "/") (grouping (literal number))
    e.IsLexical ∧ e.print.utf8ByteSize < Source.maxLength ∧ (scan e.print).errors = [] ∧
      (scan e.print).tokens.map Token.content = e.flatten ++ [(.eof, "", none)] := by
  intro number e
  have hn : number.IsLexical := ⟨by decide, by decide⟩
  have he : e.IsLexical :=
    .binary .slash rfl (.unary .equal rfl (.literal trivial)) (.grouping (.literal hn))
  have hs : e.print.utf8ByteSize < Source.maxLength := by decide +kernel
  exact ⟨he, hs, scan_print e he hs⟩

end Expr
end LoxLex
