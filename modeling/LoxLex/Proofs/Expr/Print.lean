import LoxLex.Expr
import LoxLex.Proofs.Text.Run

namespace LoxLex

def isDelimiter (c : Char) : Bool :=
  c == ' ' || c == '(' || c == ')'

def Delimited (rest : List Char) : Prop :=
  ∀ c ∈ rest.head?, isDelimiter c

structure IsAtom (text : String) : Prop where
  ne_empty  : text ≠ ""
  undivided : ∀ c ∈ text.toList, ¬isDelimiter c

-- A name of an operator. Groupings have a name of their own.
structure IsName (text : String) : Prop extends IsAtom text where
  ne_group : text ≠ "group"

variable {a b : String} {x y : List Char}

theorem delimited_nil : Delimited [] := by
  simp [Delimited]

theorem delimited_cons {c : Char} (h : isDelimiter c) : Delimited (c :: x) := by
  simpa [Delimited]

namespace IsAtom

theorem of_all (hn : a ≠ "") (h : a.toList.all (!isDelimiter ·)) : IsAtom a where
  ne_empty  := hn
  undivided := by simpa using h

theorem group : IsAtom "group" :=
  of_all (by decide) rfl

theorem run (ha : IsAtom a) (hx : Delimited x) : Run (!isDelimiter ·) a.toList x where
  pass c hc := by simpa using ha.undivided c hc
  stop c hc := by simpa using hx c hc

theorem append_inj (ha : IsAtom a) (hb : IsAtom b) (hx : Delimited x) (hy : Delimited y)
    (h : a.toList ++ x = b.toList ++ y) : a = b ∧ x = y :=
  ((ha.run hx).unique (hb.run hy) h).imp_left String.toList_inj.mp

theorem append_ne_cons (ha : IsAtom a) : a.toList ++ x ≠ '(' :: y := by
  intro h
  cases hl : a.toList
  case nil => exact ha.ne_empty (String.toList_eq_nil_iff.mp hl)
  case cons c cs =>
    rw [hl] at h
    cases h
    exact ha.undivided '(' (by simp [hl]) rfl

end IsAtom

namespace Expr

-- An expression whose operators and literals are printed as single words.
inductive Readable : Expr → Prop
  | binary   : Readable left → IsName op.lexeme → Readable right → Readable (binary left op right)
  | grouping : Readable content → Readable (grouping content)
  | literal  : IsAtom value.text → Readable (literal value)
  | unary    : IsName op.lexeme → Readable right → Readable (unary op right)

-- Expressions that differ at most in what is not printed of their operators and literals.
inductive Alike : Expr → Expr → Prop
  | binary   : Alike left left' → op.lexeme = op'.lexeme → Alike right right' →
               Alike (binary left op right) (binary left' op' right')
  | grouping : Alike content content' → Alike (grouping content) (grouping content')
  | literal  : value.text = value'.text → Alike (literal value) (literal value')
  | unary    : op.lexeme = op'.lexeme → Alike right right' →
               Alike (unary op right) (unary op' right')

variable {e f left right inner : Expr} {op : Token} {value : Value}

theorem Alike.print_eq (h : Alike e f) : e.print = f.print := by
  induction h
  case binary ho _ hl hr => rw [print, hl, ho, hr, print]
  case grouping hi       => rw [print, hi, print]
  case literal ht        => rw [print, ht, print]
  case unary ho _ hr     => rw [print, ho, hr, print]

def compound (name : String) (operands : List Char) : List Char :=
  '(' :: (name.toList ++ ' ' :: operands)

theorem compound_inj (ha : IsAtom a) (hb : IsAtom b) (h : compound a x = compound b y) :
    a = b ∧ x = y := by
  have hx : Delimited (' ' :: x) := delimited_cons rfl
  have hy : Delimited (' ' :: y) := delimited_cons rfl
  exact (ha.append_inj hb hx hy (List.cons.inj h).right).imp_right fun h => (List.cons.inj h).right

theorem print_binary :
    (binary left op right).print.toList ++ x =
      compound op.lexeme (left.print.toList ++ ' ' :: (right.print.toList ++ ')' :: x)) := by
  simp [print, compound]

theorem print_grouping :
    (grouping inner).print.toList ++ x = compound "group" (inner.print.toList ++ ')' :: x) := by
  simp [print, compound]

theorem print_unary :
    (unary op right).print.toList ++ x = compound op.lexeme (right.print.toList ++ ')' :: x) := by
  simp [print, compound]

-- An expression that can be told from what follows its printed form, and from all others.
def Determined (e : Expr) : Prop :=
  ∀ ⦃f x y⦄, Readable f → Delimited x → Delimited y → e.print.toList ++ x = f.print.toList ++ y →
    Alike e f ∧ x = y

namespace Determined

-- What an operand is tells where it ends.
theorem operand {c d : Char} (he : Determined e) (hf : Readable f) (hc : isDelimiter c)
    (hd : isDelimiter d) (h : e.print.toList ++ c :: x = f.print.toList ++ d :: y) :
    Alike e f ∧ c = d ∧ x = y := by
  have ⟨ha, hr⟩ := he hf (delimited_cons hc) (delimited_cons hd) h
  exact ⟨ha, List.cons.inj hr⟩

theorem literal (ha : IsAtom value.text) : Determined (literal value) := by
  intro f x y hf hx hy h
  cases hf
  case literal hb =>
    have ⟨ht, hr⟩ := ha.append_inj hb hx hy h
    exact ⟨.literal ht, hr⟩
  case binary   => exact absurd (h.trans print_binary) ha.append_ne_cons
  case grouping => exact absurd (h.trans print_grouping) ha.append_ne_cons
  case unary    => exact absurd (h.trans print_unary) ha.append_ne_cons

theorem binary (hl : Determined left) (ho : IsName op.lexeme) (hr : Determined right) :
    Determined (binary left op right) := by
  intro f x y hf _ _ h
  rw [print_binary] at h
  cases hf
  case literal hb => exact absurd h.symm hb.append_ne_cons
  case binary hl' ho' hr' =>
    rw [print_binary] at h
    have ⟨hn, h⟩ := compound_inj ho.toIsAtom ho'.toIsAtom h
    have ⟨hl, _, h⟩ := hl.operand hl' rfl rfl h
    have ⟨hr, _, h⟩ := hr.operand hr' rfl rfl h
    exact ⟨.binary hl hn hr, h⟩
  case grouping =>
    rw [print_grouping] at h
    exact absurd (compound_inj ho.toIsAtom .group h).left ho.ne_group
  case unary ho' hr' =>
    rw [print_unary] at h
    have ⟨_, h⟩ := compound_inj ho.toIsAtom ho'.toIsAtom h
    have ⟨_, hc, _⟩ := hl.operand hr' rfl rfl h
    contradiction

theorem grouping (hi : Determined inner) : Determined (grouping inner) := by
  intro f x y hf _ _ h
  rw [print_grouping] at h
  cases hf
  case literal hb => exact absurd h.symm hb.append_ne_cons
  case binary ho _ =>
    rw [print_binary] at h
    exact absurd (compound_inj .group ho.toIsAtom h).left.symm ho.ne_group
  case grouping hi' =>
    rw [print_grouping] at h
    have ⟨_, h⟩ := compound_inj .group .group h
    have ⟨hi, _, h⟩ := hi.operand hi' rfl rfl h
    exact ⟨.grouping hi, h⟩
  case unary ho _ =>
    rw [print_unary] at h
    exact absurd (compound_inj .group ho.toIsAtom h).left.symm ho.ne_group

theorem unary (ho : IsName op.lexeme) (hr : Determined right) : Determined (unary op right) := by
  intro f x y hf _ _ h
  rw [print_unary] at h
  cases hf
  case literal hb => exact absurd h.symm hb.append_ne_cons
  case binary hl' ho' _ =>
    rw [print_binary] at h
    have ⟨_, h⟩ := compound_inj ho.toIsAtom ho'.toIsAtom h
    have ⟨_, hc, _⟩ := hr.operand hl' rfl rfl h
    contradiction
  case grouping =>
    rw [print_grouping] at h
    exact absurd (compound_inj ho.toIsAtom .group h).left ho.ne_group
  case unary ho' hr' =>
    rw [print_unary] at h
    have ⟨hn, h⟩ := compound_inj ho.toIsAtom ho'.toIsAtom h
    have ⟨hr, _, h⟩ := hr.operand hr' rfl rfl h
    exact ⟨.unary hn hr, h⟩

end Determined

theorem Readable.determined (h : Readable e) : Determined e := by
  induction h
  case binary ho _ hl hr => exact hl.binary ho hr
  case grouping hi       => exact hi.grouping
  case literal ha        => exact .literal ha
  case unary ho _ hr     => exact hr.unary ho

-- The printed form is the same exactly if all that is printed of the parts is the same.
theorem print_eq_iff (he : Readable e) (hf : Readable f) : e.print = f.print ↔ Alike e f := by
  refine ⟨fun h => ?_, Alike.print_eq⟩
  have h : e.print.toList ++ [] = f.print.toList ++ [] := by rw [h]
  exact (he.determined hf delimited_nil delimited_nil h).left

-- A value and an operator that pass for others.
theorem print_eq_iff_disguised :
    let e := binary (literal .nil) (.unplaced (.operator .minus) "-") (grouping (literal .nil))
    let f := binary (literal .nil) ⟨.identifier, "-", none, 3⟩ (grouping (literal (.string "nil")))
    Readable e ∧ Readable f ∧ (e.print = f.print ↔ Alike e f) := by
  intro e f
  have hn : IsAtom "nil" := .of_all (by decide) rfl
  have hm : IsName "-" := ⟨.of_all (by decide) rfl, by decide⟩
  have he : Readable e := .binary (.literal hn) hm (.grouping (.literal hn))
  have hf : Readable f := .binary (.literal hn) hm (.grouping (.literal hn))
  exact ⟨he, hf, print_eq_iff he hf⟩

end Expr
end LoxLex
