import LoxLex.Token.Operator

namespace LoxLex.Operator

variable {op : Operator} {text : List Char}

def IsLongest (op : Operator) (text : List Char) : Prop :=
  op.lexeme.toList <+: text ∧
    ∀ other : Operator, other.lexeme.toList <+: text →
      other.lexeme.toList.length ≤ op.lexeme.toList.length

theorem length_lexeme (op : Operator) :
    op.lexeme.toList.length = 2 ∨ op.lexeme.toList.length = 1 := by
  cases op <;> simp [lexeme]

theorem exists_of_head? {c : Char} (h : op.lexeme.toList.head? = some c) :
    ∃ single ∈ all, single.lexeme.toList = [c] := by
  cases op <;> cases h <;> decide

-- No operator has more than a mark and an equals sign.
theorem eq_equal_of_lexeme {c d : Char} {ds : List Char} (h : op.lexeme.toList = c :: d :: ds) :
    d = '=' := by
  cases op <;> cases h <;> rfl

theorem lexeme_injective {other : Operator} (h : op.lexeme = other.lexeme) : op = other := by
  revert h
  cases op <;> cases other <;> decide

theorem IsLongest.unique {other : Operator} (h₁ : op.IsLongest text) (h₂ : other.IsLongest text) :
    op = other := by
  have hl := Nat.le_antisymm (h₂.right op h₁.left) (h₁.right other h₂.left)
  have := List.prefix_of_prefix_length_le h₁.left h₂.left (Nat.le_of_eq hl)
  exact lexeme_injective (String.toList_inj.mp (this.eq_of_length hl))

theorem isLongest_append (h : text.head? ≠ some '=') : op.IsLongest (op.lexeme.toList ++ text) := by
  refine ⟨List.prefix_append .., fun other ⟨rest, ho⟩ => ?_⟩
  cases length_lexeme op
  case inl h₂ =>
    have := length_lexeme other
    omega
  case inr h₁ =>
    have ⟨c, hc⟩ := List.length_eq_one_iff.mp h₁
    cases length_lexeme other
    case inr => omega
    case inl h₂ =>
      have ⟨_, ds, hd⟩ := List.exists_cons_of_length_eq_add_one h₂
      rw [hd] at h₂
      have ⟨_, he⟩ := List.length_eq_one_iff.mp (Nat.succ.inj h₂)
      cases he
      cases eq_equal_of_lexeme hd
      rw [hc, hd] at ho
      cases ho
      exact absurd rfl h

-- The operator of a given length that a text begins with.
def ofLength? (n : Nat) (text : List Char) : Option Operator :=
  all.find? fun op => op.lexeme.toList.length == n && op.lexeme.toList.isPrefixOf text

theorem longest?_eq : longest? text = (ofLength? 2 text).or (ofLength? 1 text) := by
  simp only [longest?, List.findSome?_cons, List.findSome?_nil, ofLength?]
  split
  case h_1 h => rw [h, Option.some_or]
  case h_2 h =>
    rw [h, Option.none_or]
    split
    case h_1 h => exact h.symm
    case h_2 h => exact h.symm

theorem ofLength?_eq_some {n : Nat} (h : ofLength? n text = some op) :
    op.lexeme.toList.length = n ∧ op.lexeme.toList <+: text := by
  have h := List.find?_some h
  simpa only [Bool.and_eq_true, beq_iff_eq, List.isPrefixOf_iff_prefix] using h

theorem ofLength?_eq_none {n : Nat} (h : ofLength? n text = none) (hp : op.lexeme.toList <+: text) :
    op.lexeme.toList.length ≠ n := by
  have h := List.find?_eq_none.mp h op (mem_all op)
  simp only [Bool.and_eq_true, beq_iff_eq, List.isPrefixOf_iff_prefix] at h
  exact fun hn => h ⟨hn, hp⟩

theorem longest?_isLongest (h : longest? text = some op) : op.IsLongest text := by
  refine ⟨lexeme_of_longest? h, fun other ho => ?_⟩
  have hl := length_lexeme other
  rw [longest?_eq] at h
  cases h₂ : ofLength? 2 text
  case some op' =>
    rw [h₂, Option.some_or] at h
    cases h
    have := (ofLength?_eq_some h₂).left
    omega
  case none =>
    rw [h₂, Option.none_or] at h
    have := (ofLength?_eq_some h).left
    have := ofLength?_eq_none h₂ ho
    omega

theorem longest?_eq_none_iff :
    longest? text = none ↔ ∀ op : Operator, ¬op.lexeme.toList <+: text := by
  constructor
  case mp =>
    intro h op ho
    rw [longest?_eq, Option.or_eq_none_iff] at h
    have := length_lexeme op
    have := ofLength?_eq_none h.left ho
    have := ofLength?_eq_none h.right ho
    omega
  case mpr =>
    intro h
    cases hl : longest? text
    case none    => rfl
    case some op => exact absurd (lexeme_of_longest? hl) (h op)

theorem longest?_eq_some_iff : longest? text = some op ↔ op.IsLongest text := by
  refine ⟨longest?_isLongest, fun h => ?_⟩
  cases hl : longest? text
  case none       => exact absurd h.left (longest?_eq_none_iff.mp hl op)
  case some other => rw [(longest?_isLongest hl).unique h]

end LoxLex.Operator
