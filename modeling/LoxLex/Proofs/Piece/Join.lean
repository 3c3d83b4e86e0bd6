import LoxLex.Proofs.Piece.Tiling

namespace LoxLex

-- An operator that something stands behind is not made longer by what comes after that.
theorem Operator.IsLongest.append {op : Operator} {rest xs : List Char}
    (h : op.IsLongest (op.lexeme.toList ++ rest)) (hr : rest ≠ []) :
    op.IsLongest (op.lexeme.toList ++ (rest ++ xs)) := by
  refine ⟨List.prefix_append .., fun other ho => h.right other ?_⟩
  rw [← List.append_assoc] at ho
  refine List.prefix_of_prefix_length_le ho (List.prefix_append ..) ?_
  have := length_lexeme op
  have := length_lexeme other
  have := List.length_pos_iff.mpr hr
  rw [List.length_append]
  omega

theorem Operator.IsLongest.of_append {op : Operator} {rest xs : List Char}
    (h : op.IsLongest (op.lexeme.toList ++ (rest ++ xs))) :
    op.IsLongest (op.lexeme.toList ++ rest) := by
  refine ⟨List.prefix_append .., fun other ho => h.right other ?_⟩
  rw [← List.append_assoc]
  exact ho.trans (List.prefix_append ..)

namespace Piece

variable {p : Piece} {ps qs : List Piece} {a b cs rest value xs : List Char}

-- Only a string that is still open can go on whatever comes.
def isOpen : Piece → Bool
  | unterminated _ => true
  | _              => false

def Closed (cs : List Char) : Prop :=
  ∀ p ∈ split cs, ¬p.isOpen

namespace Fits

-- The second character matters only behind a number, if the first is a point.
theorem append (h : p.Fits rest) (hr : rest ≠ [])
    (hx : rest = ['.'] → ∀ c ∈ xs.head?, ¬c.isDigit) : p.Fits (rest ++ xs) := by
  have hh : (rest ++ xs).head? = rest.head? := by
    rw [List.head?_append, List.head?_eq_some_head hr, Option.some_or]
  cases p
  case blank | newline | string | unexpected => exact h
  case comment      => exact ⟨h.left, hh ▸ h.right⟩
  case operator     => exact ⟨h.left.append hr, hh ▸ h.right⟩
  case unterminated => exact absurd h.right hr
  case word         => exact ⟨h.left, hh ▸ h.right⟩
  case number n =>
    refine ⟨h.left, hh ▸ h.right.digit, fun hn c cs he => ?_⟩
    match rest with
    | [d] =>
      cases he
      exact hx rfl c rfl
    | d :: e :: ds =>
      cases he
      exact h.right.point hn c ds rfl

-- What stands at the end of a text, and is not open, ends before a character it could not take.
theorem before {c : Char} (h : p.Fits []) (ho : ¬p.isOpen)
    (hc : ∀ body, p = comment body → c = '\n') (hw : ¬isWordPart c) (hm : c ∉ ['=', '/', '.']) :
    p.Fits (c :: cs) := by
  simp only [List.mem_cons, List.not_mem_nil, or_false, not_or] at hm
  cases p
  case blank | newline | string | unexpected => exact h
  case comment      => exact ⟨h.left, by simpa using hc⟩
  case operator     => exact ⟨Operator.isLongest_append (by simpa using hm.left), by simp [hm]⟩
  case unterminated => exact absurd rfl ho
  case number       => exact ⟨h.left, by simpa using mt isWordPart_of_isDigit hw, by simp [hm]⟩
  case word         => exact ⟨h.left, by simpa using hw⟩

theorem before_newline (h : p.Fits []) (ho : ¬p.isOpen) : p.Fits ('\n' :: cs) :=
  h.before ho (fun _ _ => rfl) (by decide) (by decide)

theorem before_quote (h : p.Fits []) (ho : ¬p.isOpen) (hc : ∀ body, p ≠ comment body) :
    p.Fits ('"' :: cs) :=
  h.before ho (fun body hp => absurd hp (hc body)) (by decide) (by decide)

theorem of_append (h : p.Fits (rest ++ xs)) : p.Fits rest := by
  have hh : ∀ c, rest.head? = some c → (rest ++ xs).head? = some c := by
    intro c hc
    rw [List.head?_append, hc, Option.some_or]
  cases p
  case blank | newline | string | unexpected => exact h
  case comment      => exact ⟨h.left, fun c hc => h.right c (hh c hc)⟩
  case operator     => exact ⟨h.left.of_append, fun ho hr => h.right ho (hh _ hr)⟩
  case unterminated => exact ⟨h.left, (List.append_eq_nil_iff.mp h.right).left⟩
  case word         => exact ⟨h.left, fun c hc => h.right c (hh c hc)⟩
  case number =>
    refine ⟨h.left, fun c hc => h.right.digit c (hh c hc), fun hn c cs he => ?_⟩
    exact h.right.point hn c (cs ++ xs) (by simp [he])

end Fits

namespace Tiling

theorem eq_nil_iff (h : Tiling ps cs) : ps = [] ↔ cs = [] := by
  cases h
  case nil       => simp
  case cons hf _ => simp [hf.text_ne_nil]

theorem fits_getLast (h : Tiling ps cs) : ∀ p ∈ ps.getLast?, p.Fits [] := by
  induction h
  case nil => simp
  case cons ps rest p hf ht hi =>
    cases ps
    case nil      => simpa [ht.eq_nil_iff.mp rfl] using hf
    case cons q _ => simpa [List.getLast?_cons_cons] using hi

theorem of_append (h : Tiling (ps ++ qs) cs) : Tiling ps (ps.flatMap text) := by
  induction ps generalizing cs
  case nil => exact .nil
  case cons p ps hi =>
    cases h
    case cons rest hf ht =>
      have hr : rest = ps.flatMap text ++ qs.flatMap text := by
        rw [← List.flatMap_append]
        exact ht.flatMap_text.symm
      exact .cons (hr ▸ hf).of_append (hi ht)

theorem not_isOpen (h : Tiling (ps ++ qs) cs) (hq : qs ≠ []) : ∀ p ∈ ps, ¬p.isOpen := by
  induction ps generalizing cs
  case nil => simp
  case cons p ps hi =>
    cases h
    case cons rest hf ht =>
      have hr : rest ≠ [] := mt ht.eq_nil_iff.mpr (List.append_ne_nil_of_right_ne_nil ps hq)
      refine List.forall_mem_cons.mpr ⟨fun ho => ?_, hi ht⟩
      cases p
      case unterminated => exact hr hf.right
      all_goals contradiction

-- It is the last piece that decides whether two texts can stand one behind the other.
theorem append (h : Tiling ps cs) (hq : Tiling qs xs) (hl : ∀ p ∈ ps.getLast?, p.Fits xs)
    (hx : ∀ c ∈ xs.head?, ¬c.isDigit) : Tiling (ps ++ qs) (cs ++ xs) := by
  induction h
  case nil => exact hq
  case cons ps rest p hf ht hi =>
    rw [List.cons_append, List.append_assoc]
    cases ps
    case nil =>
      cases ht.eq_nil_iff.mp rfl
      exact .cons (hl p rfl) hq
    case cons q ps =>
      have hr : rest ≠ [] := mt ht.eq_nil_iff.mpr (List.cons_ne_nil q ps)
      exact .cons (hf.append hr fun _ => hx) (hi (by simpa [List.getLast?_cons_cons] using hl))

theorem append_newline (h : Tiling ps a) (ho : ∀ p ∈ ps, ¬p.isOpen) (hq : Tiling qs b) :
    Tiling (ps ++ newline :: qs) (a ++ '\n' :: b) := by
  have hn : newline.Fits b := trivial
  refine h.append (.cons hn hq) (fun p hp => ?_) (by simp)
  exact (h.fits_getLast p hp).before_newline (ho p (List.mem_of_getLast? hp))

theorem mem_of_open (h : Tiling ps cs) (hp : p ∈ ps) (ho : p.isOpen) : '"' ∈ cs := by
  refine h.flatMap_text ▸ List.mem_flatMap.mpr ⟨p, hp, ?_⟩
  cases p
  case unterminated => exact List.mem_cons_self
  all_goals contradiction

-- A string that is still open takes in all that comes behind it, up to a quote.
theorem append_open (h : Tiling (ps ++ [unterminated value]) cs) (hx : '"' ∉ xs) :
    Tiling (ps ++ [unterminated (value ++ xs)]) (cs ++ xs) := by
  induction ps generalizing cs
  case nil =>
    cases h
    case cons rest hf _ =>
      cases hf.right
      have hf : (unterminated (value ++ xs)).Fits [] := ⟨by simp [hf.left, hx], rfl⟩
      simpa [text] using Tiling.cons hf .nil
  case cons p ps hi =>
    cases h
    case cons rest hf ht =>
      have hm := List.mem_append_right ps (List.mem_singleton_self (unterminated value))
      have hq : '"' ∈ rest := ht.mem_of_open hm rfl
      have hr : rest ≠ [] := List.ne_nil_of_mem hq
      have hd : rest ≠ ['.'] := fun hd => by simp [hd] at hq
      rw [List.cons_append, List.append_assoc]
      exact .cons (hf.append hr (absurd · hd)) (hi ht)

theorem eq_append_open (h : Tiling ps cs) (hp : p ∈ ps) (ho : p.isOpen) :
    ∃ qs value, ps = qs ++ [unterminated value] := by
  induction h
  case nil => cases hp
  case cons ps rest q hf ht hi =>
    cases hp
    case tail hp =>
      have ⟨qs, value, hq⟩ := hi hp
      exact ⟨q :: qs, value, by rw [hq, List.cons_append]⟩
    case head =>
      cases p
      case unterminated value =>
        exact ⟨[], value, by rw [ht.eq_nil_iff.mpr hf.right, List.nil_append]⟩
      all_goals contradiction

end Tiling

theorem Closed.of_not_mem (h : '"' ∉ a) : Closed a :=
  fun _ hp ho => h ((Tiling.of_split a).mem_of_open hp ho)

theorem Closed.of_append (h : Closed (a ++ xs)) (hx : '"' ∉ xs) : Closed a := by
  intro p hp ho
  have ht := Tiling.of_split a
  have ⟨qs, value, hq⟩ := ht.eq_append_open hp ho
  have hs := split_eq_iff.mpr ((hq ▸ ht).append_open hx)
  exact h (unterminated (value ++ xs)) (by simp [hs]) rfl

theorem closed_or_open (a : List Char) :
    Closed a ∨ ∃ qs value, split a = qs ++ [unterminated value] := by
  by_cases h : ∃ p ∈ split a, p.isOpen
  case pos =>
    have ⟨p, hp, ho⟩ := h
    exact .inr ((Tiling.of_split a).eq_append_open hp ho)
  case neg => exact .inl fun p hp ho => h ⟨p, hp, ho⟩

theorem Closed.split_append_newline (h : Closed a) :
    split (a ++ '\n' :: b) = split a ++ newline :: split b :=
  split_eq_iff.mpr ((Tiling.of_split a).append_newline h (.of_split b))

end Piece
end LoxLex
