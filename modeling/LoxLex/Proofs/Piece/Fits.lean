import LoxLex.Piece
import LoxLex.Proofs.Decimal.Numeral
import LoxLex.Proofs.Token.Operator

namespace LoxLex.Piece

structure IsWord (text : List Char) : Prop where
  start : text.head?.any isWordStart
  part  : ∀ c ∈ text, isWordPart c

theorem IsWord.newline_not_mem {text : List Char} (h : IsWord text) : '\n' ∉ text := by
  intro hm
  have := h.part _ hm
  contradiction

-- A character that no other piece starts with.
structure IsStray (c : Char) : Prop where
  newline  : c ≠ '\n'
  blank    : ¬isBlank c
  quote    : c ≠ '"'
  digit    : ¬c.isDigit
  word     : ¬isWordStart c
  operator : ∀ op : Operator, op.lexeme.toList.head? ≠ some c

-- A number takes all the digits there are, and a point if it has none yet and a digit follows.
structure Ends (n : Numeral) (rest : List Char) : Prop where
  digit : ∀ c ∈ rest.head?, ¬c.isDigit
  point : n.fraction = [] → ∀ c cs, rest = '.' :: c :: cs → ¬c.isDigit

-- What a piece may be, and what may stand behind it.
def Fits (rest : List Char) : Piece → Prop
  | blank c            => isBlank c
  | newline            => True
  | comment body       => '\n' ∉ body ∧ ∀ c ∈ rest.head?, c = '\n'
  | operator op        => op.IsLongest (op.lexeme.toList ++ rest) ∧
                            (op = .slash → rest.head? ≠ some '/')
  | string value       => '"' ∉ value
  | unterminated value => '"' ∉ value ∧ rest = []
  | number n           => n.Valid ∧ Ends n rest
  | word text          => IsWord text ∧ ∀ c ∈ rest.head?, ¬isWordPart c
  | unexpected c       => IsStray c

section First

variable {c : Char} {cs rest : List Char} {op : Operator}

theorem eq_of_isBlank (h : isBlank c) : c = ' ' ∨ c = '\t' ∨ c = '\r' := by
  simpa [isBlank, or_assoc] using h

theorem isAlpha_iff : c.isAlpha ↔ (65 ≤ c.val ∧ c.val ≤ 90) ∨ (97 ≤ c.val ∧ c.val ≤ 122) := by
  show decide (65 ≤ c.val ∧ c.val ≤ 90) || (decide (97 ≤ c.val) && decide (c.val ≤ 122)) ↔ _
  simp only [Bool.or_eq_true, Bool.and_eq_true, decide_eq_true_eq]

theorem not_isDigit_of_isWordStart (h : isWordStart c) : ¬c.isDigit := by
  simp only [isWordStart, Bool.or_eq_true, beq_iff_eq] at h
  rcases h with h | rfl
  case inl =>
    rw [isAlpha_iff] at h
    simp only [Char.isDigit]
    grind
  case inr => decide

theorem isWordPart_of_isDigit (h : c.isDigit) : isWordPart c := by
  simp [isWordPart, Char.isAlphanum, h]

theorem isWordPart_of_isWordStart (h : isWordStart c) : isWordPart c := by
  simp only [isWordStart, isWordPart, Char.isAlphanum, Bool.or_eq_true] at h ⊢
  exact h.imp_left .inl

theorem first_newline : first '\n' cs = (newline, cs) :=
  rfl

theorem first_blank (h : isBlank c) : first c cs = (blank c, cs) := by
  rcases eq_of_isBlank h with rfl | rfl | rfl <;> rfl

theorem first_quote : first '"' cs = quoted cs :=
  rfl

theorem first_comment : first '/' ('/' :: cs) =
    (comment (cs.takeWhile (· != '\n')), cs.dropWhile (· != '\n')) :=
  rfl

theorem first_of_isWordPart (h : isWordPart c) :
    first c cs =
      if c.isDigit then numeral c cs
      else if isWordStart c then (word (c :: cs.takeWhile isWordPart), cs.dropWhile isWordPart)
      else marked c cs := by
  have hn : c ≠ '\n' := by rintro rfl; contradiction
  have hq : c ≠ '"' := by rintro rfl; contradiction
  have hs : c ≠ '/' := by rintro rfl; contradiction
  have hb : ¬isBlank c := by
    intro hb
    rcases eq_of_isBlank hb with rfl | rfl | rfl <;> contradiction
  simp only [first, if_neg hn, if_neg hb, if_neg hq, hs, false_and, if_false]

theorem first_digit (h : c.isDigit) : first c cs = numeral c cs := by
  rw [first_of_isWordPart (isWordPart_of_isDigit h), if_pos h]

theorem exists_numeral (c : Char) (cs : List Char) : ∃ n rest, numeral c cs = (number n, rest) := by
  unfold numeral
  split
  case h_1 => split <;> exact ⟨_, _, rfl⟩
  case h_2 => exact ⟨_, _, rfl⟩

theorem first_word (h : isWordStart c) :
    first c cs = (word (c :: cs.takeWhile isWordPart), cs.dropWhile isWordPart) := by
  rw [first_of_isWordPart (isWordPart_of_isWordStart h),
    if_neg (not_isDigit_of_isWordStart h), if_pos h]

theorem first_operator (ho : op.lexeme.toList ++ rest = c :: cs)
    (hs : op = .slash → rest.head? ≠ some '/') : first c cs = marked c cs := by
  cases op <;> cases ho
  case slash => exact if_neg fun h : '/' = '/' ∧ rest.head? = some '/' => hs rfl h.right
  all_goals rfl

theorem first_stray (h : IsStray c) : first c cs = (unexpected c, cs) := by
  have hs : c ≠ '/' := (h.operator .slash <| · ▸ rfl)
  have hm : Operator.longest? (c :: cs) = none := by
    refine Operator.longest?_eq_none_iff.mpr fun op ⟨r, ho⟩ => h.operator op ?_
    cases hl : op.lexeme.toList
    case nil       => exact absurd (String.toList_eq_nil_iff.mp hl) op.lexeme_ne_empty
    case cons d ds => simp_all
  simp only [first, if_neg h.newline, if_neg h.blank, if_neg h.quote, if_neg h.digit,
    if_neg h.word, hs, false_and, if_false, marked, hm]

-- What comes first in a text fits before what is left.

theorem fits_quoted : (quoted cs).1.Fits (quoted cs).2 := by
  have hq := (Run.span (· != '"') cs).not_mem
  unfold quoted
  split
  case h_1 => exact ⟨hq, rfl⟩
  case h_2 => exact hq

theorem fits_numeral (h : c.isDigit) : (numeral c cs).1.Fits (numeral c cs).2 := by
  have hr := Run.span Char.isDigit cs
  have hw : ∀ d ∈ c :: cs.takeWhile Char.isDigit, d.isDigit := by
    simpa [h] using hr.pass
  unfold numeral
  split
  case h_1 r hd =>
    have hf := Run.span Char.isDigit r
    split
    case isTrue he =>
      refine ⟨⟨by simp, hw, by simp⟩, ⟨by simp, fun _ d ds hp hdig => ?_⟩⟩
      simp_all
    case isFalse he =>
      refine ⟨⟨by simp, hw, hf.pass⟩, ⟨hf.stop, fun hn => ?_⟩⟩
      simp_all
  case h_2 rest hn =>
    refine ⟨⟨by simp, hw, by simp⟩, ⟨hr.stop, fun _ d ds hp => ?_⟩⟩
    exact absurd hp (hn _)

theorem fits_marked (hn : c ≠ '\n') (hb : ¬isBlank c) (hq : c ≠ '"') (hd : ¬c.isDigit)
    (hw : ¬isWordStart c) (hs : ¬(c = '/' ∧ cs.head? = some '/')) :
    (marked c cs).1.Fits (marked c cs).2 := by
  have ht := text_marked c cs
  unfold marked at ht ⊢
  split
  case h_1 op ho =>
    simp only [ho, text] at ht
    constructor
    case left =>
      have hl := Operator.longest?_isLongest ho
      rwa [← ht] at hl
    case right =>
      rintro rfl
      cases ht
      exact fun h => hs ⟨rfl, h⟩
  case h_2 ho =>
    refine ⟨hn, hb, hq, hd, hw, fun op h => ?_⟩
    obtain ⟨single, _, hs⟩ := Operator.exists_of_head? h
    exact Operator.longest?_eq_none_iff.mp ho single (hs ▸ List.prefix_append [c] cs)

theorem fits_first (c : Char) (cs : List Char) : (first c cs).1.Fits (first c cs).2 := by
  unfold first
  split
  case isTrue => trivial
  split
  case isTrue hb => exact hb
  split
  case isTrue => exact fits_quoted
  split
  case isTrue hd => exact fits_numeral hd
  split
  case isTrue hw =>
    have hr := Run.span isWordPart cs
    refine ⟨⟨hw, ?_⟩, hr.stop⟩
    simpa [isWordPart_of_isWordStart hw] using hr.pass
  split
  case isTrue =>
    have hr := Run.span (· != '\n') cs.tail
    exact ⟨hr.not_mem, hr.head?_eq⟩
  case isFalse hs => exact fits_marked ‹_› ‹_› ‹_› ‹_› ‹_› hs

-- A piece that fits comes first.

theorem quoted_of_not_mem {value : List Char} (h : '"' ∉ value) :
    quoted (value ++ '"' :: rest) = (string value, rest) := by
  have hr : Run (· != '"') value ('"' :: rest) := .of_not_mem h (by simp)
  rw [quoted, hr.takeWhile_eq, hr.dropWhile_eq]

theorem quoted_of_not_mem_end {value : List Char} (h : '"' ∉ value) :
    quoted value = (unterminated value, []) := by
  have hr : Run (· != '"') value [] := .of_not_mem h (by simp)
  have ht := hr.takeWhile_eq
  have hd := hr.dropWhile_eq
  rw [List.append_nil] at ht hd
  rw [quoted, ht, hd]

theorem Ends.tail {n : Numeral} (h : Ends n rest) : ∀ c ∈ (n.tail ++ rest).head?, ¬c.isDigit := by
  unfold Numeral.tail
  split
  case isTrue  => exact h.digit
  case isFalse => simp

theorem numeral_of_ends {n : Numeral} (hv : n.Valid) (he : Ends n rest)
    (ht : n.text ++ rest = c :: cs) : numeral c cs = (number n, rest) := by
  have ⟨whole, fraction⟩ := n
  cases whole
  case nil => exact absurd rfl hv.whole_ne_nil
  case cons d ds =>
    have hd : ∀ e ∈ ds, e.isDigit := fun e h => hv.whole e (List.mem_cons_of_mem _ h)
    cases fraction
    case nil =>
      have hr : Run Char.isDigit ds rest := ⟨hd, he.digit⟩
      rw [Numeral.text_of_nil rfl, List.cons_append] at ht
      cases List.cons.inj ht
      subst d cs
      rw [numeral, hr.takeWhile_eq, hr.dropWhile_eq]
      split
      case h_1 r =>
        -- a point stands behind the number, but no digit behind the point
        have hr : r.takeWhile Char.isDigit = [] := by
          cases r
          case nil       => rfl
          case cons e es => exact List.takeWhile_cons_of_neg (he.point rfl e es rfl)
        simp [hr]
      case h_2 => rfl
    case cons f fs =>
      have hr : Run Char.isDigit ds ('.' :: (f :: fs ++ rest)) := ⟨hd, by simp⟩
      have hf : Run Char.isDigit (f :: fs) rest := ⟨hv.fraction, he.digit⟩
      have hn : f :: fs ≠ [] := List.cons_ne_nil f fs
      rw [Numeral.text_of_ne_nil hn, List.append_assoc, List.cons_append, List.cons_append] at ht
      cases List.cons.inj ht
      subst d cs
      simp only [numeral, hr.takeWhile_eq, hr.dropWhile_eq, hf.takeWhile_eq, hf.dropWhile_eq]
      rfl

theorem head_isDigit {n : Numeral} (hv : n.Valid) (ht : n.text ++ rest = c :: cs) : c.isDigit := by
  have ⟨whole, fraction⟩ := n
  cases whole
  case nil => exact absurd rfl hv.whole_ne_nil
  case cons d ds =>
    have hd : d = c := by
      cases fraction <;> exact List.head_eq_of_cons_eq ht
    exact hd ▸ hv.whole d List.mem_cons_self

theorem first_of_fits {p : Piece} (h : p.Fits rest) (ht : p.text ++ rest = c :: cs) :
    first c cs = (p, rest) := by
  cases p
  case blank =>
    cases ht
    exact first_blank h
  case newline =>
    cases ht
    exact first_newline
  case comment body =>
    have hr := Run.of_not_mem h.left h.right
    cases ht
    show first '/' ('/' :: (body ++ rest)) = _
    rw [first_comment, hr.takeWhile_eq, hr.dropWhile_eq]
  case operator op =>
    have ho := Operator.longest?_eq_some_iff.mpr h.left
    simp only [text] at ht
    rw [first_operator ht h.right, marked, ← ht, ho]
    simp
  case string value =>
    simp only [text, List.append_assoc, List.cons_append, List.nil_append] at ht
    cases ht
    exact quoted_of_not_mem h
  case unterminated value =>
    rw [h.right, List.append_nil] at ht
    cases ht
    exact h.right ▸ quoted_of_not_mem_end h.left
  case number n =>
    rw [first_digit (head_isDigit h.left ht), numeral_of_ends h.left h.right ht]
  case word w =>
    cases w
    case nil => exact absurd h.left.start (by simp)
    case cons d ds =>
      have hr : Run isWordPart ds rest :=
        ⟨fun e he => h.left.part e (List.mem_cons_of_mem _ he), h.right⟩
      rw [text, List.cons_append] at ht
      cases List.cons.inj ht
      subst d cs
      rw [first_word (by simpa using h.left.start), hr.takeWhile_eq, hr.dropWhile_eq]
  case unexpected =>
    cases ht
    exact first_stray h

end First

variable {p : Piece} {rest : List Char}

theorem Fits.text_ne_nil (h : p.Fits rest) : p.text ≠ [] := by
  cases p
  case operator op => exact fun ht => op.lexeme_ne_empty (String.toList_eq_nil_iff.mp ht)
  case number n    => exact Numeral.text_ne_nil h.left.whole_ne_nil
  case word w =>
    have := h.left.start
    cases w <;> simp_all [text]
  all_goals simp [text]

-- There is only one piece that a text can begin with.
theorem Fits.unique {q : Piece} {others : List Char} (hp : p.Fits rest) (hq : q.Fits others)
    (h : p.text ++ rest = q.text ++ others) : p = q ∧ rest = others := by
  cases ht : p.text ++ rest
  case nil       => exact absurd (List.append_eq_nil_iff.mp ht).left hp.text_ne_nil
  case cons c cs => exact Prod.mk.inj ((first_of_fits hp ht).symm.trans (first_of_fits hq (h ▸ ht)))

theorem Fits.newlines_eq (h : p.Fits rest) :
    p.newlines = match p with
      | newline            => 1
      | string value       => value.count '\n'
      | unterminated value => value.count '\n'
      | _                  => 0 := by
  cases p
  case blank c =>
    have : '\n' ≠ c := by rintro rfl; contradiction
    simpa [newlines, text, List.count_eq_zero]
  case newline      => rfl
  case comment body => simpa [newlines, text] using List.count_eq_zero.mpr h.left
  case operator op  => cases op <;> rfl
  case string       => simp [newlines, text]
  case unterminated => simp [newlines, text]
  case number       => exact List.count_eq_zero.mpr h.left.newline_not_mem_text
  case word         => exact List.count_eq_zero.mpr h.left.newline_not_mem
  case unexpected c =>
    have : '\n' ≠ c := h.newline.symm
    simpa [newlines, text, List.count_eq_zero]

end LoxLex.Piece
