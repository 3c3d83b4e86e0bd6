import LoxLex.Proofs.Scan.Found
import LoxLex.Proofs.Scan.Spelling

namespace LoxLex

namespace Piece

def mended : Piece → List Piece
  | unexpected _ => [blank ' ']
  | comment _    => []
  | p            => [p]

def mend (ps : List Piece) : List Piece :=
  ps.flatMap mended

def isKept : Piece → Bool
  | unexpected _ => false
  | comment _    => false
  | _            => true

-- The second text is the same as the first up to some place, where it ends or goes on with a space.
-- There may be no such place, but where it is the first text has no point.
inductive Softens : List Char → List Char → Prop
  | nil   : Softens [] []
  | keep  : Softens rest soft → Softens (c :: rest) (c :: soft)
  | space : c ≠ '.' → (∀ d ∈ soft.head?, isSpace d) → Softens (c :: rest) soft

variable {p : Piece} {ps : List Piece} {c : Char} {cs rest soft : List Char} {line : Nat}

theorem kept_cases (p : Piece) :
    p.isKept ∨ (∃ c, p = unexpected c) ∨ ∃ body, p = comment body := by
  cases p <;> simp [isKept]

theorem mended_eq (h : p.isKept) : p.mended = [p] := by
  cases p
  case unexpected | comment => contradiction
  all_goals rfl

theorem mend_cons (h : p.isKept) : mend (p :: ps) = p :: mend ps := by
  rw [mend, List.flatMap_cons, mended_eq h]
  rfl

theorem not_isWordPart_of_isSpace (h : isSpace c) : ¬isWordPart c := by
  have := Spelling.isApart_of_isSpace h
  simp_all [Spelling.isApart]

theorem not_isDigit_of_isSpace (h : isSpace c) : ¬c.isDigit :=
  fun hd => not_isWordPart_of_isSpace h (isWordPart_of_isDigit hd)

namespace Softens

theorem append (h : Softens rest soft) (cs : List Char) : Softens (cs ++ rest) (cs ++ soft) := by
  induction cs
  case nil          => exact h
  case cons c cs hi => exact .keep hi

theorem head?_eq (h : Softens rest soft) :
    soft.head? = rest.head? ∨ rest.head? ≠ some '.' ∧ ∀ c ∈ soft.head?, isSpace c := by
  cases h
  case nil         => exact .inl rfl
  case keep        => exact .inl rfl
  case space hc hs => exact .inr ⟨by simpa using hc, hs⟩

theorem forall_head? {q : Char → Prop} (h : Softens rest soft) (hs : ∀ c, isSpace c → q c)
    (hq : ∀ c ∈ rest.head?, q c) : ∀ c ∈ soft.head?, q c := by
  rcases h.head?_eq with he | ⟨_, ha⟩
  case inl => exact he ▸ hq
  case inr => exact fun c hc => hs c (ha c hc)

theorem isLongest {op : Operator} (h : Softens rest soft)
    (ho : op.IsLongest (op.lexeme.toList ++ rest)) : op.IsLongest (op.lexeme.toList ++ soft) := by
  cases h
  case nil => exact ho
  case keep rest soft c _ =>
    have hc : op.IsLongest (op.lexeme.toList ++ ([c] ++ rest)) := ho
    have hs : op.IsLongest (op.lexeme.toList ++ ([c] ++ soft)) :=
      hc.of_append.append (List.cons_ne_nil c [])
    exact hs
  case space hs => exact Operator.isLongest_append fun he => absurd (hs _ he) (by decide)

theorem ends {n : Numeral} (h : Softens rest soft) (he : Ends n rest) : Ends n soft where
  digit := h.forall_head? (fun _ => not_isDigit_of_isSpace) he.digit
  point hn c cs hp := by
    subst hp
    cases h
    case space hs => exact absurd (hs '.' rfl) (by decide)
    case keep rest h =>
      have hr : ∀ c ∈ rest.head?, ¬c.isDigit := fun c hc => by
        obtain ⟨cs, rfl⟩ := List.head?_eq_some_iff.mp hc
        exact he.point hn c cs rfl
      exact h.forall_head? (fun _ => not_isDigit_of_isSpace) hr c rfl

-- The error about a number tells of a point, and points are kept.
theorem error?_eq (h : Softens rest soft) :
    p.error? line soft.head? = p.error? line rest.head? := by
  rcases h.head?_eq with he | ⟨hr, hs⟩
  case inl => rw [he]
  case inr =>
    have hp : soft.head? ≠ some '.' := fun hp => absurd (hs _ hp) (by decide)
    rw [error?_of_ne hp, error?_of_ne hr]

end Softens

theorem Fits.soften (h : p.Fits rest) (hs : Softens rest soft) (hk : p.isKept) : p.Fits soft := by
  cases p
  case unexpected | comment    => contradiction
  case blank | newline | string => exact h
  case unterminated =>
    cases h.right
    cases hs
    exact h
  case operator op =>
    refine ⟨hs.isLongest h.left, fun ho hr => ?_⟩
    have hn : ∀ c ∈ rest.head?, c ≠ '/' := fun c hc he => h.right ho (he ▸ hc)
    have hc : ∀ c, isSpace c → c ≠ '/' := fun c hc he => absurd (he ▸ hc) (by decide)
    exact hs.forall_head? hc hn _ hr rfl
  case number => exact ⟨h.left, hs.ends h.right⟩
  case word   => exact ⟨h.left, hs.forall_head? (fun _ => not_isWordPart_of_isSpace) h.right⟩

theorem filter_error? {next? : Option Char} (h : p.isKept) :
    (p.error? line next?).toList.filter (·.char? = none) = (p.error? line next?).toList := by
  cases p
  case unexpected | comment => contradiction
  case number =>
    simp only [error?]
    split <;> rfl
  all_goals rfl

theorem size_mended (p : Piece) : Utf8.size (p.mended.flatMap text) ≤ Utf8.size p.text := by
  rcases kept_cases p with hk | ⟨c, rfl⟩ | ⟨body, rfl⟩
  case inl => simp [mended_eq hk]
  case inr.inl =>
    have hb : ' '.utf8Size = 1 := rfl
    have hc : 1 ≤ c.utf8Size := c.utf8Size_pos
    simpa [mended, text, hb] using hc
  case inr.inr => exact Nat.zero_le _

theorem size_mend (ps : List Piece) :
    Utf8.size ((mend ps).flatMap text) ≤ Utf8.size (ps.flatMap text) := by
  induction ps
  case nil          => exact Nat.le_refl _
  case cons p ps hi =>
    have := size_mended p
    simp only [mend, List.flatMap_cons, List.flatMap_append, Utf8.size_append] at hi ⊢
    omega

namespace Tiling

-- A comment is followed by a newline or by nothing, so it can be taken out.
theorem softens (h : Tiling ps cs) : Softens cs ((mend ps).flatMap text) := by
  induction h
  case nil => exact .nil
  case cons ps rest p hf _ hi =>
    rcases kept_cases p with hk | ⟨c, rfl⟩ | ⟨body, rfl⟩
    case inl =>
      rw [mend_cons hk]
      exact hi.append p.text
    case inr.inl =>
      have hc : c ≠ '.' := fun hc => hf.operator .dot (hc ▸ rfl)
      have hs : ∀ d ∈ some ' ', isSpace d := fun d hd => Option.mem_some.mp hd ▸ rfl
      exact .space hc hs
    case inr.inr =>
      have hs : ∀ c ∈ rest.head?, isSpace c := fun c hc => hf.right c hc ▸ rfl
      exact .space (by decide) (hi.forall_head? (fun _ => id) hs)

theorem mend (h : Tiling ps cs) : Tiling (mend ps) ((mend ps).flatMap text) := by
  induction h
  case nil => exact .nil
  case cons ps rest p hf ht hi =>
    rcases kept_cases p with hk | ⟨c, rfl⟩ | ⟨body, rfl⟩
    case inl =>
      rw [mend_cons hk]
      exact .cons (hf.soften ht.softens hk) hi
    case inr.inl =>
      have hb : (blank ' ').Fits ((Piece.mend ps).flatMap text) := rfl
      exact .cons hb hi
    case inr.inr => exact hi

theorem head?_eq (h : Tiling ps cs) : ps.head?.bind (·.text.head?) = cs.head? := by
  rw [← split_eq_iff.mpr h, head?_split]

theorem tokens_mend (h : Tiling ps cs) : tokens line (Piece.mend ps) = tokens line ps := by
  induction h generalizing line
  case nil => rfl
  case cons ps rest p hf _ hi =>
    rcases kept_cases p with hk | ⟨c, rfl⟩ | ⟨body, rfl⟩
    case inl => rw [mend_cons hk, tokens, tokens, hi]
    case inr.inl =>
      have hn : (unexpected c).newlines = 0 := hf.newlines_eq
      rw [tokens, hn]
      exact hi
    case inr.inr =>
      have hn : (comment body).newlines = 0 := hf.newlines_eq
      rw [tokens, hn]
      exact hi

theorem errors_mend (h : Tiling ps cs) :
    errors line (Piece.mend ps) = (errors line ps).filter (·.char? = none) := by
  induction h generalizing line
  case nil => rfl
  case cons ps rest p hf ht hi =>
    rcases kept_cases p with hk | ⟨c, rfl⟩ | ⟨body, rfl⟩
    case inl =>
      rw [mend_cons hk, errors, errors, hi, ht.mend.head?_eq, ht.head?_eq, ht.softens.error?_eq,
        List.filter_append, filter_error? hk]
    case inr.inl =>
      have hn : (unexpected c).newlines = 0 := hf.newlines_eq
      rw [errors, hn]
      exact hi
    case inr.inr =>
      have hn : (comment body).newlines = 0 := hf.newlines_eq
      rw [errors, hn]
      exact hi

end Tiling
end Piece

-- The source with a space for each character that is unexpected, and without comments.
def mendedSource (ps : List Piece) : String :=
  .ofList ((Piece.mend ps).flatMap Piece.text)

-- A scan recovers from what is unexpected: it is told of, and has no other effect.
theorem scan_mendedSource (source : String) (h : source.utf8ByteSize < Source.maxLength) :
    ∃ ps, Covers ps source (scan source) ∧
      (scan (mendedSource ps)).tokens = (scan source).tokens ∧
      (scan (mendedSource ps)).errors = (scan source).errors.filter (·.char? = none) := by
  have hs : scan source = .ofPieces (Piece.split source.toList) := scan_part_eq .whole h
  have ht := Piece.Tiling.of_split source.toList
  have hm : (mendedSource (Piece.split source.toList)).utf8ByteSize < Source.maxLength := by
    have := Piece.size_mend (Piece.split source.toList)
    rw [ht.flatMap_text, Utf8.size_toList] at this
    rw [← Utf8.size_toList, mendedSource, String.toList_ofList]
    omega
  have hp : Piece.split (mendedSource (Piece.split source.toList)).toList =
      Piece.mend (Piece.split source.toList) := by
    rw [mendedSource, String.toList_ofList]
    exact Piece.split_eq_iff.mpr ht.mend
  refine ⟨_, hs ▸ covers_split source, ?_⟩
  rw [scan_part_eq .whole hm, hs, Extent.part, hp]
  exact ⟨ht.tokens_mend, ht.errors_mend⟩

-- Two equals signs stay apart, and a number stays malformed without the comment behind its point.
theorem scan_mendedSource_apart :
    "=é=1.//@\n".utf8ByteSize < Source.maxLength ∧
      (scan "= =1.\n").tokens = (scan "=é=1.//@\n").tokens ∧
      (scan "= =1.\n").errors = (scan "=é=1.//@\n").errors.filter (·.char? = none) := by
  have hl : "=é=1.//@\n".utf8ByteSize < Source.maxLength := by decide
  have hs : Piece.split "=é=1.//@\n".toList =
      [.operator .equal, .unexpected 'é', .operator .equal, .number ⟨['1'], []⟩, .operator .dot,
        .comment ['@'], .newline] := by
    refine (Piece.split_cons rfl).trans (congrArg _ ?_)
    refine (Piece.split_cons rfl).trans (congrArg _ ?_)
    refine (Piece.split_cons rfl).trans (congrArg _ ?_)
    refine (Piece.split_cons rfl).trans (congrArg _ ?_)
    refine (Piece.split_cons rfl).trans (congrArg _ ?_)
    refine (Piece.split_cons rfl).trans (congrArg _ ?_)
    exact (Piece.split_cons rfl).trans (congrArg _ Piece.split_nil)
  obtain ⟨ps, hc, hm⟩ := scan_mendedSource "=é=1.//@\n" hl
  cases (Piece.split_eq_iff.mpr hc.tiling).symm.trans hs
  exact ⟨hl, hm⟩

end LoxLex
