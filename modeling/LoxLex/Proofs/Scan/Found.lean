import LoxLex.Proofs.Piece.Join
import LoxLex.Proofs.Scan.Coverage

namespace LoxLex

def Token.down (k : Nat) (t : Token) : Token :=
  { t with line := t.line + k }

namespace Scan

def Error.down (k : Nat) : Error → Error
  | unexpected line c => unexpected (line + k) c
  | unterminated line => unterminated (line + k)
  | malformed line    => malformed (line + k)

def found (s : Scan) : List Token :=
  s.tokens.filter (·.kind ≠ .eof)

end Scan

namespace Piece

variable {p : Piece} {ps qs : List Piece} {cs value : List Char} {line : Nat}

def breaks (ps : List Piece) : Nat :=
  (ps.flatMap text).count '\n'

@[simp]
theorem breaks_nil : breaks [] = 0 :=
  rfl

@[simp]
theorem breaks_cons : breaks (p :: ps) = p.newlines + breaks ps := by
  rw [breaks, List.flatMap_cons, List.count_append]
  rfl

theorem Tiling.breaks_eq (h : Tiling ps cs) : breaks ps = cs.count '\n' := by
  rw [breaks, h.flatMap_text]

def found : Nat → List Piece → List Token
  | _,    []      => []
  | line, p :: ps => (p.token? line).toList ++ found (line + p.newlines) ps

theorem kind_of_token? {t : Token} (h : t ∈ p.token? line) : t.kind ≠ .eof := by
  cases hp : p.isToken
  case false => simp [token?_eq_none line hp] at h
  case true =>
    have ⟨_, ht, hk, _⟩ := exists_token? line hp
    cases ht.symm.trans h
    exact hk

theorem kind_of_mem_found {t : Token} (h : t ∈ found line ps) : t.kind ≠ .eof := by
  induction ps generalizing line
  case nil => cases h
  case cons p ps hi =>
    rcases List.mem_append.mp h with h | h
    case inl => exact kind_of_token? (Option.mem_toList.mp h)
    case inr => exact hi h

theorem tokens_eq : tokens line ps = found line ps ++ [.eof (line + breaks ps)] := by
  induction ps generalizing line
  case nil          => rfl
  case cons p ps hi =>
    rw [tokens, hi, found, breaks_cons, List.append_assoc, Nat.add_assoc]

theorem found_ofPieces : (Scan.ofPieces ps).found = found 1 ps := by
  have hk : ∀ t ∈ found 1 ps, decide (t.kind ≠ .eof) = true :=
    fun t ht => decide_eq_true (kind_of_mem_found ht)
  rw [Scan.found, Scan.ofPieces, tokens_eq, List.filter_append, List.filter_eq_self.mpr hk]
  simp [Token.eof]

theorem found_append : found line (ps ++ qs) = found line ps ++ found (line + breaks ps) qs := by
  induction ps generalizing line
  case nil          => rfl
  case cons p ps hi =>
    rw [List.cons_append, found, hi, found, breaks_cons, List.append_assoc, Nat.add_assoc]

-- A number before a point is the one thing that is told by what stands behind it.
theorem error?_of_ne {next? : Option Char} (h : next? ≠ some '.') :
    p.error? line next? = p.error? line none := by
  cases p
  case number => simp [error?, h]
  all_goals rfl

theorem errors_append (h : qs.head?.bind (·.text.head?) ≠ some '.') :
    errors line (ps ++ qs) = errors line ps ++ errors (line + breaks ps) qs := by
  induction ps generalizing line
  case nil          => rfl
  case cons p ps hi =>
    have he : p.error? line ((ps ++ qs).head?.bind (·.text.head?)) =
        p.error? line (ps.head?.bind (·.text.head?)) := by
      cases ps
      case nil  => exact error?_of_ne h
      case cons => rfl
    rw [List.cons_append, errors, hi, he, errors, breaks_cons, List.append_assoc, Nat.add_assoc]

theorem found_open : found line (ps ++ [unterminated value]) = found line ps := by
  simp [found_append, found, token?]

theorem errors_open :
    errors line (ps ++ [unterminated value]) =
      errors line ps ++ [.unterminated (line + breaks ps)] := by
  rw [errors_append (by simp [text])]
  rfl

-- Further down the same is found.

theorem token?_add (k : Nat) : p.token? (line + k) = (p.token? line).map (.down k) := by
  cases p <;> rfl

theorem error?_add (k : Nat) (next? : Option Char) :
    p.error? (line + k) next? = (p.error? line next?).map (.down k) := by
  cases p
  case number =>
    simp only [error?]
    split <;> rfl
  all_goals rfl

theorem found_add (k : Nat) : found (line + k) ps = (found line ps).map (.down k) := by
  induction ps generalizing line
  case nil          => rfl
  case cons p ps hi =>
    rw [found, found, token?_add, Nat.add_right_comm, hi, List.map_append, Option.toList_map]

theorem tokens_add (k : Nat) : tokens (line + k) ps = (tokens line ps).map (.down k) := by
  rw [tokens_eq, tokens_eq, found_add, Nat.add_right_comm, List.map_append]
  rfl

theorem errors_add (k : Nat) : errors (line + k) ps = (errors line ps).map (.down k) := by
  induction ps generalizing line
  case nil          => rfl
  case cons p ps hi =>
    rw [errors, errors, error?_add, Nat.add_right_comm, hi, List.map_append, Option.toList_map]

theorem unterminated_mem_error? {next? : Option Char} :
    (∃ n, .unterminated n ∈ p.error? line next?) ↔ p.isOpen := by
  cases p <;> simp [error?, isOpen]

theorem unterminated_mem_errors :
    (∃ n, .unterminated n ∈ errors line ps) ↔ ∃ p ∈ ps, p.isOpen := by
  induction ps generalizing line
  case nil => simp [errors]
  case cons p ps hi =>
    simp only [errors, List.mem_append, Option.mem_toList, ← Option.mem_def, exists_or,
      unterminated_mem_error?, hi, List.mem_cons, or_and_right, exists_eq_left]

theorem not_unterminated_mem_errors :
    (∀ n, .unterminated n ∉ errors line ps) ↔ ∀ p ∈ ps, ¬p.isOpen := by
  have h : (∃ n, .unterminated n ∈ errors line ps) ↔ ∃ p ∈ ps, p.isOpen := unterminated_mem_errors
  simpa using not_congr h

end Piece
end LoxLex
