import LoxLex.Proofs.Scan.Pieces
import LoxLex.Proofs.Token.Kind

namespace LoxLex

namespace Piece

def isToken : Piece → Bool
  | operator _     => true
  | string _       => true
  | number _       => true
  | word _         => true
  | blank _        => false
  | newline        => false
  | comment _      => false
  | unterminated _ => false
  | unexpected _   => false

variable {p : Piece} {ps : List Piece} {cs : List Char}

theorem token?_eq_none (line : Nat) (h : p.isToken = false) : p.token? line = none := by
  cases p
  case operator | string | number | word => contradiction
  all_goals rfl

theorem exists_token? (line : Nat) (h : p.isToken) :
    ∃ t, p.token? line = some t ∧ t.kind ≠ .eof ∧ t.lexeme = .ofList p.text := by
  cases p
  case operator op => exact ⟨_, rfl, by simp, String.ofList_toList.symm⟩
  case string      => exact ⟨_, rfl, by simp, rfl⟩
  case number      => exact ⟨_, rfl, by simp, rfl⟩
  case word        => exact ⟨_, rfl, (wordKind_spec _).ne_eof, rfl⟩
  all_goals contradiction

theorem lexeme_of_token? {line : Nat} {t : Token} (h : p.token? line = some t) :
    t.lexeme = .ofList p.text := by
  cases hp : p.isToken
  case false => simp [token?_eq_none line hp] at h
  case true =>
    have ⟨_, ht, _, hl⟩ := exists_token? line hp
    cases ht.symm.trans h
    exact hl

theorem eq_string_of_token? {line : Nat} {t : Token} {value : String} (h : p.token? line = some t)
    (hl : t.literal = some (.string value)) : p = string value.toList := by
  cases p <;> cases h <;> cases hl
  case string => rw [String.toList_ofList]

theorem lexemes_tokens (line : Nat) (ps : List Piece) :
    ((tokens line ps).filter (·.kind ≠ .eof)).map (·.lexeme) =
      (ps.filter isToken).map (.ofList ·.text) := by
  induction ps generalizing line
  case nil => rfl
  case cons p ps hi =>
    rw [tokens, List.filter_append, List.map_append, hi]
    cases hp : p.isToken
    case false => simp [token?_eq_none line hp, hp]
    case true =>
      obtain ⟨t, ht, hk, hl⟩ := exists_token? line hp
      simp [ht, hk, hl, hp]

namespace Tiling

theorem bytes_eq (h : Tiling ps cs) : ps.flatMap (Utf8.bytes ·.text) = Utf8.bytes cs := by
  rw [← h.flatMap_text, Utf8.bytes, List.flatMap_assoc]
  rfl

theorem text_ne_nil (h : Tiling ps cs) : ∀ p ∈ ps, p.text ≠ [] := by
  induction h
  case nil          => simp
  case cons hf _ hi => exact List.forall_mem_cons.mpr ⟨hf.text_ne_nil, hi⟩

end Tiling
end Piece

structure Covers (ps : List Piece) (source : String) (s : Scan) : Prop where
  bytes    : ps.flatMap (Utf8.bytes ·.text) = source.toByteArray.data.toList
  ne_nil   : ∀ p ∈ ps, p.text ≠ []
  boundary : ∀ n, (⟨Utf8.size ((ps.take n).flatMap Piece.text)⟩ : String.Pos.Raw).IsValid source
  tiling   : Piece.Tiling ps source.toList
  lexemes  : (s.tokens.filter (·.kind ≠ .eof)).map (·.lexeme) =
               (ps.filter Piece.isToken).map (.ofList ·.text)
  errors   : s.errors = Piece.errors 1 ps

theorem covers_split (source : String) :
    Covers (Piece.split source.toList) source (.ofPieces (Piece.split source.toList)) where
  bytes      := (Piece.Tiling.of_split _).bytes_eq.trans (Utf8.data_eq_bytes source).symm
  ne_nil     := (Piece.Tiling.of_split _).text_ne_nil
  boundary n := by
    have h := Piece.text_split source.toList
    rw [← List.take_append_drop n (Piece.split _), List.flatMap_append] at h
    exact Utf8.isValid_size h.symm
  tiling     := .of_split _
  lexemes    := Piece.lexemes_tokens ..
  errors     := rfl

-- No byte of a source is lost or used twice.
theorem exists_covers (source : String) (h : source.utf8ByteSize < Source.maxLength) :
    ∃ ps, Covers ps source (scan source) :=
  ⟨_, scan_part_eq .whole h ▸ covers_split source⟩

theorem exists_covers_unexpected :
    "1. é // §".utf8ByteSize < Source.maxLength ∧ ∃ ps, Covers ps "1. é // §" (scan "1. é // §") :=
  ⟨by decide, exists_covers _ (by decide)⟩

end LoxLex
