import LoxLex.Proofs.Scan.Found
import LoxLex.Proofs.Scan.Trace
import LoxLex.Proofs.Token.Kind

namespace LoxLex

namespace Token

def WellFormed (t : Token) : Prop :=
  match t.kind with
  | .operator op => t.lexeme = op.lexeme ∧ t.literal = none
  | .identifier  => Piece.IsWord t.lexeme.toList ∧ (∀ kw : Keyword, t.lexeme ≠ kw.name.toLower) ∧
                      t.literal = none
  | .string      => ∃ value, t.lexeme = "\"" ++ value ++ "\"" ∧ '"' ∉ value.toList ∧
                      t.literal = some (.string value)
  | .number      => ∃ n : Numeral, n.Valid ∧ t.lexeme.toList = n.text ∧
                      Numeral.parse? t.lexeme.toList = some n ∧
                      t.literal = some (.number n.toBinary64)
  | .keyword kw  => t.lexeme = kw.name.toLower ∧ t.literal = none
  | .eof         => t.lexeme = "" ∧ t.literal = none

theorem WellFormed.literal_iff {t : Token} (h : t.WellFormed) :
    t.literal.isSome ↔ t.kind = .string ∨ t.kind = .number := by
  cases hk : t.kind <;> simp only [WellFormed, hk] at h
  case string =>
    have ⟨_, _, _, hl⟩ := h
    simp [hl]
  case number =>
    have ⟨_, _, _, _, hl⟩ := h
    simp [hl]
  case identifier => simp [h.right.right]
  all_goals simp [h.right]

-- No lexeme of another kind is reserved.
theorem WellFormed.isKeyword_iff {t : Token} (h : t.WellFormed) :
    t.kind.isKeyword ↔ ∃ kw : Keyword, t.lexeme = kw.text := by
  cases hk : t.kind <;> simp only [WellFormed, hk] at h
  case keyword kw => exact iff_of_true rfl ⟨kw, kw.toLower_name ▸ h.left⟩
  all_goals
    refine iff_of_false Bool.false_ne_true ?_
    rintro ⟨kw, hl⟩
  case identifier  => exact h.right.left kw (kw.toLower_name.symm ▸ hl)
  case operator op =>
    have hl := h.left.symm.trans hl
    cases op <;> cases kw <;> contradiction
  case string =>
    obtain ⟨value, hv, -⟩ := h
    have hw := kw.isWord_text.start
    rw [← hl, hv] at hw
    simp [Piece.isWordStart] at hw
  case number =>
    obtain ⟨n, -, -, hn, -⟩ := h
    rw [hl] at hn
    cases kw <;> cases hn
  case eof =>
    have hl := h.left.symm.trans hl
    cases kw <;> contradiction

end Token

namespace Piece

variable {p : Piece} {rest word : List Char} {line : Nat} {t : Token}

theorem wellFormed_word (h : IsWord word) :
    Token.WellFormed ⟨wordKind word, .ofList word, none, line⟩ := by
  have hk := wordKind_spec word
  generalize wordKind word = kind at hk
  cases hk
  case keyword kw hw => exact ⟨by rw [kw.toLower_name, hw], rfl⟩
  case identifier hn =>
    refine ⟨by rwa [String.toList_ofList], fun kw => ?_, rfl⟩
    rw [kw.toLower_name]
    exact (hn kw).symm

theorem Fits.wellFormed (h : p.Fits rest) (ht : t ∈ p.token? line) : t.WellFormed := by
  cases p <;> cases ht
  case operator => exact ⟨rfl, rfl⟩
  case string value =>
    refine ⟨.ofList value, ?_, by rwa [String.toList_ofList], rfl⟩
    apply String.toList_inj.mp
    simp
  case number n =>
    refine ⟨n, h.left, String.toList_ofList, ?_, rfl⟩
    rw [String.toList_ofList, Numeral.parse?_text h.left]
  case word => exact wellFormed_word h.left

theorem Tiling.wellFormed {ps : List Piece} {cs : List Char} (h : Tiling ps cs) :
    ∀ t ∈ tokens line ps, t.WellFormed := by
  induction h generalizing line
  case nil =>
    have he : (Token.eof line).WellFormed := ⟨rfl, rfl⟩
    simpa [tokens]
  case cons hf _ hi =>
    intro t ht
    rcases List.mem_append.mp ht with ht | ht
    case inl => exact hf.wellFormed (Option.mem_toList.mp ht)
    case inr => exact hi t ht

end Piece

theorem wellFormed_of_mem_scan {source : String} {extent : Extent}
    (h : source.utf8ByteSize < Source.maxLength) :
    ∀ t ∈ (scan source extent).tokens, t.WellFormed := by
  rw [scan_part_eq extent h]
  exact (Piece.Tiling.of_split _).wellFormed

-- The keywords of a scan are its tokens with reserved lexemes.
theorem isKeyword_iff_of_mem_scan {source : String} {extent : Extent} {t : Token}
    (h : source.utf8ByteSize < Source.maxLength) (ht : t ∈ (scan source extent).tokens) :
    t.kind.isKeyword ↔ ∃ kw : Keyword, t.lexeme = kw.text :=
  (wellFormed_of_mem_scan h t ht).isKeyword_iff

namespace Scan

variable {text : String} {x : Nat × Step} {t : Token} {line : Nat}
variable {before word ahead : List Char}

theorem Takes.wellFormed (h : Takes text x) (ht : t ∈ x.2.token?) :
    t.WellFormed ∧ t.kind ≠ .eof := by
  cases h
  case piece hf => exact ⟨hf.wellFormed ht, Piece.kind_of_token? ht⟩

theorem Takes.token?_word (h : Takes text x) (hs : Stands text x.1 line before (word ++ ahead))
    (hw : (Piece.word word).Fits ahead) :
    x.2.token? = some ⟨Piece.wordKind word, .ofList word, none, line⟩ := by
  cases h
  case piece h hf =>
    have ⟨_, ha, hl⟩ := hs.unique h
    have ⟨hp, _⟩ := hw.unique hf ha
    rw [hl, ← hp]
    rfl

structure WellFormed (text : String) (s : Scan) : Prop where
  ends    : ∃ ts line, s.tokens = ts ++ [.eof line] ∧ ∀ t ∈ ts, t.kind ≠ .eof
  token   : ∀ t ∈ s.tokens, t.WellFormed
  literal : ∀ t ∈ s.tokens, t.literal.isSome ↔ t.kind = .string ∨ t.kind = .number
  words   : ∃ steps last, Trace (.ofString text) 0 1 steps last ∧ s = .ofSteps steps last ∧
              ∀ x ∈ steps, ∀ line before word ahead,
                Stands text x.1 line before (word ++ ahead) → (Piece.word word).Fits ahead →
                ∀ kw : Keyword, .ofList word = kw.name.toLower →
                  x.2.token? = some ⟨.keyword kw, .ofList word, none, line⟩

end Scan

-- Every token is what its kind says, whether or not the source has errors.
theorem scan_wellFormed (source : String) (extent : Extent)
    (h : source.utf8ByteSize < Source.maxLength) :
    Scan.WellFormed (extent.part source) (scan source extent) := by
  have ⟨steps, last, ht, _, hs, hx⟩ := scan_eq_ofSteps extent h
  have hk : ∀ t ∈ steps.filterMap (·.2.token?), t.WellFormed ∧ t.kind ≠ .eof := by
    intro t htm
    have ⟨x, hm, htx⟩ := List.mem_filterMap.mp htm
    exact (hx x hm).wellFormed htx
  have hw : ∀ t ∈ (scan source extent).tokens, t.WellFormed := by
    rw [hs]
    intro t htm
    rcases List.mem_append.mp htm with htm | htm
    case inl => exact (hk t htm).left
    case inr =>
      cases List.mem_singleton.mp htm
      exact ⟨rfl, rfl⟩
  constructor
  case ends    => exact ⟨_, last, hs ▸ rfl, fun t htm => (hk t htm).right⟩
  case token   => exact hw
  case literal => exact fun t htm => (hw t htm).literal_iff
  case words =>
    refine ⟨steps, last, ht, hs, fun x hm line before word ahead hst hf kw hkw => ?_⟩
    rw [kw.toLower_name] at hkw
    rw [(hx x hm).token?_word hst hf, (Piece.wordKind_spec word).unique (.keyword kw hkw.symm)]

-- A reserved word, a word that begins with one, and a number before a point.
theorem scan_wellFormed_words :
    "or \"é\" orchid 1.".utf8ByteSize < Source.maxLength ∧
      Scan.WellFormed (Extent.allButLast.part "or \"é\" orchid 1.")
        (scan "or \"é\" orchid 1." .allButLast) :=
  ⟨by decide, scan_wellFormed _ .allButLast (by decide)⟩

end LoxLex
