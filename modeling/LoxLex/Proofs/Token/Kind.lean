import LoxLex.Proofs.Piece.Fits

namespace LoxLex

namespace Keyword

theorem isWord_text (kw : Keyword) : Piece.IsWord kw.text.toList := by
  cases kw <;> exact ⟨rfl, List.all_eq_true.mp rfl⟩

theorem toLower_name (kw : Keyword) : kw.name.toLower = kw.text := by
  have h : kw.name.toLower = kw.name.map Char.toLower := rfl
  apply String.toList_inj.mp
  rw [h, String.toList_map]
  cases kw <;> decide

theorem text_injective {kw other : Keyword} (h : kw.text = other.text) : kw = other := by
  have hf (kw : Keyword) : all.find? (·.text == kw.text) = some kw := by
    cases kw <;> rfl
  exact Option.some.inj ((hf kw).symm.trans (h ▸ hf other))

end Keyword

namespace Kind

variable {word : String} {kind other : Kind}

theorem ofWord_text (kw : Keyword) : ofWord kw.text = keyword kw := by
  rw [ofWord, Keyword.ofText?_text]
  rfl

theorem ofWord_of_ne (h : ∀ kw : Keyword, kw.text ≠ word) : ofWord word = identifier := by
  cases hk : Keyword.ofText? word
  case none    => rw [ofWord, hk]; rfl
  case some kw => exact absurd (Keyword.text_of_ofText? hk) (h kw)

-- The kind of a word, by the texts of the keywords alone.
inductive OfWord (word : String) : Kind → Prop
  | keyword (kw : Keyword) : kw.text = word → OfWord word (.keyword kw)
  | identifier             : (∀ kw : Keyword, kw.text ≠ word) → OfWord word .identifier

theorem ofWord_spec (word : String) : OfWord word (ofWord word) := by
  cases Classical.em (∃ kw : Keyword, kw.text = word)
  case inl h =>
    have ⟨kw, h⟩ := h
    rw [← h, ofWord_text]
    exact .keyword kw rfl
  case inr h =>
    have h := not_exists.mp h
    rw [ofWord_of_ne h]
    exact .identifier h

namespace OfWord

theorem unique (h : OfWord word kind) (h' : OfWord word other) : kind = other := by
  cases h <;> cases h'
  case keyword.keyword hk _ hk'    => rw [Keyword.text_injective (hk.trans hk'.symm)]
  case keyword.identifier kw hk hn => exact absurd hk (hn kw)
  case identifier.keyword hn kw hk => exact absurd hk (hn kw)
  case identifier.identifier       => rfl

theorem ne_eof (h : OfWord word kind) : kind ≠ .eof := by
  rintro rfl
  cases h

end OfWord

theorem isKeyword_iff : kind.isKeyword ↔ ∃ kw, kind = keyword kw := by
  cases kind <;> simp [isKeyword]

-- Keywords go by names that no other kind has.
theorem isKeyword_iff_name : kind.isKeyword ↔ ∃ kw : Keyword, kind.name = kw.name := by
  cases kind
  case keyword kw => exact iff_of_true rfl ⟨kw, rfl⟩
  all_goals
    refine iff_of_false Bool.false_ne_true ?_
    rintro ⟨kw, h⟩
  case operator op => cases op <;> cases kw <;> contradiction
  all_goals cases kw <;> contradiction

end Kind

namespace Piece

theorem wordKind_spec (word : List Char) : Kind.OfWord (.ofList word) (wordKind word) := by
  rw [wordKind]
  cases h : Keyword.all.find? (·.text.toList == word)
  case none =>
    refine .identifier fun kw hk => ?_
    have hn := List.find?_eq_none.mp h kw kw.mem_all
    exact hn (by rw [hk, String.toList_ofList, beq_self_eq_true])
  case some kw =>
    have hk : kw.text.toList = word := by simpa using List.find?_some h
    exact .keyword kw (by rw [← hk, String.ofList_toList])

-- The lookup by length finds what a look at each keyword does.
theorem ofWord_eq_wordKind (word : List Char) : Kind.ofWord (.ofList word) = wordKind word :=
  (Kind.ofWord_spec _).unique (wordKind_spec word)

theorem wordKind_text (kw : Keyword) : wordKind kw.text.toList = .keyword kw :=
  (wordKind_spec _).unique (.keyword kw String.ofList_toList.symm)

theorem wordKind_of_ne {word : List Char} (h : ∀ kw : Keyword, kw.text ≠ .ofList word) :
    wordKind word = .identifier :=
  (wordKind_spec word).unique (.identifier h)

end Piece
end LoxLex
