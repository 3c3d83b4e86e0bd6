import LoxLex.Proofs.Source.Padding

namespace LoxLex.Source

variable {text part left right : String} {start middle stop : Nat}

-- A position between two characters of a text, or at one of its ends.
abbrev Boundary (text : String) (o : Nat) : Prop :=
  (⟨o⟩ : String.Pos.Raw).IsValid text

def Between (text : String) (start stop : Nat) (part : String) : Prop :=
  ∃ before behind, text = before ++ part ++ behind ∧
    before.utf8ByteSize = start ∧ (before ++ part).utf8ByteSize = stop

theorem Between.extract_eq (h : Between text start stop part) :
    text.toByteArray.extract start stop = part.toByteArray := by
  obtain ⟨before, behind, rfl, rfl, rfl⟩ := h
  have hp := ByteArray.extract_append_size_add (a := before.toByteArray)
    (b := part.toByteArray ++ behind.toByteArray) (i := 0) (j := part.toByteArray.size)
  rw [ByteArray.extract_append_eq_left rfl] at hp
  simpa [String.utf8ByteSize_append, ByteArray.append_assoc] using hp

theorem exists_between (hle : start ≤ stop) (hs : Boundary text start) (ht : Boundary text stop) :
    ∃ part, Between text start stop part := by
  obtain ⟨front, behind, rfl, hf⟩ := String.Pos.Raw.isValid_iff_exists_append.mp ht
  have hf : stop = front.utf8ByteSize := congrArg String.Pos.Raw.byteIdx hf
  have hs : Boundary front start := by
    cases String.Pos.Raw.isValid_append.mp hs
    case inl h => exact h
    case inr h =>
      have hg : front.utf8ByteSize ≤ start := h.left
      have he : start = front.utf8ByteSize := by omega
      exact he ▸ String.Pos.Raw.isValid_rawEndPos
  obtain ⟨before, part, rfl, hb⟩ := String.Pos.Raw.isValid_iff_exists_append.mp hs
  exact ⟨part, before, behind, rfl, (congrArg String.Pos.Raw.byteIdx hb).symm, hf.symm⟩

theorem Between.le (h : Between text start stop part) :
    start ≤ stop ∧ stop ≤ text.utf8ByteSize := by
  obtain ⟨before, behind, rfl, rfl, rfl⟩ := h
  simp only [String.utf8ByteSize_append]
  omega

theorem Between.eq_append (h : Between text start stop part)
    (hl : Between text start middle left) (hr : Between text middle stop right) :
    part = left ++ right := by
  apply String.toByteArray_inj.mp
  rw [String.toByteArray_append, ← h.extract_eq, ← hl.extract_eq, ← hr.extract_eq]
  exact ByteArray.extract_eq_extract_append_extract middle hl.le.left hr.le.left

theorem slice_bounds {src : Source} (h : src.slice start stop = .ok part) :
    start ≤ stop ∧ stop ≤ src.length := by
  unfold slice at h
  split at h
  case isTrue hs => exact hs
  case isFalse   => cases h

theorem between?_ofString (h : stop ≤ text.utf8ByteSize) : (ofString text).between? start stop =
    String.fromUTF8? (text.toByteArray.extract start stop) := by
  have he := congrArg (ByteArray.extract · start stop) (extract_padded (b := text.toByteArray))
  have h : stop ≤ text.toByteArray.size := h
  simp only [ByteArray.extract_extract, Nat.zero_add, Nat.min_eq_left h] at he
  rw [between?, ofString, he]

section

variable (hl : text.utf8ByteSize ≤ maxLength)
include hl

theorem slice_ofString (hle : start ≤ stop) (hs : stop ≤ text.utf8ByteSize) :
    (ofString text).slice start stop =
      .ok ((String.fromUTF8? (text.toByteArray.extract start stop)).getD "") := by
  rw [slice, if_pos ⟨hle, length_ofString hl ▸ hs⟩, between?_ofString hs]

theorem Between.slice (h : Between text start stop part) :
    (ofString text).slice start stop = .ok part := by
  rw [slice_ofString hl h.le.left h.le.right, h.extract_eq,
    Utf8.fromUTF8?_toByteArray, Option.getD_some]

-- The bytes of a range that cuts a character are not those of any text, unless there are none.
theorem slice_of_cut (hle : start ≤ stop) (hs : stop ≤ text.utf8ByteSize)
    (hb : ¬(Boundary text start ∧ Boundary text stop)) :
    (ofString text).slice start stop = .ok "" := by
  rw [slice_ofString hl hle hs]
  by_cases he : start = stop
  case pos =>
    have hn : text.toByteArray.extract start stop = "".toByteArray :=
      ByteArray.extract_eq_empty_iff.mpr (by omega)
    rw [hn, Utf8.fromUTF8?_toByteArray, Option.getD_some]
  case neg =>
    have hv := String.Pos.Raw.isValidUTF8_extract_iff (s := text) ⟨start⟩ ⟨stop⟩ hle hs
    have hn : ¬(text.toByteArray.extract start stop).IsValidUTF8 := by simpa [hv, he] using hb
    rw [String.fromUTF8?, dif_neg hn, Option.getD_none]

end

structure Slices (text : String) (src : Source) : Prop where
  between : ∀ start stop, start ≤ stop → Boundary text start → Boundary text stop →
              ∃ part, Between text start stop part ∧ src.slice start stop = .ok part
  cut     : ∀ start stop, start ≤ stop → stop ≤ text.utf8ByteSize →
              ¬(Boundary text start ∧ Boundary text stop) → src.slice start stop = .ok ""
  sound   : ∀ start stop part, src.slice start stop = .ok part →
              part = "" ∨ Between text start stop part
  join    : ∀ start middle stop, start ≤ middle → middle ≤ stop →
              Boundary text start → Boundary text middle → Boundary text stop →
                ∃ left right, src.slice start middle = .ok left ∧
                  src.slice middle stop = .ok right ∧ src.slice start stop = .ok (left ++ right)

-- A slice is the text between its ends, or empty if one of them cuts a character.
theorem ofString_slices (text : String) (h : text.utf8ByteSize ≤ maxLength) :
    Slices text (ofString text) := by
  constructor
  case between =>
    intro start stop hle hs ht
    have ⟨part, hp⟩ := exists_between hle hs ht
    exact ⟨part, hp, hp.slice h⟩
  case cut => exact fun start stop hle hs hb => slice_of_cut h hle hs hb
  case sound =>
    intro start stop part hp
    have ⟨hle, hs⟩ := slice_bounds hp
    rw [length_ofString h] at hs
    by_cases hb : Boundary text start ∧ Boundary text stop
    case pos =>
      have ⟨part', hb⟩ := exists_between hle hb.left hb.right
      cases hp.symm.trans (hb.slice h)
      exact .inr hb
    case neg =>
      cases hp.symm.trans (slice_of_cut h hle hs hb)
      exact .inl rfl
  case join =>
    intro start middle stop hle hle' hs hm ht
    have ⟨left, hl⟩ := exists_between hle hs hm
    have ⟨right, hr⟩ := exists_between hle' hm ht
    have ⟨part, hp⟩ := exists_between (Nat.le_trans hle hle') hs ht
    exact ⟨left, right, hl.slice h, hr.slice h, hp.eq_append hl hr ▸ hp.slice h⟩

-- Two characters of three bytes each, with a letter between them. The ranges that are cut end in
-- one of them, start in one, or do both.
theorem ofString_slices_euro :
    let text := "€a€"
    let src := ofString text
    text.utf8ByteSize ≤ maxLength ∧
      (∃ part, Between text 3 7 part ∧ src.slice 3 7 = .ok part) ∧
      (∃ left right, src.slice 0 3 = .ok left ∧ src.slice 3 4 = .ok right ∧
        src.slice 0 4 = .ok (left ++ right)) ∧
      src.slice 0 2 = .ok "" ∧ src.slice 1 4 = .ok "" ∧ src.slice 1 5 = .ok "" := by
  intro text src
  have hl : text.utf8ByteSize ≤ maxLength := by decide
  have h := ofString_slices text hl
  refine ⟨hl, ?between, ?join, ?stop, ?start, ?both⟩
  case between => exact h.between 3 7 (by decide) (by decide) (by decide)
  case join    => exact h.join 0 3 4 (by decide) (by decide) (by decide) (by decide) (by decide)
  case stop    => exact h.cut 0 2 (by decide) (by decide) (by decide)
  case start   => exact h.cut 1 4 (by decide) (by decide) (by decide)
  case both    => exact h.cut 1 5 (by decide) (by decide) (by decide)

end LoxLex.Source
