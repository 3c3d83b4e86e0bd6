import LoxLex.Proofs.Source.Reads
import LoxLex.Proofs.Source.Slice

namespace LoxLex.Source

variable {text : String} {o next : Nat}

structure NextBoundary (text : String) (o next : Nat) : Prop where
  lt       : o < next
  boundary : Boundary text next
  least    : ∀ p, o < p → Boundary text p → next ≤ p

theorem NextBoundary.of_lt {p : Nat} (h : NextBoundary text p next) (ho : o < p)
    (hp : ¬Boundary text p) (hq : ∀ q, o < q → Boundary text q → p ≤ q) :
    NextBoundary text o next where
  lt := Nat.lt_trans ho h.lt
  boundary := h.boundary
  least q hlt hb := by
    have hne : p ≠ q := fun he => hp (he ▸ hb)
    exact h.least q (Nat.lt_of_le_of_ne (hq q hlt hb) hne) hb

def characters (src : Source) (o : Nat) : Except Fault (List (Option Char)) :=
  if src.isEnd o then
    .ok []
  else
    match h : src.nextChar o with
    | .error f => .error f
    | .ok next =>
      have := src.lt_nextChar h
      do return (← src.char? o) :: (← characters src next)
termination_by src.length - o
decreasing_by
  simp_all only [isEnd, decide_eq_true_eq]
  omega

def nextChars (src : Source) : Nat → Nat → Except Fault Nat
  | 0,     o => .ok o
  | n + 1, o => do src.nextChars n (← src.nextChar o)

theorem nextChars_succ {src : Source} {n : Nat} (h : src.nextChar o = .ok next) :
    src.nextChars (n + 1) o = src.nextChars n next := by
  rw [nextChars, h]
  rfl

theorem characters_of_isEnd {src : Source} (h : src.isEnd o) : src.characters o = .ok [] := by
  rw [characters, if_pos h]

theorem characters_of_nextChar {src : Source} (ho : o < src.length)
    (h : src.nextChar o = .ok next) : src.characters o =
      (do return (← src.char? o) :: (← src.characters next)) := by
  have ho : ¬src.isEnd o := by simpa [isEnd] using ho
  rw [characters, if_neg ho]
  split
  case h_1 hf => cases h.symm.trans hf
  case h_2 hn => cases h.symm.trans hn; rfl

theorem Reads.characters {src : Source} {cs : List Char} (h : src.Reads o cs) :
    src.characters o = .ok (cs.map some) := by
  induction cs generalizing o
  case nil          => exact characters_of_isEnd (by simp [isEnd, h.length_eq])
  case cons c cs hi =>
    rw [characters_of_nextChar h.lt_length h.nextChar, h.char?, hi h.tail]
    rfl

theorem Between.nextBoundary {c : Char} (h : Between text o next (.singleton c)) :
    NextBoundary text o next := by
  obtain ⟨before, behind, rfl, rfl, rfl⟩ := h
  have hc : (before ++ String.singleton c).utf8ByteSize = before.utf8ByteSize + c.utf8Size := by
    simp
  constructor
  case lt       => have := c.utf8Size_pos; omega
  case boundary => exact String.Pos.Raw.isValid_iff_exists_append.mpr ⟨_, behind, rfl, rfl⟩
  case least    =>
    intro p hp h
    rcases String.Pos.Raw.isValid_append.mp h with h | ⟨h, _⟩
    case inr => exact h
    case inl =>
      rcases String.Pos.Raw.isValid_append.mp h with h | ⟨_, h⟩
      case inl => exact absurd h.le_rawEndPos (Nat.not_le.mpr hp)
      case inr =>
        have hs := String.Pos.Raw.isValid_singleton.mp h
        simp [String.Pos.Raw.ext_iff] at hs
        omega

-- The bytes that no character starts with count for themselves.
theorem width_ofNat_of_not_first : ∀ n < 256, ¬(UInt8.ofNat n).IsUTF8FirstByte →
    width (UInt8.ofNat n) = 1 := by
  decide +kernel

theorem width_of_not_first {b : UInt8} (h : ¬b.IsUTF8FirstByte) : width b = 1 := by
  have := width_ofNat_of_not_first b.toNat b.toNat_lt
  rw [UInt8.ofNat_toNat] at this
  exact this h

section

variable (hl : text.utf8ByteSize ≤ maxLength)
include hl

theorem Boundary.reads (h : Boundary text o) : ∃ before behind,
    text = before ++ behind ∧ before.utf8ByteSize = o ∧ (ofString text).Reads o behind.toList := by
  obtain ⟨before, behind, rfl, hb⟩ := String.Pos.Raw.isValid_iff_exists_append.mp h
  have hb : o = before.utf8ByteSize := congrArg String.Pos.Raw.byteIdx hb
  have hr := ofString_reads_append hl String.toList_append
  rw [Utf8.size_toList, ← hb] at hr
  exact ⟨before, behind, rfl, hb.symm, hr⟩

theorem step_of_boundary (ho : o < text.utf8ByteSize) (h : Boundary text o) : ∃ c next,
    Between text o next (.singleton c) ∧
      (ofString text).char? o = .ok (some c) ∧ (ofString text).nextChar o = .ok next := by
  obtain ⟨before, behind, rfl, rfl, hr⟩ := h.reads hl
  cases hb : behind.toList
  case nil =>
    have hle := hr.length_le_iff.mpr hb
    rw [length_ofString hl] at hle
    exact absurd hle (Nat.not_le.mpr ho)
  case cons c cs =>
    rw [hb] at hr
    refine ⟨c, _, ⟨before, .ofList cs, ?_, rfl, by simp⟩, hr.char?, hr.nextChar⟩
    simp [← String.toList_inj, hb]

theorem step_of_not_boundary (ho : o < text.utf8ByteSize) (h : ¬Boundary text o) :
    (ofString text).char? o = .ok none ∧ (ofString text).nextChar o = .ok (o + 1) := by
  have hn := length_ofString hl
  have ho' : o < text.toByteArray.size := ho
  have hb : ¬text.toByteArray[o].IsUTF8FirstByte := fun hb =>
    h (String.Pos.Raw.isValid_iff_isUTF8FirstByte.mpr (.inr ⟨ho, hb⟩))
  have hc : (ofString text).current o = .ok text.toByteArray[o] := by
    have := le_paddedSize text.toByteArray.size
    rw [ofString, current_ofBytes (by omega), getElem?_pos text.toByteArray o ho', Option.getD_some]
  have he : (ofString text).characterEnd o = .ok (o + 1) := by
    have := maxLength_succ
    have hg : Fault.guard32 (o + 1) = .ok (o + 1) := if_pos (by omega)
    simp only [characterEnd, hc, bind, Except.bind, width_of_not_first hb, hg, hn]
    exact congrArg _ (Nat.min_eq_left ho)
  have hs : (ofString text).slice o (o + 1) = .ok "" :=
    slice_of_cut hl (Nat.le_succ o) ho fun hb => h hb.left
  have hi : ¬(ofString text).isEnd o := by simpa [isEnd, hn] using ho
  constructor
  case left =>
    rw [char?, if_neg hi, he]
    simp only [bind, Except.bind, hs]
    rfl
  case right => rw [nextChar, if_neg hi, he]

theorem nextChar_le (ho : o < text.utf8ByteSize) : ∃ p, (ofString text).nextChar o = .ok p ∧
    o < p ∧ p ≤ text.utf8ByteSize ∧ ∀ q, o < q → Boundary text q → p ≤ q := by
  by_cases h : Boundary text o
  case pos =>
    have ⟨c, p, hb, _, hp⟩ := step_of_boundary hl ho h
    have hn := hb.nextBoundary
    exact ⟨p, hp, hn.lt, hn.boundary.le_rawEndPos, hn.least⟩
  case neg => exact ⟨o + 1, (step_of_not_boundary hl ho h).right, by omega, ho, fun _ hq _ => hq⟩

-- The induction is on what is left of the text. The end of the text is a boundary, so that the
-- steps cannot run out of text before they come to one.
theorem exists_nextChars (ho : o < text.utf8ByteSize) : ∃ next,
    NextBoundary text o next ∧ ∃ n, (ofString text).nextChars n o = .ok next := by
  induction hk : text.utf8ByteSize - o using Nat.strongRecOn generalizing o
  case ind k hi =>
    have ⟨p, hp, hlt, hle, hq⟩ := nextChar_le hl ho
    by_cases hb : Boundary text p
    case pos => exact ⟨p, ⟨hlt, hb, hq⟩, 1, nextChars_succ hp⟩
    case neg =>
      have hne : p ≠ text.utf8ByteSize := fun he => hb (he ▸ String.Pos.Raw.isValid_rawEndPos)
      have ⟨next, hn, n, hs⟩ := hi _ (by omega) (Nat.lt_of_le_of_ne hle hne) rfl
      exact ⟨next, hn.of_lt hlt hb hq, n + 1, (nextChars_succ hp).trans hs⟩

end

structure Exact (text : String) (src : Source) : Prop where
  boundary   : ∀ o < text.utf8ByteSize, Boundary text o → ∃ c next,
                 Between text o next (.singleton c) ∧ src.char? o = .ok (some c) ∧
                   NextBoundary text o next ∧ src.nextChar o = .ok next
  inside     : ∀ o < text.utf8ByteSize, ¬Boundary text o →
                 src.char? o = .ok none ∧ src.nextChar o = .ok (o + 1)
  characters : src.characters 0 = .ok (text.toList.map some)
  reaches    : ∀ o < text.utf8ByteSize, ∃ next,
                 NextBoundary text o next ∧ ∃ n, src.nextChars n o = .ok next

-- Steps by characters are exact at each offset of a text.
theorem ofString_exact (text : String) (h : text.utf8ByteSize ≤ maxLength) :
    Exact text (ofString text) := by
  constructor
  case boundary =>
    intro o ho hb
    have ⟨c, next, hc, hr, hn⟩ := step_of_boundary h ho hb
    exact ⟨c, next, hc, hr, hc.nextBoundary, hn⟩
  case inside     => exact fun o ho hb => step_of_not_boundary h ho hb
  case characters => exact (ofString_reads h).characters
  case reaches    => exact fun o ho => exists_nextChars h ho

-- The third character starts at 3 and takes four bytes, and at 2 and at 5 no character starts.
theorem ofString_exact_clef :
    let text := "aé𝄞"
    let src := ofString text
    text.utf8ByteSize ≤ maxLength ∧
      (∃ c next, Between text 3 next (.singleton c) ∧ src.char? 3 = .ok (some c) ∧
        NextBoundary text 3 next ∧ src.nextChar 3 = .ok next) ∧
      (src.char? 5 = .ok none ∧ src.nextChar 5 = .ok 6) ∧
      src.characters 0 = .ok [some 'a', some 'é', some '𝄞'] ∧
      ∃ next, NextBoundary text 2 next ∧ ∃ n, src.nextChars n 2 = .ok next := by
  intro text src
  have hl : text.utf8ByteSize ≤ maxLength := by decide
  have h := ofString_exact text hl
  refine ⟨hl, ?boundary, ?inside, ?characters, ?reaches⟩
  case boundary   => exact h.boundary 3 (by decide) (by decide)
  case inside     => exact h.inside 5 (by decide) (by decide)
  case characters =>
    have ht : text.toList = ['a', 'é', '𝄞'] := by decide
    rw [h.characters, ht]
    rfl
  case reaches    => exact h.reaches 2 (by decide)

end LoxLex.Source
