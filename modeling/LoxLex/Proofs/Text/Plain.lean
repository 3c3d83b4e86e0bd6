import LoxLex.Proofs.Text.Digits
import LoxLex.Text.Unprintable
import Mathlib.Data.List.Chain

namespace LoxLex

variable {c : Char}

def InRanges (rs : List (Nat × Nat)) (c : Char) : Prop :=
  ∃ r ∈ rs, r.1 ≤ c.toNat ∧ c.toNat ≤ r.2

namespace Unprintable

def Before (a b : Nat × Nat) : Prop :=
  a.2 < b.1 ∧ b.1 ≤ b.2

instance : DecidableRel Before :=
  fun a b => inferInstanceAs (Decidable (a.2 < b.1 ∧ b.1 ≤ b.2))

instance : IsTrans (Nat × Nat) Before where
  trans _ _ _ hab hbc := ⟨(hab.left.trans_le hab.right).trans hbc.left, hbc.right⟩

-- It is enough to compare neighbours.
theorem pairwise_ranges : ranges.Pairwise Before := by
  have h : ranges.IsChain Before := by decide +kernel
  exact h.pairwise

theorem find?_eq_of_mem {rs : List (Nat × Nat)} {r : Nat × Nat} {n : Nat} (h : rs.Pairwise Before)
    (hr : r ∈ rs) (hf : r.1 ≤ n) (hl : n ≤ r.2) :
    (rs.find? fun r => n ≤ r.2) = some r := by
  induction rs
  case nil => contradiction
  case cons q rs hi =>
    have ⟨hq, h⟩ := List.pairwise_cons.mp h
    rcases List.mem_cons.mp hr with rfl | hr
    case inl => exact List.find?_cons_of_pos (decide_eq_true hl)
    case inr =>
      have hb := (hq r hr).left
      rw [List.find?_cons_of_neg (by simp; omega)]
      exact hi h hr

end Unprintable

open Unprintable

theorem isUnprintable_iff : isUnprintable c ↔ InRanges ranges c := by
  have hd : isUnprintable c =
      (ranges.find? fun r => c.toNat ≤ r.2).any fun r => r.1 ≤ c.toNat := rfl
  rw [hd, Option.any_eq_true]
  constructor
  case mp =>
    intro ⟨r, hr, hf⟩
    have hl := List.find?_some hr
    exact ⟨r, List.mem_of_find?_eq_some hr, of_decide_eq_true hf, of_decide_eq_true hl⟩
  case mpr =>
    intro ⟨r, hr, hf, hl⟩
    exact ⟨r, find?_eq_of_mem pairwise_ranges hr hf hl, decide_eq_true hf⟩

-- The controls with an escape of their own.
def shortControls : List Char :=
  ['\x00', '\t', '\n', '\r']

structure Plain (c : Char) : Prop where
  printable : ¬isUnprintable c
  notShort  : c ∉ shortControls

namespace Plain

-- The characters of ASCII from the space to the tilde.
def isShown (c : Char) : Bool :=
  0x20 ≤ c.toNat ∧ c.toNat ≤ 0x7e

theorem of_isShown (h : isShown c) : Plain c where
  printable := by
    intro hu
    obtain ⟨r, hr, hf, hl⟩ := isUnprintable_iff.mp hu
    have hs : ∀ r ∈ ranges, r.2 < 0x20 ∨ 0x7e < r.1 := by decide +kernel
    have ⟨_, _⟩ := of_decide_eq_true h
    rcases hs r hr with hs | hs <;> omega
  notShort  := by
    intro hm
    have hs : shortControls.all (!isShown ·) := rfl
    have hc := List.all_eq_true.mp hs c hm
    simp [h] at hc

theorem forall_of_isShown {cs : List Char} (h : cs.all isShown) : ∀ c ∈ cs, Plain c :=
  fun c hc => of_isShown (List.all_eq_true.mp h c hc)

theorem of_mem_toDigits {b n : Nat} (hb : 1 < b) (hm : b ≤ 16) :
    ∀ c ∈ Nat.toDigits b n, Plain c := by
  intro c hc
  obtain ⟨d, hd, rfl⟩ := Digits.exists_of_mem hb hc
  have ha : ∀ d < 16, isShown d.digitChar := by decide
  exact of_isShown (ha d (hd.trans_le hm))

theorem ne_newline (h : Plain c) : c ≠ '\n' :=
  fun hc => h.notShort (hc ▸ by decide)

theorem newline_not_mem {cs : List Char} (h : ∀ c ∈ cs, Plain c) : '\n' ∉ cs :=
  fun hm => (h _ hm).ne_newline rfl

-- The Unicode category Cc.
def controls : List (Nat × Nat) :=
  [(0x0, 0x1f), (0x7f, 0x9f)]

-- The Unicode property Bidi_Control, of what sets the direction of text.
def directions : List (Nat × Nat) :=
  [(0x61c, 0x61c), (0x200e, 0x200f), (0x202a, 0x202e), (0x2066, 0x2069)]

-- The Unicode blocks of combining marks.
def combiningMarks : List (Nat × Nat) :=
  [(0x300, 0x36f), (0x1ab0, 0x1aff), (0x1dc0, 0x1dff), (0x20d0, 0x20ff), (0xfe20, 0xfe2f)]

theorem not_inRanges {qs : List (Nat × Nat)}
    (hs : ∀ q ∈ qs, ∃ r ∈ ranges, r.1 ≤ q.1 ∧ q.2 ≤ r.2) (h : Plain c) : ¬InRanges qs c := by
  intro ⟨q, hq, hf, hl⟩
  have ⟨r, hr, hrf, hrl⟩ := hs q hq
  exact h.printable (isUnprintable_iff.mpr ⟨r, hr, hrf.trans hf, hl.trans hrl⟩)

theorem not_direction (h : Plain c) : ¬InRanges directions c :=
  h.not_inRanges (by decide +kernel)

theorem not_combiningMark (h : Plain c) : ¬InRanges combiningMarks c :=
  h.not_inRanges (by decide +kernel)

theorem not_control (h : Plain c) : ¬InRanges controls c := by
  intro ⟨r, hr, hf, hl⟩
  have hs : ∀ r ∈ controls, ∀ n < 0xa0, r.1 ≤ n → n ≤ r.2 →
      .ofNat n ∈ shortControls ∨ isUnprintable (.ofNat n) := by decide +kernel
  have he : ∀ r ∈ controls, r.2 < 0xa0 := by decide
  have hu := hs r hr c.toNat (hl.trans_lt (he r hr)) hf hl
  rw [Char.ofNat_toNat] at hu
  exact hu.elim h.notShort h.printable

end Plain
end LoxLex
