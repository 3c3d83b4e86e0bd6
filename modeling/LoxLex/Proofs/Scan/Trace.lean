import LoxLex.Proofs.Scan.Pieces

namespace LoxLex

namespace Scan

open Piece

-- The steps of a scan from an offset and a line to others, each with the offset it starts from.
inductive Path (src : Source) : Nat → Nat → List (Nat × Step) → Nat → Nat → Prop
  | here : Path src o line [] o line
  | step : o < src.length → step src o line = .ok s → Path src s.offset s.line steps stop last →
           Path src o line ((o, s) :: steps) stop last

-- The steps up to the end of the source, and the line there.
inductive Trace (src : Source) (o line : Nat) (steps : List (Nat × Step)) (last : Nat) : Prop
  | ends : Path src o line steps stop last → src.length ≤ stop → Trace src o line steps last

def ofSteps (steps : List (Nat × Step)) (last : Nat) : Scan where
  tokens := steps.filterMap (·.2.token?) ++ [.eof last]
  errors := steps.filterMap (·.2.error?)

-- A step takes the piece that stands where it starts.
inductive Takes (text : String) : Nat × Step → Prop
  | piece : Stands text o line before (p.text ++ rest) → p.Fits rest →
            Takes text (o, .ofPiece o line p rest)

variable {src : Source} {text : String} {o line stop last : Nat} {steps xs ys : List (Nat × Step)}
variable {tokens : List Token} {errors : List Error} {before ahead : List Char}

theorem filterMap_cons_toList {f : α → Option β} {a : α} {as : List α} :
    (a :: as).filterMap f = (f a).toList ++ as.filterMap f := by
  rw [List.filterMap_cons]
  cases f a <;> rfl

namespace Path

theorem trans {middle line' : Nat} (hx : Path src o line xs middle line')
    (hy : Path src middle line' ys stop last) : Path src o line (xs ++ ys) stop last := by
  induction hx
  case here            => exact hy
  case step ho hs _ hi => exact .step ho hs (hi hy)

theorem split (h : Path src o line (xs ++ ys) stop last) :
    ∃ middle line', Path src o line xs middle line' ∧ Path src middle line' ys stop last := by
  induction xs generalizing o line
  case nil => exact ⟨o, line, .here, h⟩
  case cons x xs hi =>
    cases h
    case step ho hs ht =>
      have ⟨middle, line', hx, hy⟩ := hi ht
      exact ⟨middle, line', .step ho hs hx, hy⟩

theorem loop_eq (h : Path src o line steps stop last) (hl : src.length ≤ stop) :
    loop src o line tokens errors = .ok {
      tokens := tokens.reverse ++ (ofSteps steps last).tokens
      errors := errors.reverse ++ (ofSteps steps last).errors
    } := by
  induction h generalizing tokens errors
  case here => simp [loop_of_length_le hl, ofSteps]
  case step ho hs _ hi =>
    rw [loop_of_step ho hs, hi hl]
    simp only [ofSteps, filterMap_cons_toList, List.reverse_append, reverse_toList,
      List.append_assoc]

end Path

theorem Trace.ofSource?_eq (h : Trace src 0 1 steps last) :
    ofSource? src = .ok (ofSteps steps last) :=
  let ⟨hp, hl⟩ := h
  hp.loop_eq hl

theorem Stands.unique {line' : Nat} {before' ahead' : List Char}
    (h : Stands text o line before ahead) (h' : Stands text o line' before' ahead') :
    before = before' ∧ ahead = ahead' ∧ line = line' := by
  have he : before ++ ahead = before' ++ ahead' := h.text_eq.symm.trans h'.text_eq
  have hs : Utf8.size before = Utf8.size before' := h.offset_eq.symm.trans h'.offset_eq
  have hb : before = before' := by
    have hp : before <+: before' ++ ahead' := he ▸ List.prefix_append ..
    rcases List.prefix_or_prefix_of_prefix hp (List.prefix_append ..) with hp | hp
    case inl => exact Utf8.eq_of_prefix_of_size_le hp (Nat.le_of_eq hs.symm)
    case inr => exact (Utf8.eq_of_prefix_of_size_le hp (Nat.le_of_eq hs)).symm
  cases hb
  exact ⟨rfl, List.append_cancel_left he, h.line_eq.trans h'.line_eq.symm⟩

namespace Stands

theorem step_cases {x : Step} (hs : text.utf8ByteSize < Source.maxLength)
    (h : Stands text o line before ahead) (ho : o < (Source.ofString text).length)
    (hx : step (.ofString text) o line = .ok x) :
    ∃ p rest, ahead = p.text ++ rest ∧ p.Fits rest ∧ x = .ofPiece o line p rest := by
  cases ahead
  case nil => exact absurd ((h.reads hs).length_le_iff.mpr rfl) (Nat.not_le.mpr ho)
  case cons c cs =>
    cases (h.step_eq hs).symm.trans hx
    exact ⟨_, _, (text_first c cs).symm, fits_first c cs, rfl⟩

-- From each place in a text the steps go on to its end.
theorem exists_path (hs : text.utf8ByteSize < Source.maxLength)
    (h : Stands text o line before ahead) :
    ∃ steps, Path (.ofString text) o line steps (Source.ofString text).length
        (line + ahead.count '\n') ∧ ∀ x ∈ steps, Takes text x := by
  fun_induction split ahead generalizing o line before
  case case1 => exact ⟨[], (h.reads hs).length_eq ▸ .here, by simp⟩
  case case2 c cs _ hi =>
    obtain ⟨steps, ht, hx⟩ := hi h.next
    rw [Nat.add_assoc, ← count_first] at ht
    have hp := h
    rw [← text_first c cs] at hp
    refine ⟨_, .step (h.reads hs).lt_length (h.step_eq hs) ht, ?_⟩
    exact List.forall_mem_cons.mpr ⟨.piece hp (fits_first c cs), hx⟩

theorem exists_trace (hs : text.utf8ByteSize < Source.maxLength)
    (h : Stands text o line before ahead) :
    ∃ steps, Trace (.ofString text) o line steps (line + ahead.count '\n') ∧
      ∀ x ∈ steps, Takes text x :=
  have ⟨steps, hp, hx⟩ := h.exists_path hs
  ⟨steps, .ends hp (Nat.le_refl _), hx⟩

end Stands

namespace Path

-- What the steps have taken stands before the place they lead to.
theorem stands (hs : text.utf8ByteSize < Source.maxLength)
    (hp : Path (.ofString text) o line steps stop last) (h : Stands text o line before ahead) :
    ∃ taken rest, ahead = taken ++ rest ∧ Stands text stop last (before ++ taken) rest := by
  induction hp generalizing before ahead
  case here => exact ⟨[], ahead, rfl, by rwa [List.append_nil]⟩
  case step ho hx _ hi =>
    obtain ⟨p, rest, rfl, -, rfl⟩ := h.step_cases hs ho hx
    have ⟨taken, rest, ha, hr⟩ := hi h.append
    exact ⟨p.text ++ taken, rest, by rw [ha, List.append_assoc], List.append_assoc .. ▸ hr⟩

theorem length_le (hs : text.utf8ByteSize < Source.maxLength)
    (hp : Path (.ofString text) o line steps stop last) (h : Stands text o line before ahead) :
    o + steps.length ≤ stop := by
  induction hp generalizing before ahead
  case here => exact Nat.le_refl _
  case step ho hx _ hi =>
    obtain ⟨p, rest, rfl, hf, rfl⟩ := h.step_cases hs ho hx
    have hn := Utf8.size_pos hf.text_ne_nil
    have hl := hi h.append
    simp only [Step.ofPiece, List.length_cons] at hl ⊢
    omega

end Path
end Scan

theorem scan_eq_ofSteps {source : String} (extent : Extent)
    (h : source.utf8ByteSize < Source.maxLength) :
    ∃ steps last, Scan.Trace (.ofString (extent.part source)) 0 1 steps last ∧
      last = 1 + (extent.part source).toList.count '\n' ∧
      scan source extent = .ofSteps steps last ∧
        ∀ x ∈ steps, Scan.Takes (extent.part source) x := by
  have hs := Nat.lt_of_le_of_lt extent.utf8ByteSize_part_le h
  have ⟨steps, ht, hx⟩ := (Scan.Stands.start (extent.part source)).exists_trace hs
  exact ⟨steps, _, ht, rfl, by rw [scan, ht.ofSource?_eq], hx⟩

end LoxLex
