import LoxLex.Proofs.Scan.Found
import LoxLex.Proofs.Scan.Trace

namespace LoxLex

namespace Piece

-- Enough to tell that a piece ends in front of it: two bytes, or one that is no point.
structure Settles (rest : List Char) : Prop where
  ne_nil   : rest ≠ []
  ne_point : rest ≠ ['.']

namespace Settles

variable {c : Char} {cs xs rest : List Char}

theorem of_size (h : 2 ≤ Utf8.size rest) : Settles rest where
  ne_nil   := by rintro rfl; contradiction
  ne_point := by rintro rfl; contradiction

theorem of_head (h : c ≠ '.') : Settles (c :: cs) where
  ne_nil   := List.cons_ne_nil c cs
  ne_point := fun he => h (List.cons.inj he).left

theorem append (h : Settles rest) : Settles (xs ++ rest) where
  ne_nil   := fun he => h.ne_nil (List.append_eq_nil_iff.mp he).right
  ne_point := fun he => by
    rcases List.append_eq_singleton_iff.mp he with ⟨_, hr⟩ | ⟨_, hr⟩
    case inl => exact h.ne_point hr
    case inr => exact h.ne_nil hr

end Settles

theorem eq_unexpected_of_error? {p : Piece} {line n : Nat} {next? : Option Char} {c : Char}
    (h : p.error? line next? = some (.unexpected n c)) : p = unexpected c ∧ line = n := by
  cases p
  case unexpected =>
    cases h
    exact ⟨rfl, rfl⟩
  case number =>
    simp only [error?] at h
    split at h <;> cases h
  all_goals cases h

theorem Fits.append_settled {p : Piece} {rest xs : List Char} (h : p.Fits rest)
    (hr : Settles rest) : p.Fits (rest ++ xs) :=
  h.append hr.ne_nil (absurd · hr.ne_point)

end Piece

namespace Scan

open Piece

-- The index of a token, and the offset its lexeme ends at.
inductive EndsAt (source : String) : Nat → Token → Nat → Prop
  | step : Trace (.ofString source) 0 1 (xs ++ x :: ys) last → x.2.token? = some token →
           EndsAt source (xs.filterMap (·.2.token?)).length token x.2.offset

variable {text s t : String} {o line stop last : Nat} {p : Piece}
variable {xs ys : List (Nat × Step)} {before behind ahead rest : List Char}

theorem Trace.scan_eq (h : Trace (.ofString text) 0 1 xs last) : scan text = .ofSteps xs last := by
  rw [scan, Extent.part, h.ofSource?_eq]

theorem lt_maxLength_of_append (h : (s ++ t).utf8ByteSize < Source.maxLength) :
    s.utf8ByteSize < Source.maxLength :=
  Nat.lt_of_le_of_lt (String.utf8ByteSize_append ▸ Nat.le_add_right ..) h

namespace Stands

theorem add_size (h : Stands text o line before ahead) :
    o + Utf8.size ahead = text.utf8ByteSize := by
  rw [h.offset_eq, ← Utf8.size_append, ← h.text_eq, Utf8.size_toList]

theorem append_text (h : Stands s o line before ahead) (t : String) :
    Stands (s ++ t) o line before (ahead ++ t.toList) where
  text_eq   := by rw [String.toList_append, h.text_eq, List.append_assoc]
  offset_eq := h.offset_eq
  line_eq   := h.line_eq

theorem lt_length (hs : text.utf8ByteSize < Source.maxLength)
    (h : Stands text o line before ahead) (hn : ahead ≠ []) : o < (Source.ofString text).length :=
  Nat.not_le.mp (mt (h.reads hs).length_le_iff.mp hn)

theorem step_piece (hs : text.utf8ByteSize < Source.maxLength)
    (h : Stands text o line before (p.text ++ rest)) (hf : p.Fits rest) :
    step (.ofString text) o line = .ok (.ofPiece o line p rest) := by
  cases ht : p.text ++ rest
  case nil => exact absurd ht (List.append_ne_nil_of_left_ne_nil hf.text_ne_nil rest)
  case cons c cs =>
    have he := (ht ▸ h).step_eq hs
    rwa [first_of_fits hf ht] at he

theorem step_append (hs : (s ++ t).utf8ByteSize < Source.maxLength)
    (h : Stands s o line before (p.text ++ rest)) (hf : p.Fits rest) (hr : Settles rest) :
    step (.ofString (s ++ t)) o line = .ok (.ofPiece o line p rest) := by
  have ht := h.append_text t
  rw [List.append_assoc] at ht
  have hh : (rest ++ t.toList).head? = rest.head? := by
    rw [List.head?_append, List.head?_eq_some_head hr.ne_nil, Option.some_or]
  rw [ht.step_piece hs (hf.append_settled hr), Step.ofPiece, Step.ofPiece, hh]

end Stands

-- All steps before a settled one are settled.
theorem Path.append (hs : (s ++ t).utf8ByteSize < Source.maxLength)
    (hp : Path (.ofString s) o line xs stop last) (h : Stands s o line before ahead)
    (he : Stands s stop last behind rest) (hr : Settles rest) :
    Path (.ofString (s ++ t)) o line xs stop last := by
  have hl := lt_maxLength_of_append hs
  -- What settles the last step stands behind each step before it, too.
  induction hp generalizing before ahead
  case here => exact .here
  case step ho hx ht hi =>
    obtain ⟨p, ahead, rfl, hf, rfl⟩ := h.step_cases hl ho hx
    have ⟨taken, left, ha, hl⟩ := ht.stands hl h.append
    cases (hl.unique he).right.left
    have hn : p.text ++ ahead ++ t.toList ≠ [] := by simp [hf.text_ne_nil]
    have hx := h.step_append hs hf (ha ▸ hr.append)
    exact .step ((h.append_text t).lt_length hs hn) hx (hi h.append he)

theorem Trace.takes (hs : text.utf8ByteSize < Source.maxLength) {x : Nat × Step}
    (ht : Trace (.ofString text) 0 1 (xs ++ x :: ys) last) :
    ∃ line before p rest, Path (.ofString text) 0 1 xs x.1 line ∧
      Stands text x.1 line before (p.text ++ rest) ∧ p.Fits rest ∧
        x.2 = .ofPiece x.1 line p rest := by
  obtain ⟨ha, -⟩ := ht
  obtain ⟨o, line, hp, ht⟩ := ha.split
  obtain ⟨taken, ahead, -, h⟩ := hp.stands hs (.start text)
  cases ht
  case step ho hx _ =>
    obtain ⟨p, rest, rfl, hf, hx⟩ := h.step_cases hs ho hx
    exact ⟨line, _, p, rest, hp, h, hf, hx⟩

-- If what a step of a scan takes is the same in a longer source, then so are all steps before.
theorem Path.exists_trace (hs : (s ++ t).utf8ByteSize < Source.maxLength)
    (hp : Path (.ofString s) 0 1 xs o line) (h : Stands s o line before (p.text ++ rest))
    (hr : Settles (p.text ++ rest)) (hf : p.Fits (rest ++ t.toList)) :
    ∃ zs last, Trace (.ofString (s ++ t)) 0 1
      (xs ++ (o, .ofPiece o line p (rest ++ t.toList)) :: zs) last := by
  have ha := h.append_text t
  rw [List.append_assoc] at ha
  have ho := ha.lt_length hs (List.append_ne_nil_of_left_ne_nil hf.text_ne_nil _)
  have ⟨zs, ht, _⟩ := ha.append.exists_path hs
  have hp := (hp.append hs (.start s) h hr).trans (.step ho (ha.step_piece hs hf) ht)
  exact ⟨zs, _, .ends hp (Nat.le_refl _)⟩

section

variable {α β : Type} {f : α → Option β} {a : α} {b : β} {as bs : List α}

theorem getElem?_filterMap_append (h : f a = some b) :
    ((as ++ a :: bs).filterMap f)[(as.filterMap f).length]? = some b := by
  rw [List.filterMap_append, List.filterMap_cons_some h, List.getElem?_append_right (Nat.le_refl _),
    Nat.sub_self, List.getElem?_cons_zero]

theorem exists_of_getElem?_filterMap {i : Nat} (h : (as.filterMap f)[i]? = some b) :
    ∃ xs x ys, as = xs ++ x :: ys ∧ f x = some b ∧ (xs.filterMap f).length = i := by
  have ⟨hi, hb⟩ := List.getElem?_eq_some_iff.mp h
  have he := (List.filterMap f as).take_append_drop i
  rw [List.drop_eq_getElem_cons hi, hb] at he
  obtain ⟨xs, zs, has, hx, hz⟩ := List.filterMap_eq_append_iff.mp he.symm
  obtain ⟨ws, x, ys, hzs, hw, hf, _⟩ := List.filterMap_eq_cons_iff.mp hz
  refine ⟨xs ++ ws, x, ys, by rw [has, hzs, List.append_assoc], hf, ?_⟩
  rw [List.filterMap_append, hx, List.filterMap_eq_nil_iff.mpr hw, List.append_nil,
    List.length_take, Nat.min_eq_left (Nat.le_of_lt hi)]

end

variable {token : Token} {i : Nat}

theorem EndsAt.getElem? (h : EndsAt text i token stop) : (scan text).tokens[i]? = some token := by
  cases h
  case step xs x ys last ht hx =>
    have he : ((xs ++ x :: ys).filterMap (·.2.token?))[(xs.filterMap (·.2.token?)).length]? =
        some token := getElem?_filterMap_append hx
    have hl := (List.getElem?_eq_some_iff.mp he).choose
    rw [ht.scan_eq, ofSteps, List.getElem?_append_left hl, he]

theorem exists_endsAt (hs : text.utf8ByteSize < Source.maxLength)
    (h : (scan text).tokens[i]? = some token) (hk : token.kind ≠ .eof) :
    ∃ before behind, text.toList = before ++ token.lexeme.toList ++ behind ∧
      EndsAt text i token (Utf8.size (before ++ token.lexeme.toList)) := by
  obtain ⟨steps, ht, -⟩ := (Stands.start text).exists_trace hs
  rw [ht.scan_eq, ofSteps, List.getElem?_append] at h
  split at h
  case isTrue =>
    obtain ⟨xs, x, ys, rfl, hx, rfl⟩ := exists_of_getElem?_filterMap h
    obtain ⟨line, before, p, rest, -, hst, -, he⟩ := ht.takes hs
    have hl : token.lexeme.toList = p.text := by
      rw [he] at hx
      rw [lexeme_of_token? hx, String.toList_ofList]
    have ho : x.2.offset = Utf8.size (before ++ token.lexeme.toList) := by
      rw [he, hl, Step.ofPiece, hst.offset_eq, Utf8.size_append]
    exact ⟨before, rest, hl ▸ hst.append.text_eq, ho ▸ .step ht hx⟩
  case isFalse =>
    cases List.mem_singleton.mp (List.mem_of_getElem? h)
    exact absurd rfl hk

theorem EndsAt.append (hs : (s ++ t).utf8ByteSize < Source.maxLength) (h : EndsAt s i token stop)
    (hl : stop + 2 ≤ s.utf8ByteSize) : EndsAt (s ++ t) i token stop := by
  cases h
  case step ht hx =>
    obtain ⟨line, before, p, rest, hp, h, hf, he⟩ := ht.takes (lt_maxLength_of_append hs)
    rw [he] at hl hx ⊢
    have hr : Settles rest := by
      have := h.append.add_size
      simp only [Step.ofPiece] at hl
      exact .of_size (by omega)
    obtain ⟨zs, last, ht⟩ := hp.exists_trace hs h hr.append (hf.append_settled hr)
    exact .step ht hx

-- A character that is unexpected is so in every longer source, and settles all that is before.
theorem getElem?_errors_append (hs : (s ++ t).utf8ByteSize < Source.maxLength) {c : Char}
    (h : (scan s).errors[i]? = some (.unexpected line c)) :
    (scan (s ++ t)).errors[i]? = some (.unexpected line c) := by
  have hl := lt_maxLength_of_append hs
  obtain ⟨steps, ht, -⟩ := (Stands.start s).exists_trace hl
  rw [ht.scan_eq] at h
  obtain ⟨xs, x, ys, rfl, hx, rfl⟩ := exists_of_getElem?_filterMap h
  obtain ⟨line', before, p, rest, hp, hst, hf, he⟩ := ht.takes hl
  rw [he] at hx
  obtain ⟨rfl, rfl⟩ := eq_unexpected_of_error? hx
  have hr : Settles ((Piece.unexpected c).text ++ rest) :=
    .of_head fun hc => hf.operator .dot (hc ▸ rfl)
  obtain ⟨zs, last, ht⟩ := hp.exists_trace hs hst hr hf
  rw [ht.scan_eq]
  exact getElem?_filterMap_append (f := fun x : Nat × Step => x.2.error?) rfl

structure Stable (s t : String) : Prop where
  ends       : ∀ i token, (scan s).tokens[i]? = some token → token.kind ≠ .eof →
                 ∃ before behind, s.toList = before ++ token.lexeme.toList ++ behind ∧
                   EndsAt s i token (Utf8.size (before ++ token.lexeme.toList))
  token      : ∀ i token stop, EndsAt s i token stop → stop + 2 ≤ s.utf8ByteSize →
                 (scan s).tokens[i]? = some token ∧ (scan (s ++ t)).tokens[i]? = some token
  unexpected : ∀ (i line : Nat) (c : Char),
                 (scan s).errors[i]? = some (.unexpected line c) →
                   (scan (s ++ t)).errors[i]? = some (.unexpected line c)

end Scan

-- No text that is appended later changes a token that is followed by two more bytes.
theorem scan_append_stable (s t : String)
    (h : s.utf8ByteSize + t.utf8ByteSize < Source.maxLength) : Scan.Stable s t := by
  have hs : (s ++ t).utf8ByteSize < Source.maxLength := String.utf8ByteSize_append ▸ h
  have hl := Scan.lt_maxLength_of_append hs
  constructor
  case ends       => exact fun _ _ ht hk => Scan.exists_endsAt hl ht hk
  case token      => exact fun _ _ _ he hl => ⟨he.getElem?, (he.append hs hl).getElem?⟩
  case unexpected => exact fun _ _ _ he => Scan.getElem?_errors_append hs he

-- The equals sign at the end is not settled, but the point and the character before it are.
theorem scan_append_stable_halves :
    let point : Token := ⟨.operator .dot, ".", none, 1⟩
    "1.é=".utf8ByteSize + "= 2\"".utf8ByteSize < Source.maxLength ∧
      Scan.EndsAt "1.é=" 1 point 2 ∧ 2 + 2 ≤ "1.é=".utf8ByteSize ∧
        (scan ("1.é=" ++ "= 2\"")).tokens[1]? = some point ∧
          (scan "1.é=").errors[1]? = some (.unexpected 1 'é') ∧
            (scan ("1.é=" ++ "= 2\"")).errors[1]? = some (.unexpected 1 'é') := by
  intro point
  have hl : "1.é=".utf8ByteSize + "= 2\"".utf8ByteSize < Source.maxLength := by decide
  have hs : Piece.split "1.é=".toList =
      [.number ⟨['1'], []⟩, .operator .dot, .unexpected 'é', .operator .equal] := by
    refine (Piece.split_cons rfl).trans (congrArg _ ?_)
    refine (Piece.split_cons rfl).trans (congrArg _ ?_)
    refine (Piece.split_cons rfl).trans (congrArg _ ?_)
    exact (Piece.split_cons rfl).trans (congrArg _ Piece.split_nil)
  have hp : scan "1.é=" = .ofPieces _ := hs ▸ scan_part_eq .whole (by decide)
  have h := scan_append_stable "1.é=" "= 2\"" hl
  have ht : (scan "1.é=").tokens[1]? = some point := hp ▸ rfl
  have he : (scan "1.é=").errors[1]? = some (.unexpected 1 'é') := hp ▸ rfl
  have ⟨before, behind, hb, ho⟩ := h.ends 1 point ht (by decide)
  have hb : ['1', '.', 'é', '='] = before ++ '.' :: behind := by simpa [point] using hb
  have hb : before = ['1'] := by
    match before with
    | []                    => simp at hb
    | [_]                   => rw [(List.cons.inj hb).left]
    | [_, _]                => simp at hb
    | [_, _, _]             => simp at hb
    | _ :: _ :: _ :: _ :: _ => simp at hb
  have hz : Utf8.size (['1'] ++ point.lexeme.toList) = 2 := by decide
  rw [hb, hz] at ho
  exact ⟨hl, ho, by decide, (h.token 1 point 2 ho (by decide)).right, he, h.unexpected 1 1 'é' he⟩

end LoxLex
