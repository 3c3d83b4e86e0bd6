import LoxLex.Proofs.Scan.Step.Basic

namespace LoxLex.Scan

open Piece

variable {src : Source} {o line : Nat} {c : Char} {cs xs rest value : List Char}

def isDelimiter (c : Char) : Bool :=
  c == '"' || c == '\n'

theorem isDelimiter_agrees :
    Utf8.Agrees (fun b => b == Source.quote || b == Source.newline) isDelimiter :=
  fun c b hb => congr (congrArg or (quote_agrees c b hb)) (newline_agrees c b hb)

theorem findDelimiter_run (hr : Run (!isDelimiter ·) xs rest) (h : src.Reads o (xs ++ rest)) :
    src.findDelimiter o = .ok (o + Utf8.size xs, Utf8.front rest) := by
  rw [Source.findDelimiter, h.find isDelimiter_agrees, hr.takeWhile_eq, Fault.ok_bind,
    h.append.current]
  rfl

theorem findDelimiter_here (hd : ∀ c ∈ cs.head?, isDelimiter c) (h : src.Reads o cs) :
    src.findDelimiter o = .ok (o, Utf8.front cs) := by
  have hr : Run (!isDelimiter ·) [] cs := ⟨by simp, by simpa using hd⟩
  exact findDelimiter_run hr h

theorem findDelimiter_cons (hd : ¬isDelimiter c) (h : src.Reads o (c :: cs)) :
    ∃ stop b, src.findDelimiter o = .ok (stop, b) ∧
      src.findDelimiter (o + c.utf8Size) = .ok (stop, b) := by
  have hr := Run.span (!isDelimiter ·) cs
  have ht := cs.takeWhile_append_dropWhile (p := (!isDelimiter ·))
  generalize cs.takeWhile _ = xs at hr ht
  generalize cs.dropWhile _ = rest at hr ht
  subst ht
  refine ⟨_, _, findDelimiter_run (hr.cons (by simpa using hd)) h, ?_⟩
  rw [findDelimiter_run hr h.tail, Utf8.size_cons, Nat.add_assoc]

theorem stringEnd_of_findDelimiter {stop : Nat} {b : UInt8}
    (h : src.findDelimiter o = .ok (stop, b)) :
    stringEnd src o line =
      if b = Source.quote then
        .ok ⟨stop, line, true⟩
      else if b = Source.newline then
        if stop + 1 < UInt32.size ∧ line + 1 < UInt32.size then stringEnd src (stop + 1) (line + 1)
        else .error .overflow
      else
        .ok ⟨stop, line, false⟩ := by
  rw [stringEnd]
  split
  case h_1 he => rw [h] at he; cases he
  case h_2 he => rw [h] at he; cases he; rfl

theorem stringEnd_cons (hd : ¬isDelimiter c) (h : src.Reads o (c :: cs)) :
    stringEnd src o line = stringEnd src (o + c.utf8Size) line := by
  have ⟨_, _, hf, hf'⟩ := findDelimiter_cons hd h
  rw [stringEnd_of_findDelimiter hf, stringEnd_of_findDelimiter hf']

theorem stringEnd_newline (h : src.Reads o ('\n' :: cs)) (hl : line + 1 < UInt32.size) :
    stringEnd src o line = stringEnd src (o + 1) (line + 1) := by
  have hf := findDelimiter_here (by simp [isDelimiter]) h
  have hq : Utf8.front ('\n' :: cs) ≠ Source.quote := by
    rw [Utf8.front_cons]
    decide
  have hn : Utf8.front ('\n' :: cs) = Source.newline := rfl
  have ho : o + 1 < UInt32.size := h.add_lt
  rw [stringEnd_of_findDelimiter hf, if_neg hq, if_pos hn, if_pos ⟨ho, hl⟩]

theorem stringEnd_eq (hr : Run (· != '"') value rest) (h : src.Reads o (value ++ rest))
    (hl : line + value.count '\n' < UInt32.size) :
    stringEnd src o line =
      .ok ⟨o + Utf8.size value, line + value.count '\n', !rest.isEmpty⟩ := by
  -- The loop goes from newline to newline, the induction from character to character.
  induction value generalizing o line
  case nil =>
    have hd : ∀ c ∈ rest.head?, isDelimiter c := fun c hc => by simp [isDelimiter, hr.head?_eq c hc]
    rw [stringEnd_of_findDelimiter (findDelimiter_here hd h)]
    cases rest
    case nil => rfl
    case cons c cs =>
      cases hr.head?_eq c rfl
      exact if_pos rfl
  case cons c cs hi =>
    cases Decidable.em (c = '\n')
    case inl hc =>
      subst hc
      rw [List.count_cons_self] at hl ⊢
      rw [stringEnd_newline h (by omega), hi hr.tail (h.tail_of_le (by decide)) (by omega),
        Utf8.add_size_cons_of_le (by decide), Nat.add_right_comm line, Nat.add_assoc line]
    case inr hc =>
      have hq : c ≠ '"' := by simpa using hr.pass c List.mem_cons_self
      rw [List.count_cons_of_ne hc] at hl ⊢
      rw [stringEnd_cons (by simp [isDelimiter, hc, hq]) h, hi hr.tail h.tail hl, Utf8.size_cons,
        Nat.add_assoc]

theorem size_string : Utf8.size (Piece.string value).text = Utf8.size value + 2 := by
  rw [text, List.cons_append, Utf8.size_cons, Utf8.size_append]
  exact Nat.add_comm 1 _

theorem string_closed (hp : (Piece.string value).Fits rest)
    (h : src.Reads o ((Piece.string value).text ++ rest))
    (hl : line + (Piece.string value).newlines < UInt32.size) :
    string src o line = .ok (.ofPiece o line (.string value) rest) := by
  have hn : (Piece.string value).newlines = value.count '\n' := hp.newlines_eq
  have hr : Run (· != '"') value ('"' :: rest) := .of_not_mem hp (by simp)
  have hv : src.Reads (o + 1) (value ++ '"' :: rest) := by
    simpa using h.tail_of_le (by decide)
  have he : stringEnd src (o + 1) line = .ok ⟨_, _, true⟩ := stringEnd_eq hr hv (hn ▸ hl)
  have hs : o + Utf8.size (Piece.string value).text = o + 1 + Utf8.size value + 1 := by
    rw [size_string]
    omega
  have hx := hs ▸ h.lexeme
  simp only [string, h.advance, Fault.ok_bind, he, hv.lexeme, hv.append.advance, hx, if_true,
    Step.ofPiece, hn, hs]
  rfl

theorem string_open (hp : (Piece.unterminated value).Fits rest)
    (h : src.Reads o ((Piece.unterminated value).text ++ rest))
    (hl : line + (Piece.unterminated value).newlines < UInt32.size) :
    string src o line = .ok (.ofPiece o line (.unterminated value) rest) := by
  have hn : (Piece.unterminated value).newlines = value.count '\n' := hp.newlines_eq
  have hr : Run (· != '"') value [] := .of_not_mem hp.left (by simp)
  have hv : src.Reads (o + 1) (value ++ []) := hp.right ▸ h.tail
  have he : stringEnd src (o + 1) line = .ok ⟨_, _, false⟩ := stringEnd_eq hr hv (hn ▸ hl)
  have hs : o + Utf8.size (Piece.unterminated value).text = o + 1 + Utf8.size value :=
    Utf8.add_size_cons_of_le (by decide)
  simp only [string, h.advance, Fault.ok_bind, he, Step.ofPiece, hn, hs]
  rfl

theorem string_eq (h : src.Reads o ('"' :: cs))
    (hl : line + (first '"' cs).1.newlines < UInt32.size) :
    string src o line = .ok (.ofPiece o line (first '"' cs).1 (first '"' cs).2) := by
  rw [first_quote] at hl ⊢
  cases Decidable.em ('"' ∈ cs)
  case inl hm =>
    have ⟨value, rest, hc, hq⟩ := List.eq_append_cons_of_mem hm
    subst hc
    rw [quoted_of_not_mem hq] at hl ⊢
    exact string_closed hq (by simpa [text] using h) hl
  case inr hq =>
    rw [quoted_of_not_mem_end hq] at hl ⊢
    exact string_open ⟨hq, rfl⟩ (by simpa [text] using h) hl

end LoxLex.Scan
