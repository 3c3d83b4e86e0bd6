import LoxLex.Text.Quoted
import LoxLex.Proofs.Text.Plain
import LoxLex.Proofs.Text.Run

namespace LoxLex.Quoted

variable {quote c : Char} {a b x y cs : List Char}

-- Between plain quotes all is plain: what is not plain is escaped, and escapes are plain.

theorem plain_of_mem_codePointEscape : ∀ d ∈ codePointEscape c, Plain d := by
  have hs : ∀ d ∈ ['\\', 'u', '\x7b'], Plain d := Plain.forall_of_isShown rfl
  have he : ∀ d ∈ ['\x7d'], Plain d := Plain.forall_of_isShown rfl
  have hd : ∀ d ∈ Nat.toDigits 16 c.toNat, Plain d := Plain.of_mem_toDigits (by decide) (by decide)
  exact List.forall_mem_append.mpr ⟨List.forall_mem_append.mpr ⟨hs, hd⟩, he⟩

theorem plain_of_mem_escape (hq : Plain quote) : ∀ d ∈ escape quote c, Plain d := by
  have hs : Plain '\\' := .of_isShown rfl
  fun_cases escape quote c
  case case1 | case2 | case3 | case4 => exact Plain.forall_of_isShown rfl
  case case5 h =>
    have hc : Plain c := h.elim (· ▸ hs) (· ▸ hq)
    simp [hs, hc]
  case case6 => exact plain_of_mem_codePointEscape
  case case7 =>
    have hc : Plain c := ⟨‹_›, by simp [shortControls, *]⟩
    simpa

theorem plain_of_mem_encode (hq : Plain quote) : ∀ d ∈ encode quote cs, Plain d := by
  have hc : ∀ d ∈ cs.flatMap (escape quote), Plain d := by
    intro d hd
    have ⟨c, _, hd⟩ := List.mem_flatMap.mp hd
    exact plain_of_mem_escape hq d hd
  simpa [encode, or_imp, forall_and, hq] using hc

theorem newline_not_mem_encode (hq : Plain quote) : '\n' ∉ encode quote cs :=
  Plain.newline_not_mem (plain_of_mem_encode hq)

-- The first character of text between double quotes and what is behind it. There is none at the
-- closing quote.
def next? : List Char → Option (Char × List Char)
  | []              => none
  | '"' :: _        => none
  | '\\' :: escaped =>
    match escaped with
    | []        => none
    | '0' :: cs => some ('\x00', cs)
    | 't' :: cs => some ('\t', cs)
    | 'n' :: cs => some ('\n', cs)
    | 'r' :: cs => some ('\r', cs)
    | 'u' :: cs =>
      let digits := cs.tail.takeWhile (· != '\x7d')
      some (.ofNat (Digits.ofHex digits), (cs.tail.dropWhile (· != '\x7d')).tail)
    | c :: cs   => some (c, cs)
  | c :: cs         => some (c, cs)

theorem next?_codePoint : next? (codePointEscape c ++ cs) = some (c, cs) := by
  have hm : '\x7d' ∉ Nat.toDigits 16 c.toNat := by
    intro h
    have ⟨_, _, hd⟩ := Digits.exists_of_mem (by decide) h
    exact Nat.digitChar_ne '\x7d' rfl hd.symm
  have hr : Run (· != '\x7d') (Nat.toDigits 16 c.toNat) ('\x7d' :: cs) := .of_not_mem hm (by simp)
  have hc : codePointEscape c ++ cs =
      '\\' :: 'u' :: '\x7b' :: (Nat.toDigits 16 c.toNat ++ '\x7d' :: cs) := by
    simp [codePointEscape]
  simp only [hc, next?, List.tail_cons, hr.takeWhile_eq, hr.dropWhile_eq, Digits.ofHex_toDigits,
    Char.ofNat_toNat]

theorem next?_escape : next? (escape '"' c ++ cs) = some (c, cs) := by
  fun_cases escape '"' c
  case case1 | case2 | case3 | case4 => subst c; rfl
  case case5 h => rcases h with rfl | rfl <;> rfl
  case case6   => exact next?_codePoint
  case case7 h _ =>
    have ⟨hs, hq⟩ := not_or.mp h
    simp [next?]

-- By induction on one text, with the next character taken off both.
theorem flatMap_escape_inj
    (h : a.flatMap (escape '"') ++ '"' :: x = b.flatMap (escape '"') ++ '"' :: y) :
    a = b ∧ x = y := by
  induction a generalizing b
  case nil =>
    cases b
    case nil => exact ⟨rfl, (List.cons.inj h).right⟩
    case cons d b =>
      rw [List.flatMap_cons, List.append_assoc] at h
      cases (congrArg next? h).trans next?_escape
  case cons c a hi =>
    rw [List.flatMap_cons, List.append_assoc] at h
    cases b
    case nil => cases next?_escape.symm.trans (congrArg next? h)
    case cons d b =>
      rw [List.flatMap_cons, List.append_assoc] at h
      have hn := next?_escape.symm.trans ((congrArg next? h).trans next?_escape)
      have ⟨hc, hr⟩ := Prod.mk.inj (Option.some.inj hn)
      have ⟨ha, hx⟩ := hi hr
      exact ⟨by rw [hc, ha], hx⟩

theorem encode_append_inj (h : encode '"' a ++ x = encode '"' b ++ y) : a = b ∧ x = y := by
  simp only [encode, List.append_assoc, List.cons_append, List.nil_append, List.cons.injEq] at h
  exact flatMap_escape_inj h.right

end LoxLex.Quoted
