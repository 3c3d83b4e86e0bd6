namespace LoxLex.Digits

variable {b n : Nat} {c : Char}

theorem exists_of_mem (hb : 1 < b) (h : c ∈ Nat.toDigits b n) : ∃ d < b, c = d.digitChar := by
  induction n using Nat.base_induction b hb
  case single n hn =>
    rw [Nat.toDigits_of_lt_base hn] at h
    exact ⟨n, hn, List.mem_singleton.mp h⟩
  case digit n d hd hn hi =>
    rw [← Nat.toDigits_append_toDigits hb hn hd, Nat.toDigits_of_lt_base hd] at h
    rcases List.mem_append.mp h with h | h
    case inl => exact hi h
    case inr => exact ⟨d, hd, List.mem_singleton.mp h⟩

theorem newline_not_mem (hb : 1 < b) : '\n' ∉ Nat.toDigits b n := by
  intro h
  have ⟨_, _, hd⟩ := exists_of_mem hb h
  exact Nat.digitChar_ne '\n' rfl hd.symm

def hexValue (c : Char) : Nat :=
  if c.isDigit then c.toNat - '0'.toNat else c.toNat - 'a'.toNat + 10

def ofHex (digits : List Char) : Nat :=
  digits.foldl (fun n c => 16 * n + hexValue c) 0

theorem hexValue_digitChar : ∀ d < 16, hexValue d.digitChar = d := by
  decide

theorem ofHex_append (digits : List Char) (c : Char) :
    ofHex (digits ++ [c]) = 16 * ofHex digits + hexValue c := by
  rw [ofHex, List.foldl_append]
  rfl

theorem ofHex_toDigits (n : Nat) : ofHex (Nat.toDigits 16 n) = n := by
  have hb : 1 < 16 := by decide
  induction n using Nat.base_induction 16 hb
  case single n hn =>
    rw [Nat.toDigits_of_lt_base hn]
    simp [ofHex, hexValue_digitChar n hn]
  case digit n d hd hn hi =>
    rw [← Nat.toDigits_append_toDigits hb hn hd, Nat.toDigits_of_lt_base hd, ofHex_append, hi,
      hexValue_digitChar d hd]

end LoxLex.Digits
