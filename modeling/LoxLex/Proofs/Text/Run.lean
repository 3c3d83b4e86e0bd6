namespace LoxLex

structure Run (p : Char → Bool) (run rest : List Char) : Prop where
  pass : ∀ c ∈ run, p c
  stop : ∀ c ∈ rest.head?, ¬p c

namespace Run

variable {p : Char → Bool} {run rest : List Char}

theorem span (p : Char → Bool) (cs : List Char) : Run p (cs.takeWhile p) (cs.dropWhile p) where
  pass := List.all_eq_true.mp List.all_takeWhile
  stop c h := by
    have := List.head?_dropWhile_not p cs
    rw [Option.mem_def.mp h] at this
    simp_all

theorem cons {c : Char} (hc : p c) (h : Run p run rest) : Run p (c :: run) rest where
  pass := List.forall_mem_cons.mpr ⟨hc, h.pass⟩
  stop := h.stop

theorem tail {c : Char} (h : Run p (c :: run) rest) : Run p run rest where
  pass := (List.forall_mem_cons.mp h.pass).right
  stop := h.stop

theorem takeWhile_eq (h : Run p run rest) : (run ++ rest).takeWhile p = run := by
  rw [List.takeWhile_append_of_pos h.pass]
  cases rest
  case nil       => simp
  case cons c cs => rw [List.takeWhile_cons_of_neg (h.stop c rfl), List.append_nil]

theorem dropWhile_eq (h : Run p run rest) : (run ++ rest).dropWhile p = rest := by
  rw [List.dropWhile_append_of_pos h.pass]
  cases rest
  case nil       => rfl
  case cons c cs => rw [List.dropWhile_cons_of_neg (h.stop c rfl)]

theorem unique {others ahead : List Char} (h : Run p run rest) (ho : Run p others ahead)
    (he : run ++ rest = others ++ ahead) : run = others ∧ rest = ahead := by
  have ht := congrArg (List.takeWhile p) he
  have hd := congrArg (List.dropWhile p) he
  rw [h.takeWhile_eq, ho.takeWhile_eq] at ht
  rw [h.dropWhile_eq, ho.dropWhile_eq] at hd
  exact ⟨ht, hd⟩

theorem of_not_mem {d : Char} (hm : d ∉ run) (hs : ∀ c ∈ rest.head?, c = d) :
    Run (· != d) run rest where
  pass c hc := by
    have : c ≠ d := fun h => hm (h ▸ hc)
    simpa
  stop c hc := by simp [hs c hc]

theorem not_mem {d : Char} (h : Run (· != d) run rest) : d ∉ run :=
  fun hm => by simpa using h.pass d hm

theorem head?_eq {d : Char} (h : Run (· != d) run rest) : ∀ c ∈ rest.head?, c = d :=
  fun c hc => by simpa using h.stop c hc

theorem append_cons_inj {d : Char} {a b x y : List Char} (ha : d ∉ a) (hb : d ∉ b)
    (h : a ++ d :: x = b ++ d :: y) : a = b ∧ x = y := by
  have hx : Run (· != d) a (d :: x) := of_not_mem ha (by simp)
  have hy : Run (· != d) b (d :: y) := of_not_mem hb (by simp)
  exact (hx.unique hy h).imp_right fun hc => (List.cons.inj hc).right

end Run
end LoxLex
