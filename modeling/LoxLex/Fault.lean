namespace LoxLex

-- What could go wrong in reading a source, as distinct from what can be wrong with the source.
inductive Fault
  -- A read behind the padding, or a search that starts behind the end of the source.
  | outOfBounds
  | badSlice (start stop : Nat)
  -- A step over a character where there is none.
  | atEnd
  | overflow
  | splitCharacter
  | badNumeral
  deriving DecidableEq

namespace Fault

def guard32 (n : Nat) : Except Fault Nat :=
  if n < UInt32.size then .ok n else .error .overflow

theorem guard32_eq_ok {m n : Nat} (h : guard32 m = .ok n) : n = m := by
  unfold guard32 at h
  split at h
  case isTrue  => cases h; rfl
  case isFalse => cases h

theorem bind_eq_ok {α β : Type} {x : Except Fault α} {f : α → Except Fault β} {b : β} :
    (x >>= f) = .ok b ↔ ∃ a, x = .ok a ∧ f a = .ok b := by
  cases x <;> simp [bind, Except.bind]

end Fault
end LoxLex
