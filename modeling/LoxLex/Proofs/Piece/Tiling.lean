import LoxLex.Proofs.Piece.Fits

namespace LoxLex.Piece

-- Pieces one behind the other, each fitting before those that follow.
inductive Tiling : List Piece → List Char → Prop
  | nil  : Tiling [] []
  | cons : p.Fits rest → Tiling ps rest → Tiling (p :: ps) (p.text ++ rest)

variable {p : Piece} {ps : List Piece} {cs rest : List Char}

namespace Tiling

theorem flatMap_text (h : Tiling ps cs) : ps.flatMap text = cs := by
  induction h
  case nil         => rfl
  case cons _ _ hi => rw [List.flatMap_cons, hi]

theorem of_split (cs : List Char) : Tiling (split cs) cs := by
  fun_induction split cs
  case case1 => exact .nil
  case case2 c cs _ hi =>
    have := Tiling.cons (fits_first c cs) hi
    rwa [text_first] at this

end Tiling

theorem split_nil : split [] = [] := by
  rw [split]

theorem split_cons {c : Char} (h : first c cs = (p, rest)) : split (c :: cs) = p :: split rest := by
  rw [split, h]

theorem split_append (h : p.Fits rest) : split (p.text ++ rest) = p :: split rest := by
  cases ht : p.text ++ rest
  case nil =>
    have := Fits.text_ne_nil h
    simp_all
  case cons => exact split_cons (first_of_fits h ht)

theorem split_eq_iff : split cs = ps ↔ Tiling ps cs := by
  constructor
  case mp => exact fun h => h ▸ Tiling.of_split cs
  case mpr =>
    intro h
    induction h
    case nil          => exact split_nil
    case cons hf _ hi => rw [split_append hf, hi]

end LoxLex.Piece
