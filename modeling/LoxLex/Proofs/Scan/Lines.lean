import LoxLex.Proofs.Scan.Newline
import LoxLex.Proofs.Text.Lines

namespace LoxLex

def Extent.cut : Extent → List Char → List Char
  | whole,      cs => cs
  | allButLast, cs => cs.dropLast

theorem Extent.toList_part (extent : Extent) (source : String) :
    (extent.part source).toList = extent.cut source.toList := by
  cases extent
  case whole      => rfl
  case allButLast => exact String.toList_ofList

def Token.onLine (line : Nat) (t : Token) : Token :=
  { t with line }

def Scan.Error.onLine (line : Nat) : Error → Error
  | unexpected _ c => unexpected line c
  | unterminated _ => unterminated line
  | malformed _    => malformed line

namespace Piece

variable {α : Type} {f : Nat → List Piece → List α} {put : Nat → α → α}
variable {p : Piece} {a b cs : List Char} {lines : List (List Char)} {extent : Extent} {n : Nat}

-- What can be told of pieces line by line.
structure Linewise (f : Nat → List Piece → List α) (put : Nat → α → α) : Prop where
  nil     : ∀ n, f n [] = []
  newline : ∀ n a b, Closed a →
              f n (split (a ++ '\n' :: b)) = f n (split a) ++ f (n + (1 + a.count '\n')) (split b)
  onLine  : ∀ m n ps, breaks ps = 0 → f n ps = (f m ps).map (put n)

theorem token?_onLine (m n : Nat) : p.token? n = (p.token? m).map (.onLine n) := by
  cases p <;> rfl

theorem error?_onLine (m n : Nat) (next? : Option Char) :
    p.error? n next? = (p.error? m next?).map (.onLine n) := by
  cases p
  case number =>
    simp only [error?]
    split <;> rfl
  all_goals rfl

theorem linewise_found : Linewise found .onLine where
  nil _            := rfl
  newline _ _ _ hc := hc.found_append_newline
  onLine m n ps h := by
    induction ps
    case nil => rfl
    case cons p ps hi =>
      have ⟨hp, hb⟩ := Nat.add_eq_zero_iff.mp (breaks_cons ▸ h)
      rw [found, found, hp, Nat.add_zero, Nat.add_zero, hi hb, token?_onLine m n, List.map_append,
        Option.toList_map]

theorem linewise_errors : Linewise errors .onLine where
  nil _            := rfl
  newline _ _ _ hc := hc.errors_append_newline
  onLine m n ps h := by
    induction ps
    case nil => rfl
    case cons p ps hi =>
      have ⟨hp, hb⟩ := Nat.add_eq_zero_iff.mp (breaks_cons ▸ h)
      rw [errors, errors, hp, Nat.add_zero, Nat.add_zero, hi hb, error?_onLine m n, List.map_append,
        Option.toList_map]

theorem Closed.of_cut (h : Closed (extent.cut (a ++ ['\n']))) : Closed a := by
  cases extent
  case whole      => exact h.of_append (by simp)
  case allButLast =>
    have ha : (a ++ ['\n']).dropLast = a := List.dropLast_concat
    exact ha ▸ h

namespace Linewise

variable (hf : Linewise f put)
include hf

theorem split_cut (hc : Closed a) (ha : '\n' ∉ a) :
    f n (split (extent.cut (a ++ '\n' :: b))) =
      f n (split a) ++ f (n + 1) (split (extent.cut b)) := by
  have hn (b : List Char) := hf.newline n a b hc
  simp only [List.count_eq_zero.mpr ha] at hn
  cases extent
  case whole      => exact hn b
  case allButLast =>
    rw [Extent.cut, List.dropLast_append_cons]
    cases b
    case nil  => simp [Extent.cut, split_nil, hf.nil]
    case cons => exact hn _

theorem split_cut_end (hc : Closed a) (ha : '\n' ∉ a) :
    f n (split (extent.cut (a ++ ['\n']))) = f n (split a) := by
  have he : extent.cut [] = [] := by cases extent <;> rfl
  rw [hf.split_cut hc ha, he, split_nil, hf.nil, List.append_nil]

theorem split_lines (h : Lines cs lines) (hc : ∀ l ∈ lines, Closed (extent.cut l)) :
    f n (split (extent.cut cs)) =
      (lines.zipIdx n).flatMap fun x => f x.2 (split (extent.cut x.1)) := by
  induction h generalizing n
  case none =>
    have he : extent.cut [] = [] := by cases extent <;> rfl
    rw [he, split_nil, hf.nil]
    rfl
  case last => simp
  case line line rest lines ha _ hi =>
    have ⟨hl, hc⟩ := List.forall_mem_cons.mp hc
    rw [hf.split_cut hl.of_cut ha, hi hc, List.zipIdx_cons, List.flatMap_cons,
      hf.split_cut_end hl.of_cut ha]

theorem split_line (h : Lines cs lines) {l : List Char} (hl : l ∈ lines)
    (hc : Closed (extent.cut l)) (m n : Nat) :
    f n (split (extent.cut l)) = (f m (split (extent.cut l))).map (put n) := by
  have ⟨a, ha, he⟩ := h.exists_of_mem l hl
  cases he
  case inl he =>
    have hm : '\n' ∉ extent.cut l := by
      cases extent
      case whole      => exact he ▸ ha
      case allButLast => exact mt (List.dropLast_subset l ·) (he ▸ ha)
    refine hf.onLine m n _ ?_
    rw [(Tiling.of_split _).breaks_eq, List.count_eq_zero.mpr hm]
  case inr he =>
    subst he
    rw [hf.split_cut_end hc.of_cut ha, hf.split_cut_end hc.of_cut ha]
    refine hf.onLine m n _ ?_
    rw [(Tiling.of_split _).breaks_eq, List.count_eq_zero.mpr ha]

end Linewise
end Piece

theorem scan_cut {source : String} (extent : Extent) (h : source.utf8ByteSize < Source.maxLength) :
    scan source extent = .ofPieces (Piece.split (extent.cut source.toList)) := by
  rw [scan_part_eq extent h, extent.toList_part]

section

variable {source : String} {extent : Extent} (h : source.utf8ByteSize < Source.maxLength)
variable (hc : ∀ l ∈ textLines source, ∀ n, .unterminated n ∉ (scan l extent).errors)
include h hc

theorem closed_cut : ∀ l ∈ Lines.split source.toList, Piece.Closed (extent.cut l) := by
  intro l hl
  have hm : String.ofList l ∈ textLines source := List.mem_map_of_mem hl
  have hs := Nat.lt_of_le_of_lt (utf8ByteSize_le_of_mem hm) h
  have hc := hc _ hm
  rw [scan_cut extent hs, String.toList_ofList] at hc
  exact Piece.not_unterminated_mem_errors.mp hc

theorem line_of_mem_errors {l : String} (hl : l ∈ textLines source) :
    ∀ e ∈ (scan l extent).errors, e.line = 1 := by
  have hm := toList_mem_of_mem hl
  have he := Piece.linewise_errors.split_line (.of_split _) hm (closed_cut h hc _ hm) 1 1
  intro e hm
  rw [scan_cut extent (Nat.lt_of_le_of_lt (utf8ByteSize_le_of_mem hl) h), Scan.ofPieces, he] at hm
  obtain ⟨e', _, hl⟩ := List.mem_map.mp hm
  cases e' <;> cases hl <;> rfl

-- A scan finds what the scans of the lines find.
theorem Piece.Linewise.scan_lines {α : Type} {f : Nat → List Piece → List α} {put : Nat → α → α}
    (hf : Linewise f put) (get : Scan → List α) (hg : ∀ ps, get (.ofPieces ps) = f 1 ps) :
    get (scan source extent) =
      ((textLines source).zipIdx 1).flatMap fun x => (get (scan x.1 extent)).map (put x.2) := by
  have hc := closed_cut h hc
  have hl (l : String) (hm : l ∈ textLines source) (n : Nat) :
      f n (split (extent.cut l.toList)) = (get (scan l extent)).map (put n) := by
    have hs : l.utf8ByteSize < Source.maxLength := Nat.lt_of_le_of_lt (utf8ByteSize_le_of_mem hm) h
    have hm := toList_mem_of_mem hm
    rw [scan_cut extent hs, hg]
    exact hf.split_line (.of_split _) hm (hc _ hm) 1 n
  rw [scan_cut extent h, hg, hf.split_lines (.of_split _) hc]
  exact flatMap_textLines (fun l n => f n (split (extent.cut l)))
    (fun l n => (get (scan l extent)).map (put n)) hl

theorem found_lines :
    (scan source extent).found =
      ((textLines source).zipIdx 1).flatMap fun x => (scan x.1 extent).found.map (.onLine x.2) :=
  Piece.linewise_found.scan_lines h hc Scan.found fun _ => Piece.found_ofPieces

theorem errors_lines :
    (scan source extent).errors =
      ((textLines source).zipIdx 1).flatMap fun x => (scan x.1 extent).errors.map (.onLine x.2) :=
  Piece.linewise_errors.scan_lines h hc Scan.errors fun _ => rfl

end
end LoxLex
