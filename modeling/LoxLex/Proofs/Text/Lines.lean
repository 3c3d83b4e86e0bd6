import LoxLex.Command
import LoxLex.Proofs.Text.Utf8
import Mathlib.Algebra.Ring.Nat

namespace LoxLex

inductive Lines : List Char → List (List Char) → Prop
  | none : Lines [] []
  | last : line ≠ [] → '\n' ∉ line → Lines line [line]
  | line : '\n' ∉ line → Lines rest lines →
           Lines (line ++ '\n' :: rest) ((line ++ ['\n']) :: lines)

namespace Lines

variable {cs line rest : List Char} {lines : List (List Char)} {bs rs : List UInt8}

def split : List Char → List (List Char)
  | []      => []
  | c :: cs =>
    if c = '\n' then
      [c] :: split cs
    else match split cs with
      | []            => [[c]]
      | line :: lines => (c :: line) :: lines

theorem cons {c : Char} (hc : c ≠ '\n') (h : Lines cs (line :: lines)) :
    Lines (c :: cs) ((c :: line) :: lines) := by
  cases h
  case last hn hm => exact .last (List.cons_ne_nil _ _) (by simp [hm, hc.symm])
  case line line rest hm h =>
    have hm : '\n' ∉ c :: line := by simp [hm, hc.symm]
    exact .line hm h

theorem of_split (cs : List Char) : Lines cs (split cs) := by
  induction cs
  case nil => exact .none
  case cons c cs hi =>
    rw [split]
    split
    case isTrue hc =>
      have hn : '\n' ∉ ([] : List Char) := List.not_mem_nil
      exact hc ▸ .line hn hi
    case isFalse hc =>
      split
      case h_1 hs =>
        rw [hs] at hi
        cases hi
        exact .last (by simp) (by simpa using Ne.symm hc)
      case h_2 hs => exact (hs ▸ hi).cons hc

theorem split_append (hm : '\n' ∉ line) :
    split (line ++ '\n' :: rest) = (line ++ ['\n']) :: split rest := by
  induction line
  case nil => rw [List.nil_append, split, if_pos rfl, List.nil_append]
  case cons c line hi =>
    have ⟨hn, hm⟩ := not_or.mp (mt List.mem_cons.mpr hm)
    rw [List.cons_append, split, if_neg (Ne.symm hn), hi hm]
    rfl

theorem size_le (h : Lines cs lines) : ∀ l ∈ lines, Utf8.size l ≤ Utf8.size cs := by
  induction h
  case none => simp
  case last => simp
  case line line rest lines _ _ hi =>
    refine List.forall_mem_cons.mpr ⟨?_, fun l hl => Nat.le_trans (hi l hl) ?_⟩
    case refine_1 => simp
    case refine_2 => simp; omega

theorem exists_of_mem (h : Lines cs lines) :
    ∀ l ∈ lines, ∃ a, '\n' ∉ a ∧ (l = a ∨ l = a ++ ['\n']) := by
  induction h
  case none => simp
  case last line _ hm => simpa using ⟨line, hm, .inl rfl⟩
  case line line _ _ hm _ hi => exact List.forall_mem_cons.mpr ⟨⟨line, hm, .inr rfl⟩, hi⟩

theorem splitLines_of_not_mem (hb : bs ≠ []) (hm : Source.newline ∉ bs) :
    Command.splitLines bs = [bs] := by
  induction bs
  case nil => contradiction
  case cons b bs hi =>
    have ⟨hn, hm⟩ := not_or.mp (mt List.mem_cons.mpr hm)
    rw [Command.splitLines, if_neg (Ne.symm hn)]
    cases bs
    case nil  => rfl
    case cons => rw [hi (List.cons_ne_nil _ _) hm]

theorem splitLines_append (hm : Source.newline ∉ bs) :
    Command.splitLines (bs ++ Source.newline :: rs) =
      (bs ++ [Source.newline]) :: Command.splitLines rs := by
  induction bs
  case nil => rw [List.nil_append, Command.splitLines, if_pos rfl, List.nil_append]
  case cons b bs hi =>
    have ⟨hn, hm⟩ := not_or.mp (mt List.mem_cons.mpr hm)
    rw [List.cons_append, Command.splitLines, if_neg (Ne.symm hn), hi hm]
    rfl

theorem splitLines_bytes (h : Lines cs lines) :
    Command.splitLines (Utf8.bytes cs) = lines.map Utf8.bytes := by
  have hb {l : List Char} (hm : '\n' ∉ l) : Source.newline ∉ Utf8.bytes l :=
    mt (Utf8.mem_bytes (d := '\n') (by decide)).mp hm
  induction h
  case none => rfl
  case last line hn hm =>
    have hn : Utf8.bytes line ≠ [] := List.length_pos_iff.mp (Utf8.size_pos hn)
    rw [splitLines_of_not_mem hn (hb hm), List.map_singleton]
  case line line rest lines hm _ hi =>
    rw [List.map_cons, ← hi, Utf8.bytes_append]
    have hl : Utf8.bytes (line ++ ['\n']) = Utf8.bytes line ++ [Source.newline] := Utf8.bytes_append
    rw [hl]
    exact splitLines_append (hb hm)

end Lines

-- The lines of bytes: none is empty, a newline can only be at the end of a line, and is at the end
-- of every line but the last.
structure ByteLines (bs : List UInt8) (lines : List (List UInt8)) : Prop where
  flatten : lines.flatten = bs
  ne_nil  : ∀ l ∈ lines, l ≠ []
  inner   : ∀ l ∈ lines, Source.newline ∉ l.dropLast
  ends    : ∀ l ∈ lines.dropLast, l.getLast? = some Source.newline

namespace ByteLines

variable {b : UInt8} {bs line : List UInt8} {lines : List (List UInt8)}

theorem nil : ByteLines [] [] where
  flatten := rfl
  ne_nil  := by simp
  inner   := by simp
  ends    := by simp

theorem newline (h : ByteLines bs lines) :
    ByteLines (Source.newline :: bs) ([Source.newline] :: lines) where
  flatten := by rw [List.flatten_cons, h.flatten, List.singleton_append]
  ne_nil  := List.forall_mem_cons.mpr ⟨List.cons_ne_nil _ _, h.ne_nil⟩
  inner   := List.forall_mem_cons.mpr ⟨List.not_mem_nil, h.inner⟩
  ends    := by
    cases lines
    case nil       => simp
    case cons l ls =>
      rw [List.dropLast_cons_cons]
      exact List.forall_mem_cons.mpr ⟨rfl, h.ends⟩

theorem singleton (h : ByteLines bs []) : ByteLines (b :: bs) [[b]] where
  flatten := by rw [← h.flatten]; rfl
  ne_nil  := by simp
  inner   := by simp
  ends    := by simp

theorem cons (hb : b ≠ Source.newline) (h : ByteLines bs (line :: lines)) :
    ByteLines (b :: bs) ((b :: line) :: lines) := by
  have ⟨hn, hns⟩ := List.forall_mem_cons.mp h.ne_nil
  have ⟨hi, his⟩ := List.forall_mem_cons.mp h.inner
  obtain ⟨c, cs, rfl⟩ := List.exists_cons_of_ne_nil hn
  constructor
  case flatten => rw [← h.flatten]; rfl
  case ne_nil  => exact List.forall_mem_cons.mpr ⟨List.cons_ne_nil _ _, hns⟩
  case inner   =>
    refine List.forall_mem_cons.mpr ⟨?_, his⟩
    rw [List.dropLast_cons_cons]
    exact List.not_mem_cons_of_ne_of_not_mem hb.symm hi
  case ends    =>
    have he := h.ends
    cases lines
    case nil       => simp
    case cons l ls =>
      rw [List.dropLast_cons_cons] at he ⊢
      have ⟨hl, hls⟩ := List.forall_mem_cons.mp he
      exact List.forall_mem_cons.mpr ⟨List.getLast?_cons_cons.trans hl, hls⟩

theorem of_splitLines (bs : List UInt8) : ByteLines bs (Command.splitLines bs) := by
  induction bs
  case nil => exact nil
  case cons b bs hi =>
    rw [Command.splitLines]
    split
    case isTrue hb => exact hb ▸ hi.newline
    case isFalse hb =>
      split
      case h_1 hs => exact singleton (hs ▸ hi)
      case h_2 hs => exact cons hb (hs ▸ hi)

theorem getLast?_of_mem (h : ByteLines bs lines) (hb : ∀ b ∈ bs.getLast?, b = Source.newline) :
    ∀ l ∈ lines, l.getLast? = some Source.newline := by
  rcases lines.eq_nil_or_concat with rfl | ⟨lines, last, rfl⟩
  case inl => simp
  case inr =>
    rw [List.concat_eq_append] at h ⊢
    have hn : last ≠ [] := h.ne_nil last (by simp)
    have hl : last.getLast? = some (last.getLast hn) := List.getLast?_eq_some_getLast hn
    have hf : bs.getLast? = some (last.getLast hn) := by
      simp [← h.flatten, List.getLast?_append, hl]
    have he := h.ends
    rw [List.dropLast_concat] at he
    intro l hm
    rcases List.mem_append.mp hm with hm | hm
    case inl => exact he l hm
    case inr => rw [List.mem_singleton.mp hm, hl, hb _ hf]

theorem of_lines (input : ByteArray) :
    ByteLines input.data.toList ((Command.lines input).map (·.data.toList)) := by
  have hm : (Command.lines input).map (·.data.toList) = Command.splitLines input.data.toList := by
    rw [Command.lines, List.map_map]
    exact (List.map_congr_left fun _ _ => List.toList_data_toByteArray).trans (List.map_id _)
  exact hm ▸ of_splitLines _

end ByteLines

def textLines (text : String) : List String :=
  (Lines.split text.toList).map .ofList

theorem textLines_join {lines : List String}
    (h : ∀ l ∈ lines, ∃ a : String, '\n' ∉ a.toList ∧ l = a ++ "\n") :
    textLines (String.join lines) = lines := by
  induction lines
  case nil => rfl
  case cons line lines hi =>
    obtain ⟨⟨a, ha, rfl⟩, hl⟩ := List.forall_mem_cons.mp h
    have ht : (String.join ((a ++ "\n") :: lines)).toList =
        a.toList ++ '\n' :: (String.join lines).toList := by
      simp [String.join_cons]
    rw [textLines, ht, Lines.split_append ha, List.map_cons, ← textLines, hi hl]
    simp

theorem count_join {α : Type} (f : α → String) (as : List α) :
    (String.join (as.map fun a => f a ++ "\n")).toList.count '\n' =
      as.length + (as.map fun a => (f a).toList.count '\n').sum := by
  induction as
  case nil => rfl
  case cons a as hi =>
    simp only [List.map_cons, String.join_cons, String.toList_append, List.count_append, hi,
      List.length_cons, List.sum_cons]
    have hn : "\n".toList.count '\n' = 1 := by decide
    omega

theorem count_join_of_not_mem {α : Type} {f : α → String} {as : List α}
    (h : ∀ a ∈ as, '\n' ∉ (f a).toList) :
    (String.join (as.map fun a => f a ++ "\n")).toList.count '\n' = as.length := by
  have hz : (as.map fun a => (f a).toList.count '\n') = as.map fun _ => 0 :=
    List.map_congr_left fun a ha => List.count_eq_zero.mpr (h a ha)
  rw [count_join, hz, List.map_const', List.sum_replicate_nat, Nat.mul_zero, Nat.add_zero]

theorem toList_mem_of_mem {text line : String} (h : line ∈ textLines text) :
    line.toList ∈ Lines.split text.toList := by
  have ⟨l, hl, he⟩ := List.mem_map.mp h
  rwa [← he, String.toList_ofList]

theorem utf8ByteSize_le_of_mem {text line : String} (h : line ∈ textLines text) :
    line.utf8ByteSize ≤ text.utf8ByteSize := by
  rw [← Utf8.size_toList, ← Utf8.size_toList]
  exact (Lines.of_split _).size_le _ (toList_mem_of_mem h)

theorem flatMap_textLines {α : Type} {text : String} {n : Nat} (f : List Char → Nat → List α)
    (g : String → Nat → List α) (h : ∀ l ∈ textLines text, ∀ i, f l.toList i = g l i) :
    ((Lines.split text.toList).zipIdx n).flatMap (fun x => f x.1 x.2) =
      ((textLines text).zipIdx n).flatMap (fun x => g x.1 x.2) := by
  rw [textLines, List.zipIdx_map, List.flatMap_map, List.flatMap_def, List.flatMap_def]
  refine congrArg _ (List.map_congr_left fun x hx => ?_)
  have hl := h (.ofList x.1) (List.mem_map_of_mem (List.fst_mem_of_mem_zipIdx hx)) x.2
  rwa [String.toList_ofList] at hl

theorem lines_toByteArray (text : String) :
    Command.lines text.toByteArray = (textLines text).map String.toByteArray := by
  rw [Command.lines, Utf8.data_eq_bytes, (Lines.of_split _).splitLines_bytes, textLines,
    List.map_map, List.map_map]
  exact List.map_congr_left fun l _ => Utf8.toByteArray_bytes l

end LoxLex
