import LoxLex.Proofs.Command.Transcript
import LoxLex.Proofs.Scan.Terminated

namespace LoxLex

namespace Session

variable {α β : Type} {s : Session} {extent : Extent} {c : Command α} {f : α → Command β}

def scanning (s : Session) (extent : Extent) : Session :=
  { s with extent }

def rescan (extent : Extent) :
    EStateM.Result Failure Session α → EStateM.Result Failure Session α
  | .ok a s    => .ok a (s.scanning extent)
  | .error e s => .error e (s.scanning extent)

-- A command that goes in the same way, however much of a source is scanned.
def Indifferent (c : Command α) : Prop :=
  ∀ s extent, c.run (s.scanning extent) = rescan extent (c.run s)

namespace Indifferent

theorem bind (hc : Indifferent c) (hf : ∀ a, Indifferent (f a)) : Indifferent (c >>= f) := by
  intro s extent
  have hs := hc s extent
  cases hr : c.run s
  case ok a t =>
    rw [hr] at hs
    rw [run_bind hr, run_bind hs]
    exact hf a t extent
  case error e t =>
    rw [hr] at hs
    rw [run_bind_error hr, run_bind_error hs]
    rfl

theorem write (text : String) : Indifferent (write text) := by
  intro s extent
  by_cases h : s.out.fits text
  case pos =>
    have hs : (s.scanning extent).out.fits text := h
    rw [run_write_of_fits h, run_write_of_fits hs]
    rfl
  case neg =>
    have hs : ¬(s.scanning extent).out.fits text := h
    rw [run_write_of_not_fits h, run_write_of_not_fits hs]
    rfl

theorem flush : Indifferent flush :=
  fun _ _ => rfl

theorem report (errors : List Scan.Error) : Indifferent (report errors) :=
  fun _ _ => rfl

theorem forgetErrors : Indifferent forgetErrors :=
  fun _ _ => rfl

end Indifferent

structure Alike (r r' : EStateM.Result Failure Session α) : Prop where
  result : result r = result r'
  out    : (after r).out = (after r').out
  log    : (after r).log = (after r').log

theorem Indifferent.alike (h : Indifferent c) (s : Session) (extent extent' : Extent) :
    Alike (c.run (s.scanning extent)) (c.run (s.scanning extent')) := by
  rw [h, h]
  cases c.run s <;> exact ⟨rfl, rfl, rfl⟩

end Session

namespace Command

open Session

variable {s : Session} {line : ByteArray} {lines : List ByteArray} {text : String}
variable {extent extent' : Extent}

def tell (text : String) (extent : Extent) : Command Unit := do
  write (listing extent text)
  report (scan text extent).errors
  forgetErrors

theorem run_answer (h : String.fromUTF8? line = some text) :
    (answer line).run s = (tell text s.extent).run s := by
  by_cases hf : s.out.fits (listing s.extent text)
  case pos =>
    rw [run_answer_of_fits h hf, tell, run_bind (run_write_of_fits hf)]
    rfl
  case neg =>
    rw [run_answer_of_not_fits h hf, tell, run_bind_error (run_write_of_not_fits hf), cutOff]

theorem indifferent_tell (text : String) (extent : Extent) : Indifferent (tell text extent) :=
  (Indifferent.write _).bind fun _ => (Indifferent.report _).bind fun _ => .forgetErrors

-- A listing does not tell the line of the end.
theorem listing_eq (h : (scan text extent).LineBefore (scan text extent')) :
    listing extent text = listing extent' text := by
  obtain ⟨found, last, hs, ht⟩ := h.tokens
  simp only [listing, Token.list, hs, ht, List.map_append]
  rfl

theorem tell_eq (h : text.utf8ByteSize + 1 < Source.maxLength) (extent : Extent) :
    tell (text ++ "\n") extent = tell (text ++ "\n") .whole := by
  have hl := scan_lineBefore h
  cases extent
  case whole      => rfl
  case allButLast => rw [tell, tell, listing_eq hl, hl.errors]

structure Ended (line : ByteArray) : Prop where
  getLast? : line.data.toList.getLast? = some Source.newline
  size_lt  : line.size < Source.maxLength

theorem Ended.exists_eq_append (h : Ended line) (ht : String.fromUTF8? line = some text) :
    ∃ a : String, text = a ++ "\n" ∧ a.utf8ByteSize + 1 < Source.maxLength := by
  have hb := Utf8.toByteArray_of_fromUTF8? ht
  have hl := h.getLast?
  rw [← hb, Utf8.data_eq_bytes] at hl
  have hl : text.toList.getLast? = some '\n' := Utf8.getLast?_of_bytes (by decide) hl
  obtain ⟨cs, hc⟩ := List.getLast?_eq_some_iff.mp hl
  have ha : text = .ofList cs ++ "\n" := String.toList_inj.mp (by simp [hc])
  have hs : text.toByteArray.size < Source.maxLength := hb ▸ h.size_lt
  have hs : text.utf8ByteSize < Source.maxLength := hs
  rw [ha, String.utf8ByteSize_append] at hs
  exact ⟨.ofList cs, ha, hs⟩

theorem Ended.indifferent_answer (h : Ended line) : Indifferent (answer line) := by
  intro s extent
  cases ht : String.fromUTF8? line
  case none =>
    rw [run_answer_of_none ht, run_answer_of_none ht]
    rfl
  case some text =>
    obtain ⟨a, rfl, hs⟩ := h.exists_eq_append ht
    rw [run_answer ht, run_answer ht, tell_eq hs s.extent, tell_eq hs (s.scanning extent).extent]
    exact indifferent_tell (a ++ "\n") .whole s extent

theorem indifferent_ask : Indifferent ask :=
  (Indifferent.write _).bind fun _ => .flush

theorem indifferent_farewell : Indifferent farewell :=
  (Indifferent.write _).bind fun _ => .flush

theorem indifferent_prompt (h : ∀ line ∈ lines, Ended line) : Indifferent (prompt lines) := by
  induction lines
  case nil => exact indifferent_ask.bind fun _ => indifferent_farewell
  case cons line lines hi =>
    have ⟨hl, hs⟩ := List.forall_mem_cons.mp h
    exact indifferent_ask.bind fun _ => hl.indifferent_answer.bind fun _ => hi hs

theorem ended_of_mem_lines {input : ByteArray}
    (hn : ∀ b ∈ input.data.toList.getLast?, b = Source.newline)
    (hs : ∀ line ∈ Command.lines input, line.size < Source.maxLength) :
    ∀ line ∈ Command.lines input, Ended line := by
  intro line hl
  have hm : line.data.toList ∈ (Command.lines input).map (·.data.toList) := List.mem_map_of_mem hl
  exact ⟨(ByteLines.of_lines input).getLast?_of_mem hn _ hm, hs line hl⟩

-- On input that is empty or ends with a newline, the prompt goes in the same way whether the last
-- character of each line is scanned or not, since the scans of a line with its newline differ in
-- nothing but the line of the end.
theorem prompt_extent_agnostic :
    (∀ text : String, text.utf8ByteSize + 1 < Source.maxLength →
      (scan (text ++ "\n") .allButLast).LineBefore (scan (text ++ "\n") .whole)) ∧
    ∀ (input : ByteArray) (s : Session),
      (∀ b ∈ input.data.toList.getLast?, b = Source.newline) →
      (∀ line ∈ Command.lines input, line.size < Source.maxLength) →
        Alike ((prompt (Command.lines input)).run (s.scanning .allButLast))
          ((prompt (Command.lines input)).run (s.scanning .whole)) := by
  constructor
  case left => exact fun _ h => scan_lineBefore h
  case right =>
    intro input s hn hs
    exact (indifferent_prompt (ended_of_mem_lines hn hs)).alike s .allButLast .whole

-- An open string, an open comment and an open number, and a sink that is full before the end.
theorem prompt_extent_agnostic_open :
    let input := "\"a\n// b\n1.\n".toByteArray
    let s : Session := {
      extent := .whole
      out    := .empty (some 60)
      log    := { sink := .empty (some 40), colored := true }
    }
    ("\"a".utf8ByteSize + 1 < Source.maxLength ∧
      (scan "\"a\n" .allButLast).LineBefore (scan "\"a\n" .whole)) ∧
    (∀ b ∈ input.data.toList.getLast?, b = Source.newline) ∧
    (∀ line ∈ Command.lines input, line.size < Source.maxLength) ∧
      Alike ((prompt (Command.lines input)).run (s.scanning .allButLast))
        ((prompt (Command.lines input)).run (s.scanning .whole)) := by
  intro input s
  have hl : "\"a".utf8ByteSize + 1 < Source.maxLength := by decide
  have hg : input.data.toList.getLast? = some Source.newline := by decide
  have hn : ∀ b ∈ input.data.toList.getLast?, b = Source.newline :=
    fun b hb => Option.some.inj (hb.symm.trans hg)
  have hs : ∀ line ∈ Command.lines input, line.size < Source.maxLength := by decide
  have ⟨ht, hp⟩ := prompt_extent_agnostic
  exact ⟨⟨hl, ht "\"a" hl⟩, hn, hs, hp input s hn hs⟩

end Command
end LoxLex
