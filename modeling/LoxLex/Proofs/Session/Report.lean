import LoxLex.Proofs.Diagnostic.Line

namespace LoxLex

namespace Scan.Error

variable (e : Error)

def textWith (start stop : String) : String :=
  "[line " ++ e.line.repr ++ "] " ++ start ++ "Error" ++ stop ++ ": " ++ e.message

def text : String :=
  e.textWith "" ""

theorem plain_of_mem_text : ∀ c ∈ e.text.toList, Plain c := by
  have hl : ∀ c ∈ e.line.repr.toList, Plain c := by
    rw [Nat.toList_repr]
    exact Plain.of_mem_toDigits (by decide) (by decide)
  simp only [text, textWith, String.toList_append, List.forall_mem_append]
  refine ⟨⟨⟨⟨⟨⟨⟨?_, hl⟩, ?_⟩, ?_⟩, ?_⟩, ?_⟩, ?_⟩, e.plain_of_mem_message⟩
  all_goals exact Plain.forall_of_isShown rfl

theorem rendered_eq (colored : Bool) :
    (Diagnostic.ofError e).rendered colored =
      (if colored then e.textWith Diagnostic.labelStart Diagnostic.labelStop else e.text) ++
        "\n" := by
  cases colored <;> rfl

end Scan.Error

def reportText (text : Scan.Error → String) (errors : List Scan.Error) : String :=
  String.join (errors.map fun e => text e ++ "\n")

variable {errors : List Scan.Error}

theorem render_ofErrors (colored : Bool) :
    Diagnostic.render colored (errors.map .ofError) = reportText
      (if colored then (·.textWith Diagnostic.labelStart Diagnostic.labelStop) else (·.text))
      errors := by
  rw [Diagnostic.render, List.map_map, reportText]
  refine congrArg _ (List.map_congr_left fun e _ => (e.rendered_eq colored).trans ?_)
  cases colored <;> rfl

-- A text of one line for each error, and of plain characters but for the ends of the lines. So
-- controls, what sets a direction, and the blocks of combining marks are not among them.
structure Harmless (errors : List Scan.Error) (text : String) : Prop where
  lines    : textLines text = errors.map fun e => e.text ++ "\n"
  newlines : text.toList.count '\n' = errors.length
  plain    : ∀ c ∈ text.toList, c ≠ '\n' → Plain c
  blocks   : ∀ c ∈ text.toList, c ≠ '\n' → ¬InRanges Plain.controls c ∧
               ¬InRanges Plain.directions c ∧ ¬InRanges Plain.combiningMarks c

theorem harmless_reportText (errors : List Scan.Error) :
    Harmless errors (reportText (·.text) errors) := by
  have hn : ∀ e : Scan.Error, '\n' ∉ e.text.toList :=
    fun e => Plain.newline_not_mem e.plain_of_mem_text
  have hp : ∀ c ∈ (reportText (·.text) errors).toList, c ≠ '\n' → Plain c := by
    intro c hc hcn
    rw [reportText, String.toList_join, List.flatMap_map] at hc
    have ⟨e, _, hc⟩ := List.mem_flatMap.mp hc
    rw [String.toList_append, List.mem_append] at hc
    exact e.plain_of_mem_text c (hc.resolve_right fun h => hcn (List.mem_singleton.mp h))
  constructor
  case lines    =>
    refine textLines_join fun l hl => ?_
    obtain ⟨e, -, rfl⟩ := List.mem_map.mp hl
    exact ⟨e.text, hn e, rfl⟩
  case newlines => exact count_join_of_not_mem fun e _ => hn e
  case plain    => exact hp
  case blocks   =>
    intro c hc hcn
    have h := hp c hc hcn
    exact ⟨h.not_control, h.not_direction, h.not_combiningMark⟩

namespace Session

def reportSource (source : String) : Command Unit := do
  report (← scanSource source).errors

-- A session becomes another by a report of errors. With colours, all that is added to the harmless
-- text is what starts and stops them, around each label.
structure ReportsHarmlessly (s : Session) (errors : List Scan.Error) (t : Session) : Prop where
  text    : Harmless errors (reportText (·.text) errors)
  plain   : s.log.colored = false →
              t.err.bytes = s.err.bytes ++ (reportText (·.text) errors).toByteArray
  colored : s.log.colored = true →
              t.err.bytes = s.err.bytes ++
                (reportText (·.textWith "\x1b[1;31m" "\x1b[0m") errors).toByteArray

-- Nothing in a source does harm by being reported.
theorem report_harmless (s : Session) (source : String) (h : s.err.limit? = none) :
    ∃ t, (reportSource source).run s = .ok () t ∧ t.out = s.out ∧
      s.ReportsHarmlessly (scan source s.extent).errors t := by
  let errors := (scan source s.extent).errors
  have hb : (s.log.recordAll (errors.map .ofError)).sink.bytes = _ := ErrorLog.bytes_recordAll h
  rw [render_ofErrors] at hb
  refine ⟨_, rfl, rfl, harmless_reportText errors, fun hc => ?_, fun hc => ?_⟩
  case refine_1 => exact hb.trans (by rw [hc]; rfl)
  case refine_2 => exact hb.trans (by rw [hc]; rfl)

-- An override of the direction of text, an escape sequence that clears the screen, and a string
-- over two lines that is left open.
theorem report_harmless_override :
    let s : Session := {
      extent := .allButLast
      out    := .empty (some 0)
      log    := { sink := .empty none, colored := true, count := 1 }
    }
    s.err.limit? = none ∧
      ∃ t, (reportSource "\u202e1.\x1b[2J\n\"\n\u0301").run s = .ok () t ∧ t.out = s.out ∧
        s.ReportsHarmlessly (scan "\u202e1.\x1b[2J\n\"\n\u0301" s.extent).errors t := by
  intro s
  exact ⟨rfl, s.report_harmless _ rfl⟩

-- Not all marks that combine with the character before them are in the table: the Devanagari sign
-- U+0903, a spacing combining mark, is shown as itself.
theorem report_spacing_mark :
    let s : Session := {
      extent := .whole
      out    := .empty none
      log    := { sink := .empty none, colored := false }
    }
    ∃ t, (reportSource "\u0903").run s = .ok () t ∧
      t.err.bytes = "[line 1] Error: Unexpected character '\u0903'.\n".toByteArray ∧
      '\u0903' ∈ "[line 1] Error: Unexpected character '\u0903'.\n".toList :=
  ⟨_, rfl, by decide +kernel, by decide⟩

end Session
end LoxLex
