import LoxLex.Proofs.Command.File
import LoxLex.Proofs.Text.Lines
import LoxLex.Proofs.Token.Dump

namespace LoxLex

namespace Token

variable {t : Token} {ts us : List Token}

theorem toList_dumps_cons : (dumps (t :: ts)).toList =
    ' ' :: ' ' :: (t.dump.toList ++ '\n' :: (dumps ts).toList) := by
  simp [dumps, String.join_cons]

theorem lines_dumps :
    Lines (dumps ts).toList (ts.map fun t => ("  " ++ t.dump ++ "\n").toList) := by
  induction ts
  case nil => exact .none
  case cons t ts hi =>
    have hm : '\n' ∉ ' ' :: ' ' :: t.dump.toList := by simp [t.newline_not_mem_dump]
    have hl : ("  " ++ t.dump ++ "\n").toList = (' ' :: ' ' :: t.dump.toList) ++ ['\n'] := by simp
    rw [toList_dumps_cons, List.map_cons, hl]
    exact .line hm hi

theorem count_dumps : (dumps ts).toList.count '\n' = ts.length :=
  count_join_of_not_mem fun t _ => by simp [t.newline_not_mem_dump]

-- By induction on one list. Of two lists with the same dump, the first tokens are the same, and so
-- are the dumps of the others.
theorem dumps_injective (ht : ∀ t ∈ ts, t.WellFormed) (hu : ∀ u ∈ us, u.WellFormed)
    (h : dumps ts = dumps us) : ts = us := by
  induction ts generalizing us
  case nil =>
    cases us
    case nil => rfl
    case cons =>
      have h := congrArg String.toList h
      rw [toList_dumps_cons] at h
      cases h
  case cons t ts hi =>
    have ⟨htw, hts⟩ := List.forall_mem_cons.mp ht
    have h := congrArg String.toList h
    rw [toList_dumps_cons] at h
    cases us
    case nil => cases h
    case cons u us =>
      have ⟨huw, hus⟩ := List.forall_mem_cons.mp hu
      rw [toList_dumps_cons] at h
      have ⟨he, h⟩ := htw.dump_append_inj huw (List.cons.inj (List.cons.inj h).right).right
      rw [he, hi hts hus (String.toList_inj.mp h)]

end Token

namespace Command

open Session

structure Faithful (s : Session) (read : FileReader) (path text : String) : Prop where
  out    : (∀ n ∈ s.out.room?, (dumping path s.extent text).utf8ByteSize ≤ n) →
             (after ((dumpFile read path).run s)).out.bytes = s.out.bytes ++
               (headline path (scan text s.extent).tokens.length ++
                 Token.dumps (scan text s.extent).tokens).toByteArray
  count  : (Token.dumps (scan text s.extent).tokens).toList.count '\n' =
             (scan text s.extent).tokens.length
  lines  : Lines (Token.dumps (scan text s.extent).tokens).toList
             ((scan text s.extent).tokens.map fun t => ("  " ++ t.dump ++ "\n").toList)
  unique : ∀ (other : String) (extent : Extent), other.utf8ByteSize < Source.maxLength →
             Token.dumps (scan text s.extent).tokens = Token.dumps (scan other extent).tokens →
               (scan text s.extent).tokens = (scan other extent).tokens

-- The tokens of a file can be told from its dump, whatever is in it.
theorem dumpFile_faithful (s : Session) (read : FileReader) (path text : String)
    (hr : (read path >>= decode) = .ok text) (hs : text.utf8ByteSize < Source.maxLength) :
    Faithful s read path text := by
  constructor
  case out =>
    intro h
    have hf := Sink.fits_iff.mpr h
    rw [run_dumpFile_of_fits hr hf, after_ended]
    exact Sink.bytes_write_of_fits hf
  case count => exact Token.count_dumps
  case lines => exact Token.lines_dumps
  case unique =>
    exact fun other extent ho =>
      Token.dumps_injective (wellFormed_of_mem_scan hs) (wellFormed_of_mem_scan ho)

-- A string over two lines whose second looks like a line of a dump.
theorem dumpFile_faithful_string :
    let text := "\"\\\n  Number \\u\x7b0\x7d = String(..) @ line 3\" or 1.5"
    let read : FileReader := fun _ => .ok text.toByteArray
    let s : Session := {
      extent := .whole
      out    := .empty (some 300)
      log    := { sink := .empty none, colored := false }
    }
    (read "a.lox" >>= decode) = .ok text ∧ text.utf8ByteSize < Source.maxLength ∧
      Faithful s read "a.lox" text := by
  intro text read s
  have hr : (read "a.lox" >>= decode) = .ok text := decode_toByteArray text
  have hs : text.utf8ByteSize < Source.maxLength := by decide
  exact ⟨hr, hs, dumpFile_faithful s read "a.lox" text hr hs⟩

end Command
end LoxLex
