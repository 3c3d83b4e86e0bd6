import LoxLex.Command
import LoxLex.Proofs.Session.Output

namespace LoxLex

def Token.dumps (ts : List Token) : String :=
  String.join (ts.map fun t => "  " ++ t.dump ++ "\n")

namespace Session

variable {s t : Session} {text source path : String} {read : FileReader} {errors : List Scan.Error}
variable {α : Type} {c : Command α} {ending : Session → EStateM.Result Failure Session α}

-- How a command goes that writes a text and then reports errors. Either there is room for all of
-- the text, or all that is left is what there was room for: the log is as it was, with its count
-- of errors, its bytes and its flushes.
structure Reports (c : Command α) (s : Session) (text : String) (errors : List Scan.Error)
    (ending : Session → EStateM.Result Failure Session α) : Prop where
  covered : (∀ n ∈ s.out.room?, text.utf8ByteSize ≤ n) →
    ∃ t, c.run s = ending t ∧ t.out.bytes = s.out.bytes ++ text.toByteArray ∧
      t.errorCount = s.errorCount + errors.length ∧
      t.err.bytes = s.err.bytes ++
        (String.join (errors.map fun e =>
          (Diagnostic.ofError e).rendered s.log.colored)).toByteArray
  cutOff : ∀ n ∈ s.out.room?, n < text.utf8ByteSize →
    ∃ t, c.run s = .error (.stream "sink full") t ∧
      t.out.bytes = s.out.bytes ++ text.toByteArray.extract 0 n ∧ t.log = s.log

theorem Reports.of_run (he : s.err.limit? = none)
    (hf : s.out.fits text → ∃ t, c.run s = ending t ∧ t.out.bytes = (s.out.write text).bytes ∧
      t.log = s.log.recordAll (errors.map .ofError))
    (hn : ¬s.out.fits text → c.run s = .error (.stream "sink full") (s.cutOff text)) :
    Reports c s text errors ending := by
  constructor
  case covered =>
    intro h
    have hs := Sink.fits_iff.mpr h
    have ⟨t, hr, ho, hl⟩ := hf hs
    refine ⟨t, hr, ho.trans (Sink.bytes_write_of_fits hs), ?_, ?_⟩
    case refine_1 => rw [errorCount, hl, ErrorLog.count_recordAll, List.length_map, errorCount]
    case refine_2 =>
      rw [err, hl, ErrorLog.bytes_recordAll he, Diagnostic.render, List.map_map, err]
      rfl
  case cutOff =>
    intro n hn' hl
    have hs : ¬s.out.fits text := fun hs => Nat.not_le.mpr hl (Sink.fits_iff.mp hs n hn')
    refine ⟨_, hn hs, ?_, rfl⟩
    rw [Session.cutOff, Sink.bytes_write, Option.mem_def.mp hn', Sink.clip]

-- A command on a whole file fails if there are errors, be they of this file or from before.
def ended (s : Session) : EStateM.Result Failure Session Unit :=
  if 0 < s.errorCount then .error (.scan s.errorCount) s else .ok () s

theorem run_failOnErrors (s : Session) : failOnErrors.run s = s.ended := by
  have hb : s.hasErrors = decide (0 < s.errorCount) := rfl
  by_cases h : 0 < s.errorCount
  case pos => simp [failOnErrors, ended, hb, h]
  case neg => simp [failOnErrors, ended, hb, h]

theorem result_ended :
    result s.ended = if 0 < s.errorCount then .error (.scan s.errorCount) else .ok () := by
  rw [ended]
  split <;> rfl

theorem after_ended : after s.ended = s := by
  rw [ended]
  split <;> rfl

theorem decode_toByteArray (text : String) : decode text.toByteArray = .ok text := by
  rw [decode, String.fromUTF8?, dif_pos text.isValidUTF8]
  rfl

theorem run_readText (h : (read path >>= decode) = .ok text) :
    (readText read path).run s = .ok text s := by
  rw [readText, h]
  rfl

theorem run_readText_error {e : ReadError} (h : (read path >>= decode) = .error e) :
    (readText read path).run s = .error (.unreadable path e.message) s := by
  rw [readText, h]
  rfl

end Session

namespace Command

open Session

variable {s t : Session} {text path : String} {read : FileReader} {e : ReadError}

def headline (path : String) (count : Nat) : String :=
  "Tokens for '" ++ path ++ "' (" ++ count.repr ++ " tokens):\n"

def listing (extent : Extent) (text : String) : String :=
  Token.list (scan text extent).tokens

def dumping (path : String) (extent : Extent) (text : String) : String :=
  headline path (scan text extent).tokens.length ++ Token.dumps (scan text extent).tokens

theorem run_listFile_error (h : (read path >>= decode) = .error e) :
    (listFile read path).run s = .error (.unreadable path e.message) s :=
  run_bind_error (run_readText_error h)

theorem run_dumpFile_error (h : (read path >>= decode) = .error e) :
    (dumpFile read path).run s = .error (.unreadable path e.message) s :=
  run_bind_error (run_readText_error h)

def completed (s : Session) (text : String) (errors : List Scan.Error) : Session :=
  { s.reported text errors with out := (s.out.write text).flush }

section

variable (h : (read path >>= decode) = .ok text)
include h

theorem run_listFile_of_fits (hf : s.out.fits (listing s.extent text)) :
    (listFile read path).run s =
      (completed s (listing s.extent text) (scan text s.extent).errors).ended := by
  have hl := run_bind (f := fun _ => do flush; failOnErrors) (run_list_of_fits hf)
  rw [listFile, run_bind (run_readText h)]
  exact hl.trans (run_failOnErrors _)

theorem run_listFile_of_not_fits (hf : ¬s.out.fits (listing s.extent text)) :
    (listFile read path).run s =
      .error (.stream "sink full") (s.cutOff (listing s.extent text)) := by
  rw [listFile, run_bind (run_readText h), run_bind_error (run_list_of_not_fits hf)]
  rfl

theorem run_dumpFile (s : Session) :
    (dumpFile read path).run s = (do
      write (dumping path s.extent text)
      flush
      report (scan text s.extent).errors
      failOnErrors : Command Unit).run s := by
  rw [dumpFile, run_bind (run_readText h), run_bind (run_scanSource text s), dumping,
    ← write_append (headline ..) (Token.dumps _), bind_assoc, forM_write]
  rfl

theorem run_dumpFile_of_fits (hf : s.out.fits (dumping path s.extent text)) :
    (dumpFile read path).run s =
      (completed s (dumping path s.extent text) (scan text s.extent).errors).ended := by
  rw [run_dumpFile h, run_bind (run_write_of_fits hf)]
  exact run_failOnErrors _

theorem run_dumpFile_of_not_fits (hf : ¬s.out.fits (dumping path s.extent text)) :
    (dumpFile read path).run s =
      .error (.stream "sink full") (s.cutOff (dumping path s.extent text)) := by
  rw [run_dumpFile h, run_bind_error (run_write_of_not_fits hf)]
  rfl

end

structure Atomic (s : Session) (read : FileReader) (path : String) : Prop where
  list       : ∀ source, Reports (Session.list source) s (listing s.extent source)
                 (scan source s.extent).errors (.ok (scan source s.extent))
  listFile   : ∀ text, (read path >>= decode) = .ok text →
                 Reports (listFile read path) s (listing s.extent text)
                   (scan text s.extent).errors ended
  dumpFile   : ∀ text, (read path >>= decode) = .ok text →
                 Reports (dumpFile read path) s (dumping path s.extent text)
                   (scan text s.extent).errors ended
  unreadable : ∀ e, (read path >>= decode) = .error e →
                 (Command.listFile read path).run s = .error (.unreadable path e.message) s ∧
                   (Command.dumpFile read path).run s = .error (.unreadable path e.message) s
  agree      : ∀ text, (read path >>= decode) = .ok text →
                 (∀ n ∈ s.out.room?, (listing s.extent text).utf8ByteSize ≤ n ∧
                   (dumping path s.extent text).utf8ByteSize ≤ n) →
                     result ((Command.listFile read path).run s) =
                         result ((Command.dumpFile read path).run s) ∧
                       (after ((Command.listFile read path).run s)).log =
                         (after ((Command.dumpFile read path).run s)).log

-- Nothing is reported unless the output is complete.
theorem output_atomic (s : Session) (read : FileReader) (path : String)
    (h : s.err.limit? = none) : Atomic s read path := by
  constructor
  case list =>
    exact fun source => .of_run h (fun hf => ⟨_, run_list_of_fits hf, rfl, rfl⟩)
      fun hf => run_list_of_not_fits hf
  case listFile =>
    exact fun text hr => .of_run h (fun hf => ⟨_, run_listFile_of_fits hr hf, rfl, rfl⟩)
      fun hf => run_listFile_of_not_fits hr hf
  case dumpFile =>
    exact fun text hr => .of_run h (fun hf => ⟨_, run_dumpFile_of_fits hr hf, rfl, rfl⟩)
      fun hf => run_dumpFile_of_not_fits hr hf
  case unreadable => exact fun e hr => ⟨run_listFile_error hr, run_dumpFile_error hr⟩
  case agree =>
    intro text hr hn
    have hl := Sink.fits_iff.mpr fun n hm => (hn n hm).left
    have hd := Sink.fits_iff.mpr fun n hm => (hn n hm).right
    rw [run_listFile_of_fits hr hl, run_dumpFile_of_fits hr hd]
    simp only [result_ended, after_ended]
    exact ⟨rfl, rfl⟩

-- A session with an error from before, whose output takes a part of the listing.
theorem output_atomic_allButLast :
    let read : FileReader := fun path =>
      if path = "a.lox" then .ok "1.\n@;".toByteArray else .error .missing
    let s : Session := {
      extent := .allButLast
      out    := .empty (some 12)
      log    := { sink := .empty none, colored := false, count := 1 }
    }
    s.err.limit? = none ∧ Atomic s read "a.lox" := by
  intro read s
  exact ⟨rfl, output_atomic s read "a.lox" rfl⟩

end Command
end LoxLex
