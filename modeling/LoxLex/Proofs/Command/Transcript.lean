import LoxLex.Proofs.Command.File
import LoxLex.Proofs.Text.Lines

namespace LoxLex

namespace Command

open Session

-- The lines before the first that is no text.
def readable : List ByteArray → List String
  | []            => []
  | line :: lines =>
    match String.fromUTF8? line with
    | some text => text :: readable lines
    | none      => []

def exchange (extent : Extent) (line : String) : String :=
  "> " ++ listing extent line

def remarks (extent : Extent) (colored : Bool) (lines : List String) : String :=
  String.join (lines.map fun l => Diagnostic.render colored ((scan l extent).errors.map .ofError))

def exchanges (extent : Extent) (lines : List String) : String :=
  String.join (lines.map (exchange extent))

def transcript (extent : Extent) (lines : List ByteArray) : String :=
  exchanges extent (readable lines) ++
    ("> " ++ if (readable lines).length = lines.length then "\nGoodbye!\n" else "")

def outcome (lines : List ByteArray) : Except Failure Unit :=
  if (readable lines).length = lines.length then .ok ()
  else .error (.stream ReadError.invalidText.message)

variable {s t : Session} {line : ByteArray} {lines : List ByteArray} {text : String}
variable {extent : Extent} {colored : Bool}

theorem exchanges_take {texts : List String} {i : Nat} :
    exchanges extent ((text :: texts).take (i + 1)) =
      exchange extent text ++ exchanges extent (texts.take i) := by
  rw [List.take_succ_cons, exchanges, List.map_cons, String.join_cons, exchanges]

section Readable

theorem transcript_nil : transcript extent [] = "> " ++ "\nGoodbye!\n" :=
  String.empty_append

theorem readable_of_some (h : String.fromUTF8? line = some text) :
    readable (line :: lines) = text :: readable lines := by
  rw [readable, h]

theorem readable_of_none (h : String.fromUTF8? line = none) : readable (line :: lines) = [] := by
  rw [readable, h]

theorem transcript_of_some (h : String.fromUTF8? line = some text) :
    transcript extent (line :: lines) = exchange extent text ++ transcript extent lines := by
  simp only [transcript, exchanges, readable_of_some h, List.map_cons, String.join_cons,
    List.length_cons, Nat.add_right_cancel_iff, String.append_assoc]

theorem transcript_of_none (h : String.fromUTF8? line = none) :
    transcript extent (line :: lines) = "> " := by
  simp [transcript, exchanges, readable_of_none h]

theorem outcome_of_some (h : String.fromUTF8? line = some text) :
    outcome (line :: lines) = outcome lines := by
  simp only [outcome, readable_of_some h, List.length_cons, Nat.add_right_cancel_iff]

theorem outcome_of_none (h : String.fromUTF8? line = none) :
    outcome (line :: lines) = .error (.stream ReadError.invalidText.message) := by
  simp [outcome, readable_of_none h]

end Readable

-- What a line leaves of a session: what is reported is not counted any more.
def exchanged (s : Session) (line : String) : Session where
  extent := s.extent
  out    := (s.out.write (exchange s.extent line)).flush
  log    := (s.log.recordAll ((scan line s.extent).errors.map .ofError)).clear

def asked (s : Session) : Session :=
  { s with out := (s.out.write "> ").flush }

theorem run_ask_of_fits (h : s.out.fits "> ") : ask.run s = .ok () (asked s) :=
  run_bind (run_write_of_fits h)

theorem run_ask_of_not_fits (h : ¬s.out.fits "> ") :
    ask.run s = .error (.stream "sink full") (s.cutOff "> ") :=
  run_bind_error (run_write_of_not_fits h)

theorem run_answer_of_none (h : String.fromUTF8? line = none) :
    (answer line).run s = .error (.stream ReadError.invalidText.message) s := by
  rw [answer, decode, h]
  rfl

theorem run_answer_of_fits (h : String.fromUTF8? line = some text)
    (hf : s.out.fits (listing s.extent text)) :
    (answer line).run s = .ok () {
      s with
      out := s.out.write (listing s.extent text)
      log := (s.log.recordAll ((scan text s.extent).errors.map .ofError)).clear
    } := by
  rw [answer, decode, h]
  exact run_bind (run_list_of_fits hf)

theorem run_answer_of_not_fits (h : String.fromUTF8? line = some text)
    (hf : ¬s.out.fits (listing s.extent text)) :
    (answer line).run s = .error (.stream "sink full") (s.cutOff (listing s.extent text)) := by
  rw [answer, decode, h]
  exact run_bind_error (run_list_of_not_fits hf)

theorem prompt_cons :
    prompt (line :: lines) = ((ask >>= fun _ => answer line) >>= fun _ => prompt lines) := by
  rw [prompt, bind_assoc]

theorem run_exchange_of_fits (h : String.fromUTF8? line = some text)
    (hf : s.out.fits (exchange s.extent text)) :
    (ask >>= fun _ => answer line).run s = .ok () (exchanged s text) := by
  have ⟨ha, hl⟩ := Sink.fits_append.mp hf
  have hl : (asked s).out.fits (listing s.extent text) := hl
  rw [run_bind (run_ask_of_fits ha), run_answer_of_fits h hl, exchanged, exchange,
    ← Sink.write_write, ← Sink.write_flush]
  rfl

-- Where the output comes to its limit nothing else is changed.
structure Stops (s : Session) (text : String) (r : EStateM.Result Failure Session Unit) : Prop where
  result : Session.result r = .error (.stream "sink full")
  out    : (after r).out.bytes = (s.out.write text).bytes
  log    : (after r).log = s.log

theorem stops_cutOff (s : Session) (text : String) :
    Stops s text (.error (.stream "sink full") (s.cutOff text)) :=
  ⟨rfl, rfl, rfl⟩

theorem Stops.bind {c d : Command Unit} (h : Stops s text (c.run s)) :
    Stops s text ((c >>= fun _ => d).run s) := by
  cases hr : c.run s
  case ok    => cases hr ▸ h.result
  case error => rwa [run_bind_error hr, ← hr]

theorem bytes_write_asked (s : Session) (text : String) :
    ((asked s).out.write text).bytes = (s.out.write ("> " ++ text)).bytes := by
  rw [← Sink.write_write, asked, Sink.write_flush]
  rfl

theorem stops_ask {c : Command Unit}
    (hc : ¬(asked s).out.fits text → Stops (asked s) text (c.run (asked s)))
    (hf : ¬s.out.fits ("> " ++ text)) : Stops s ("> " ++ text) ((ask >>= fun _ => c).run s) := by
  by_cases ha : s.out.fits "> "
  case pos =>
    have hs := hc fun ht => hf (Sink.fits_append.mpr ⟨ha, ht⟩)
    rw [run_bind (run_ask_of_fits ha)]
    exact ⟨hs.result, hs.out.trans (bytes_write_asked s text), hs.log⟩
  case neg =>
    rw [run_bind_error (run_ask_of_not_fits ha)]
    exact ⟨rfl, congrArg Sink.bytes (Sink.write_append_of_not_fits ha).symm, rfl⟩

theorem stops_exchange (h : String.fromUTF8? line = some text)
    (hf : ¬s.out.fits (exchange s.extent text)) :
    Stops s (exchange s.extent text) ((ask >>= fun _ => answer line).run s) := by
  refine stops_ask (fun hl => ?_) hf
  rw [run_answer_of_not_fits h hl]
  exact stops_cutOff ..

theorem stops_farewell (hf : ¬s.out.fits ("> " ++ "\nGoodbye!\n")) :
    Stops s ("> " ++ "\nGoodbye!\n") ((prompt []).run s) := by
  refine stops_ask (fun hg => ?_) hf
  rw [farewell, run_bind_error (run_write_of_not_fits hg)]
  exact stops_cutOff ..

-- How the prompt goes from a session without errors.
structure Transcribes (s : Session) (lines : List ByteArray)
    (r : EStateM.Result Failure Session Unit) : Prop where
  out     : (after r).out.bytes = (s.out.write (transcript s.extent lines)).bytes
  count   : (after r).errorCount = 0
  covered : s.out.fits (transcript s.extent lines) →
              result r = outcome lines ∧
                (after r).err.bytes = s.err.bytes ++
                  (remarks s.extent s.log.colored (readable lines)).toByteArray
  cutOff  : ¬s.out.fits (transcript s.extent lines) →
              result r = .error (.stream "sink full") ∧
                ∃ k, (after r).err.bytes = s.err.bytes ++
                    (remarks s.extent s.log.colored ((readable lines).take k)).toByteArray ∧
                  ∀ i, i < k ↔ i < (readable lines).length ∧
                    s.out.fits (exchanges s.extent ((readable lines).take (i + 1)))

theorem Stops.transcribes {r : EStateM.Result Failure Session Unit} {rest : String}
    (h : Stops s text r) (hc : s.errorCount = 0) (hf : ¬s.out.fits text)
    (ht : transcript s.extent lines = text ++ rest)
    (hl : ∀ i < (readable lines).length,
      ¬s.out.fits (exchanges s.extent ((readable lines).take (i + 1)))) :
    Transcribes s lines r where
  out := by rw [h.out, ht, Sink.write_append_of_not_fits hf]
  count := by rw [errorCount, h.log]; exact hc
  covered hn := absurd (Sink.fits_append.mp (ht ▸ hn)).left hf
  cutOff _ := by
    refine ⟨h.result, 0, ?_, fun i => ⟨fun hi => absurd hi (Nat.not_lt_zero i), ?_⟩⟩
    case refine_1 => rw [err, h.log]; exact ByteArray.append_empty.symm
    case refine_2 => exact fun hi => absurd hi.right (hl i hi.left)

theorem err_append_remarks_nil : s.err.bytes =
    s.err.bytes ++ (remarks extent colored []).toByteArray :=
  ByteArray.append_empty.symm

theorem transcribes_nil (hc : s.errorCount = 0) : Transcribes s [] ((prompt []).run s) := by
  by_cases hf : s.out.fits ("> " ++ "\nGoodbye!\n")
  case pos =>
    have ⟨ha, hg⟩ := Sink.fits_append.mp hf
    have hg : (asked s).out.fits "\nGoodbye!\n" := hg
    rw [prompt, run_bind (run_ask_of_fits ha), farewell, run_bind (run_write_of_fits hg)]
    exact {
      out       := transcript_nil ▸ bytes_write_asked ..
      count     := hc
      covered _ := ⟨rfl, err_append_remarks_nil⟩
      cutOff hn := absurd (transcript_nil ▸ hf) hn
    }
  case neg =>
    have ht : transcript s.extent [] = "> " ++ "\nGoodbye!\n" ++ "" := by
      rw [transcript_nil, String.append_empty]
    exact (stops_farewell hf).transcribes hc hf ht (by simp [readable])

theorem transcribes_of_none (hl : String.fromUTF8? line = none) (hc : s.errorCount = 0) :
    Transcribes s (line :: lines) ((prompt (line :: lines)).run s) := by
  rw [prompt]
  by_cases hf : s.out.fits "> "
  case pos =>
    rw [run_bind (run_ask_of_fits hf), run_bind_error (run_answer_of_none hl)]
    exact {
      out       := by rw [transcript_of_none hl]; rfl
      count     := hc
      covered _ := ⟨(outcome_of_none hl).symm, readable_of_none hl ▸ err_append_remarks_nil⟩
      cutOff hn := absurd hf (transcript_of_none hl ▸ hn)
    }
  case neg =>
    rw [run_bind_error (run_ask_of_not_fits hf)]
    have ht : transcript s.extent (line :: lines) = "> " ++ "" := by
      rw [transcript_of_none hl, String.append_empty]
    exact (stops_cutOff s "> ").transcribes hc hf ht (by simp [readable_of_none hl])

theorem fits_exchanged (hf : s.out.fits (exchange s.extent text)) {rest : String} :
    (exchanged s text).out.fits rest ↔ s.out.fits (exchange s.extent text ++ rest) := by
  rw [Sink.fits_append, and_iff_right hf]
  rfl

theorem err_exchanged (he : s.err.limit? = none) :
    (exchanged s text).err.bytes =
      s.err.bytes ++ (remarks s.extent s.log.colored [text]).toByteArray := by
  have hr : remarks s.extent s.log.colored [text] =
      Diagnostic.render s.log.colored ((scan text s.extent).errors.map .ofError) := by
    simp [remarks]
  rw [hr]
  exact ErrorLog.bytes_recordAll he

theorem colored_exchanged : (exchanged s text).log.colored = s.log.colored :=
  ErrorLog.colored_foldl

theorem remarks_exchanged (he : s.err.limit? = none) (texts : List String) :
    (exchanged s text).err.bytes ++
        (remarks (exchanged s text).extent (exchanged s text).log.colored texts).toByteArray =
      s.err.bytes ++ (remarks s.extent s.log.colored (text :: texts)).toByteArray := by
  rw [err_exchanged he, colored_exchanged, ByteArray.append_assoc, ← String.toByteArray_append]
  simp only [remarks, List.map_cons, List.map_nil, String.join_cons, String.join_nil,
    String.append_empty]
  rfl

theorem Transcribes.exchange {r : EStateM.Result Failure Session Unit}
    (hl : String.fromUTF8? line = some text) (hf : s.out.fits (exchange s.extent text))
    (he : s.err.limit? = none) (h : Transcribes (exchanged s text) lines r) :
    Transcribes s (line :: lines) r where
  out := by
    rw [h.out, transcript_of_some hl, ← Sink.write_write]
    rfl
  count := h.count
  covered ht := by
    rw [transcript_of_some hl, ← fits_exchanged hf] at ht
    have ⟨hr, hb⟩ := h.covered ht
    rw [outcome_of_some hl, readable_of_some hl, ← remarks_exchanged he]
    exact ⟨hr, hb⟩
  cutOff ht := by
    rw [transcript_of_some hl, ← fits_exchanged hf] at ht
    obtain ⟨hr, k, hb, hk⟩ := h.cutOff ht
    rw [readable_of_some hl]
    refine ⟨hr, k + 1, ?_, fun i => ?_⟩
    case refine_1 => rw [List.take_succ_cons, ← remarks_exchanged he, hb]
    case refine_2 =>
      rw [exchanges_take, ← fits_exchanged hf, List.length_cons]
      cases i
      case zero => simpa [exchanges] using Sink.fits_empty _
      case succ i =>
        rw [Nat.add_lt_add_iff_right, Nat.add_lt_add_iff_right]
        exact hk i

theorem transcribes (hc : s.errorCount = 0) (he : s.err.limit? = none) :
    Transcribes s lines ((prompt lines).run s) := by
  -- Each line leaves a session without errors, whatever is wrong with it.
  induction lines generalizing s
  case nil => exact transcribes_nil hc
  case cons line lines hi =>
    cases hl : String.fromUTF8? line
    case none => exact transcribes_of_none hl hc
    case some text =>
      rw [prompt_cons]
      by_cases hf : s.out.fits (exchange s.extent text)
      case pos =>
        rw [run_bind (run_exchange_of_fits hl hf)]
        have hn : (exchanged s text).err.limit? = none := ErrorLog.wrote_recordAll.limit?.trans he
        exact (hi rfl hn).exchange hl hf he
      case neg =>
        refine (stops_exchange hl hf).bind.transcribes hc hf (transcript_of_some hl) ?_
        intro i _ hn
        rw [readable_of_some hl, exchanges_take] at hn
        exact hf (Sink.fits_append.mp hn).left

def fresh (extent : Extent) (colored : Bool) (limit? : Option Nat) : Session where
  extent := extent
  out    := .empty limit?
  log    := { sink := .empty none, colored }

-- How the prompt goes on lines. If the output is cut off, then the lines whose errors are reported
-- are those whose listing is complete.
structure Prompted (extent : Extent) (colored : Bool) (limit? : Option Nat)
    (lines : List ByteArray) (r : EStateM.Result Failure Session Unit) : Prop where
  out     : (after r).out.bytes = Sink.clip limit? (transcript extent lines).toByteArray
  count   : (after r).errorCount = 0
  covered : (∀ n ∈ limit?, (transcript extent lines).utf8ByteSize ≤ n) →
              result r = outcome lines ∧
                (after r).err.bytes = (remarks extent colored (readable lines)).toByteArray
  cutOff  : ∀ n ∈ limit?, n < (transcript extent lines).utf8ByteSize →
              result r = .error (.stream "sink full") ∧
                ∃ k, (after r).err.bytes =
                    (remarks extent colored ((readable lines).take k)).toByteArray ∧
                  ∀ i, i < k ↔ i < (readable lines).length ∧
                    (exchanges extent ((readable lines).take (i + 1))).utf8ByteSize ≤ n

theorem fits_fresh {limit? : Option Nat} :
    (fresh extent colored limit?).out.fits text ↔ ∀ n ∈ limit?, text.utf8ByteSize ≤ n := by
  have hr : (fresh extent colored limit?).out.room? = limit? := by cases limit? <;> rfl
  rw [Sink.fits_iff, hr]

-- Each line is answered by itself, up to the first that is no text or has no room.
theorem prompt_transcript (input : ByteArray) (extent : Extent) (colored : Bool)
    (limit? : Option Nat) :
    ByteLines input.data.toList ((Command.lines input).map (·.data.toList)) ∧
      Prompted extent colored limit? (Command.lines input)
        ((prompt (Command.lines input)).run (fresh extent colored limit?)) := by
  have h : Transcribes (fresh extent colored limit?) (Command.lines input) _ := transcribes rfl rfl
  refine ⟨.of_lines input, ?_⟩
  constructor
  case out     => exact h.out
  case count   => exact h.count
  case covered =>
    intro hn
    have ⟨hr, hb⟩ := h.covered (fits_fresh.mpr hn)
    exact ⟨hr, hb.trans ByteArray.empty_append⟩
  case cutOff  =>
    intro n hl hn
    have fits_le (text : String) :
        (fresh extent colored limit?).out.fits text ↔ text.utf8ByteSize ≤ n := by
      simp [fits_fresh, Option.mem_def.mp hl]
    obtain ⟨hr, k, hb, hk⟩ := h.cutOff (mt (fits_le _).mp (Nat.not_le.mpr hn))
    refine ⟨hr, k, hb.trans ByteArray.empty_append, fun i => (hk i).trans ?_⟩
    rw [fits_le]
    rfl

end Command
end LoxLex
