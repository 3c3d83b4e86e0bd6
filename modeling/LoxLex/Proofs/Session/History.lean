import LoxLex.Proofs.Diagnostic.History
import LoxLex.Proofs.Session.Output

namespace LoxLex.Session

inductive Action
  | list (source : String)
  | report (source : String)
  | forget
  deriving DecidableEq

namespace Action

-- A source that is listed gives its scan.
def perform : Action → Command (Option Scan)
  | list source => return some (← Session.list source)
  | report source => do
    Session.report (← scanSource source).errors
    return none
  | forget => do
    forgetErrors
    return none

-- What an action gives and what it adds to the output and to the errors, by itself.

def result (extent : Extent) : Action → Option Scan
  | list source => some (scan source extent)
  | _           => none

def output (extent : Extent) : Action → String
  | list source => Token.list (scan source extent).tokens
  | _           => ""

def errors (extent : Extent) : Action → List Scan.Error
  | list source   => (scan source extent).errors
  | report source => (scan source extent).errors
  | forget        => []

def step (extent : Extent) : Action → ErrorLog.Step
  | list source   => .recordAll ((scan source extent).errors.map .ofError)
  | report source => .recordAll ((scan source extent).errors.map .ofError)
  | forget        => .clear

def leave (s : Session) (a : Action) : Session where
  extent := s.extent
  out    := s.out.write (a.output s.extent)
  log    := (a.step s.extent).perform s.log

variable {s : Session} {extent : Extent} (a : Action)

theorem run_perform (h : s.out.limit? = none) :
    a.perform.run s = .ok (a.result s.extent) (a.leave s) := by
  cases a
  case list => exact run_bind (run_list_of_fits (Sink.fits_of_none h))
  case report =>
    simp only [leave, output, s.out.write_empty]
    rfl
  case forget =>
    simp only [leave, output, s.out.write_empty]
    rfl

theorem diagnostics_step : (a.step extent).diagnostics = (a.errors extent).map .ofError := by
  cases a <;> rfl

theorem startsOver_step : (a.step extent).startsOver = decide (a = forget) := by
  cases a <;> simp [step, ErrorLog.Step.startsOver]

theorem flushes_step : (a.step extent).flushes = decide (a ≠ forget) := by
  cases a <;> simp [step, ErrorLog.Step.flushes]

end Action

variable {extent : Extent} {colored : Bool} {limit? : Option Nat}
variable {s : Session} {past : List Action}

def allErrors (extent : Extent) (past : List Action) : List Scan.Error :=
  past.flatMap (·.errors extent)

theorem diagnostics_steps : (past.map (·.step extent)).flatMap ErrorLog.Step.diagnostics =
    (allErrors extent past).map .ofError := by
  simp only [List.flatMap_map, Action.diagnostics_step, allErrors, List.map_flatMap]

def opened (extent : Extent) (colored : Bool) (limit? : Option Nat) : Session where
  extent := extent
  out    := .empty none
  log    := .opened colored limit?

structure Follows (start : Session) (past : List Action) (s : Session) : Prop where
  extent : s.extent = start.extent
  out    : start.out.Wrote (String.join (past.map (·.output start.extent))) s.out
  log    : start.log.Follows (past.map (·.step start.extent)) s.log

theorem follows_nil : (opened extent colored limit?).Follows [] (opened extent colored limit?) where
  extent := rfl
  out    := .none _
  log    := ErrorLog.follows_nil rfl

theorem Follows.snoc {start : Session} (h : start.Follows past s) (a : Action) :
    start.Follows (past ++ [a]) (a.leave s) where
  extent := h.extent
  out    := by
    have hw := h.out.append (.write s.out (a.output s.extent))
    simpa [Action.leave, h.extent, String.join_append] using hw
  log    := by
    have hl := h.log.snoc (a.step s.extent)
    simpa [Action.leave, h.extent] using hl

-- Actions never stop a session that has no limit on its output.
theorem Follows.run {start : Session} (h : start.Follows past s) (hl : start.out.limit? = none)
    (next : List Action) :
    ∃ t, (next.mapM Action.perform).run s = .ok (next.map (·.result start.extent)) t ∧
      start.Follows (past ++ next) t := by
  induction next generalizing past s
  case nil => exact ⟨s, rfl, by rwa [List.append_nil]⟩
  case cons a next hi =>
    have ⟨t, hr, ht⟩ := hi (h.snoc a)
    have ha := a.run_perform (h.out.limit?.trans hl)
    rw [h.extent] at ha
    refine ⟨t, ?_, by simpa using ht⟩
    rw [List.mapM_cons, run_bind ha, run_bind hr]
    rfl

structure Recorded (extent : Extent) (colored : Bool) (limit? : Option Nat) (past : List Action)
    (s : Session) : Prop where
  count     : s.errorCount = (allErrors extent (recent (· = .forget) past)).length
  hasErrors : s.hasErrors ↔ 0 < s.errorCount
  out       : s.out.bytes = (String.join (past.map (·.output extent))).toByteArray
  err       : s.err.bytes = Sink.clip limit? (String.join ((allErrors extent past).map fun e =>
                (Diagnostic.ofError e).rendered colored)).toByteArray
  flushes   : s.err.flushes = past.countP (· ≠ .forget)

-- Whatever is done with a session, the log has it all, and each action gives and writes what it
-- would have by itself.
theorem history_recorded (extent : Extent) (colored : Bool) (limit? : Option Nat)
    (past : List Action) :
    ∃ s, (past.mapM Action.perform).run (opened extent colored limit?) =
        .ok (past.map (·.result extent)) s ∧ Recorded extent colored limit? past s := by
  have h : (opened extent colored limit?).Follows [] (opened extent colored limit?) := follows_nil
  have ⟨s, hr, hs⟩ := h.run rfl past
  have hl : (ErrorLog.opened colored limit?).Follows (past.map (·.step extent)) s.log := hs.log
  refine ⟨s, hr, ?_⟩
  constructor
  case count =>
    have hc := hl.count
    simp only [recent_map, Action.startsOver_step, diagnostics_steps, List.length_map] at hc
    exact hc
  case hasErrors => exact decide_eq_true_iff
  case out       => exact hs.out.of_empty
  case err =>
    have hw := hl.wrote.bytes
    rw [diagnostics_steps, Diagnostic.render, List.map_map] at hw
    exact hw.trans (congrArg _ ByteArray.empty_append)
  case flushes =>
    have hf := hl.flushes
    simp only [List.countP_map, Function.comp_def, Action.flushes_step] at hf
    exact hf.trans (Nat.zero_add _)

end LoxLex.Session
