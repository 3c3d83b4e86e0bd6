import LoxLex.Diagnostic.Coloring
import LoxLex.Proofs.Diagnostic.ErrorLog

namespace LoxLex

section

variable {α β : Type} {startsOver : α → Bool} {past : List α}

-- What comes behind the last thing that starts over.
def recent (startsOver : α → Bool) (past : List α) : List α :=
  (past.reverse.takeWhile (!startsOver ·)).reverse

theorem recent_append {a : α} : recent startsOver (past ++ [a]) =
    if startsOver a then [] else recent startsOver past ++ [a] := by
  by_cases h : startsOver a <;> simp [recent, h]

theorem recent_map {f : β → α} {past : List β} :
    recent startsOver (past.map f) = (recent (fun b => startsOver (f b)) past).map f := by
  rw [recent, ← List.map_reverse, List.takeWhile_map, ← List.map_reverse]
  rfl

end

namespace ErrorLog

inductive Step
  | record (d : Diagnostic)
  | recordAll (ds : List Diagnostic)
  | clear
  | flush
  -- Diagnostics are written but not counted, and a new log goes on with the same sink.
  | putAll (ds : List Diagnostic)
  deriving DecidableEq

namespace Step

def perform (log : ErrorLog) : Step → ErrorLog
  | record d     => log.record d
  | recordAll ds => log.recordAll ds
  | clear        => log.clear
  | flush        => log.flush
  | putAll ds    => { sink := (log.putAll ds).sink, colored := log.colored }

-- What a step writes, whether it flushes, and whether the count starts over with it.

def diagnostics : Step → List Diagnostic
  | record d     => [d]
  | recordAll ds => ds
  | putAll ds    => ds
  | _            => []

def flushes : Step → Bool
  | recordAll _ => true
  | flush       => true
  | _           => false

def startsOver : Step → Bool
  | clear    => true
  | putAll _ => true
  | _        => false

variable {log : ErrorLog} (step : Step)

theorem colored_perform : (step.perform log).colored = log.colored := by
  cases step
  case recordAll => exact colored_foldl
  all_goals rfl

theorem wrote_perform :
    log.sink.Wrote (Diagnostic.render log.colored step.diagnostics) (step.perform log).sink := by
  cases step
  case record => exact log.wrote_put _
  case recordAll => exact wrote_recordAll
  case clear => exact .none _
  case flush => exact (Sink.Wrote.none _).flush
  case putAll => exact log.wrote_putAll _

theorem count_perform : (step.perform log).count =
    if step.startsOver then 0 else log.count + step.diagnostics.length := by
  cases step
  case recordAll => exact count_recordAll
  all_goals rfl

theorem flushes_perform : (step.perform log).sink.flushes =
    log.sink.flushes + if step.flushes then 1 else 0 := by
  cases step
  case recordAll => exact flushes_recordAll
  case record => exact congrArg (·.sink.flushes) (log.put_eq _)
  case putAll => exact congrArg (·.sink.flushes) (log.putAll_eq _)
  all_goals rfl

end Step

variable {start log : ErrorLog} {past : List Step} {step : Step}

def opened (colored : Bool) (limit? : Option Nat) : ErrorLog where
  sink    := .empty limit?
  colored := colored

structure Follows (start : ErrorLog) (past : List Step) (log : ErrorLog) : Prop where
  colored : log.colored = start.colored
  wrote   : start.sink.Wrote
              (Diagnostic.render start.colored (past.flatMap Step.diagnostics)) log.sink
  count   : log.count = ((recent Step.startsOver past).flatMap Step.diagnostics).length
  flushes : log.sink.flushes = start.sink.flushes + past.countP Step.flushes

theorem follows_nil (h : start.count = 0) : start.Follows [] start where
  colored := rfl
  wrote   := .none _
  count   := h
  flushes := rfl

theorem Follows.snoc (h : start.Follows past log) (step : Step) :
    start.Follows (past ++ [step]) (step.perform log) where
  colored := step.colored_perform.trans h.colored
  wrote   := by
    have hw := h.wrote.append step.wrote_perform
    rw [h.colored] at hw
    simpa [Diagnostic.render, String.join_append] using hw
  count   := by
    rw [step.count_perform, recent_append, h.count]
    split <;> simp
  flushes := by
    rw [step.flushes_perform, h.flushes, List.countP_append, List.countP_singleton, Nat.add_assoc]

theorem Follows.run (h : start.Follows past log) (next : List Step) :
    start.Follows (past ++ next) (next.foldl Step.perform log) := by
  induction next generalizing past log
  case nil => rwa [List.append_nil]
  case cons step next hi =>
    have := hi (h.snoc step)
    rwa [List.append_assoc] at this

structure Logged (colored : Bool) (limit? : Option Nat) (past : List Step) (log : ErrorLog) :
    Prop where
  bytes     : log.sink.bytes = Sink.clip limit?
                (String.join ((past.flatMap Step.diagnostics).map (·.rendered colored))).toByteArray
  count     : log.count = ((recent Step.startsOver past).flatMap Step.diagnostics).length
  hasErrors : log.hasErrors ↔ 0 < log.count
  flushes   : log.sink.flushes = past.countP Step.flushes

-- However a log is used, and wherever its sink is full.
theorem steps_logged (color : Coloring) (onTerminal : Bool) (limit? : Option Nat)
    (steps : List Step) :
    Logged (color.applies onTerminal) limit? steps
      (steps.foldl Step.perform (opened (color.applies onTerminal) limit?)) := by
  let start := opened (color.applies onTerminal) limit?
  have hn : start.Follows [] start := follows_nil rfl
  have h := hn.run steps
  constructor
  case bytes     => exact h.wrote.bytes.trans (congrArg _ ByteArray.empty_append)
  case count     => exact h.count
  case hasErrors => exact decide_eq_true_iff
  case flushes   => exact h.flushes.trans (Nat.zero_add _)

end ErrorLog
end LoxLex
