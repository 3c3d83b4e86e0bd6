import LoxLex.Diagnostic.ErrorLog
import LoxLex.Proofs.Sink

namespace LoxLex

namespace Diagnostic

def render (colored : Bool) (ds : List Diagnostic) : String :=
  String.join (ds.map (·.rendered colored))

theorem render_cons (colored : Bool) (d : Diagnostic) (ds : List Diagnostic) :
    render colored (d :: ds) = d.rendered colored ++ render colored ds := by
  rw [render, List.map_cons, String.join_cons]
  rfl

theorem join_writes (d : Diagnostic) (colored : Bool) :
    String.join ((d.writes colored).map String.join) = d.rendered colored := by
  cases colored <;> simp [writes, rendered, text, textWith, String.join_cons, String.append_assoc]

end Diagnostic

namespace ErrorLog

variable {log : ErrorLog} {ds : List Diagnostic}

theorem put_eq (log : ErrorLog) (d : Diagnostic) :
    log.put d = { log with sink := log.sink.write (d.rendered log.colored) } := by
  rw [put, Sink.foldl_writeParts, d.join_writes]

theorem putAll_eq (log : ErrorLog) (ds : List Diagnostic) :
    log.putAll ds = { log with sink := log.sink.write (Diagnostic.render log.colored ds) } := by
  induction ds generalizing log
  case nil =>
    rw [Diagnostic.render, List.map_nil, String.join_nil, log.sink.write_empty]
    rfl
  case cons d ds hi =>
    rw [putAll, List.foldl_cons]
    refine (hi _).trans ?_
    rw [put_eq, Sink.write_write, Diagnostic.render_cons]

theorem wrote_put (log : ErrorLog) (d : Diagnostic) :
    log.sink.Wrote (d.rendered log.colored) (log.put d).sink := by
  rw [put_eq]
  exact .write ..

theorem wrote_putAll (log : ErrorLog) (ds : List Diagnostic) :
    log.sink.Wrote (Diagnostic.render log.colored ds) (log.putAll ds).sink := by
  rw [putAll_eq]
  exact .write ..

-- Counting makes no difference to what is written.
theorem foldl_record (log : ErrorLog) (ds : List Diagnostic) :
    ds.foldl record log = { log.putAll ds with count := log.count + ds.length } := by
  induction ds generalizing log
  case nil => rfl
  case cons d ds hi =>
    rw [List.foldl_cons, hi, putAll_eq, putAll_eq, record, put_eq, Diagnostic.render_cons,
      ← Sink.write_write, List.length_cons, Nat.add_comm ds.length, Nat.add_assoc]

theorem recordAll_eq (log : ErrorLog) (ds : List Diagnostic) :
    log.recordAll ds = {
      sink    := (log.sink.write (Diagnostic.render log.colored ds)).flush
      colored := log.colored
      count   := log.count + ds.length
    } := by
  rw [recordAll, foldl_record, putAll_eq]
  rfl

theorem colored_foldl : (ds.foldl record log).colored = log.colored := by
  rw [foldl_record, putAll_eq]

theorem wrote_recordAll :
    log.sink.Wrote (Diagnostic.render log.colored ds) (log.recordAll ds).sink := by
  rw [recordAll_eq]
  exact (Sink.Wrote.write ..).flush

theorem bytes_recordAll (h : log.sink.limit? = none) :
    (log.recordAll ds).sink.bytes =
      log.sink.bytes ++ (Diagnostic.render log.colored ds).toByteArray := by
  rw [wrote_recordAll.bytes, h, Sink.clip]

theorem count_recordAll : (log.recordAll ds).count = log.count + ds.length := by
  rw [recordAll_eq]

theorem flushes_recordAll : (log.recordAll ds).sink.flushes = log.sink.flushes + 1 := by
  rw [recordAll_eq]
  rfl

end ErrorLog
end LoxLex
