import LoxLex.Proofs.Diagnostic.ErrorLog
import LoxLex.Session

namespace LoxLex

def Token.list (ts : List Token) : String :=
  String.join (ts.map fun t => t.listing ++ "\n")

namespace Session

variable {s t : Session} {text : String} {α β : Type} {c : Command α} {f : α → Command β}

def result : EStateM.Result Failure Session α → Except Failure α
  | .ok a _    => .ok a
  | .error e _ => .error e

def after : EStateM.Result Failure Session α → Session
  | .ok _ s    => s
  | .error _ s => s

theorem run_write_of_fits (h : s.out.fits text) :
    (write text).run s = .ok () { s with out := s.out.write text } :=
  if_pos h

theorem run_write_of_not_fits (h : ¬s.out.fits text) :
    (write text).run s = .error (.stream "sink full") { s with out := s.out.write text } :=
  if_neg h

theorem run_bind {a : α} (h : c.run s = .ok a t) : (c >>= f).run s = (f a).run t := by
  rw [EStateM.run_bind, h]

theorem run_bind_error {e : Failure} (h : c.run s = .error e t) :
    (c >>= f).run s = .error e t := by
  rw [EStateM.run_bind, h]

theorem write_empty : write "" = pure () := by
  funext s
  have hr := run_write_of_fits s.out.fits_empty
  rwa [s.out.write_empty] at hr

theorem write_append (a b : String) : (write a >>= fun _ => write b) = write (a ++ b) := by
  funext s
  show (write a >>= fun _ => write b).run s = (write (a ++ b)).run s
  by_cases ha : s.out.fits a
  case pos =>
    rw [run_bind (run_write_of_fits ha)]
    by_cases hb : (s.out.write a).fits b
    case pos =>
      rw [run_write_of_fits hb, run_write_of_fits (Sink.fits_append.mpr ⟨ha, hb⟩), Sink.write_write]
    case neg =>
      have hn : ¬s.out.fits (a ++ b) := fun h => hb (Sink.fits_append.mp h).right
      rw [run_write_of_not_fits hb, run_write_of_not_fits hn, Sink.write_write]
  case neg =>
    have hn : ¬s.out.fits (a ++ b) := fun h => ha (Sink.fits_append.mp h).left
    rw [run_bind_error (run_write_of_not_fits ha), run_write_of_not_fits hn,
      Sink.write_append_of_not_fits ha]

theorem forM_write (texts : α → String) (as : List α) :
    (as.forM fun a => write (texts a)) = write (String.join (as.map texts)) := by
  induction as
  case nil          => exact write_empty.symm
  case cons a as hi =>
    calc (write (texts a) >>= fun _ => as.forM fun a => write (texts a))
      _ = (write (texts a) >>= fun _ => write (String.join (as.map texts))) := by rw [hi]
      _ = write (String.join ((a :: as).map texts)) := by
        rw [write_append, List.map_cons, String.join_cons]

theorem run_scanSource (source : String) (s : Session) :
    (scanSource source).run s = .ok (scan source s.extent) s :=
  rfl

-- A listing is one write.
theorem list_eq (source : String) :
    list source = do
      let result ← scanSource source
      write (Token.list result.tokens)
      report result.errors
      return result := by
  simp only [list, forM_write]
  rfl

def reported (s : Session) (text : String) (errors : List Scan.Error) : Session :=
  { s with out := s.out.write text, log := s.log.recordAll (errors.map .ofError) }

def cutOff (s : Session) (text : String) : Session :=
  { s with out := s.out.write text }

theorem run_list_of_fits {source : String}
    (h : s.out.fits (Token.list (scan source s.extent).tokens)) :
    (list source).run s = .ok (scan source s.extent)
      (s.reported (Token.list (scan source s.extent).tokens) (scan source s.extent).errors) := by
  rw [list_eq, run_bind (run_scanSource source s), run_bind (run_write_of_fits h)]
  rfl

theorem run_list_of_not_fits {source : String}
    (h : ¬s.out.fits (Token.list (scan source s.extent).tokens)) :
    (list source).run s = .error (.stream "sink full")
      (s.cutOff (Token.list (scan source s.extent).tokens)) := by
  rw [list_eq, run_bind (run_scanSource source s), run_bind_error (run_write_of_not_fits h)]
  rfl

end Session
end LoxLex
