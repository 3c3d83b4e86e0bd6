import LoxLex.Proofs.CommandLine.Outcome
import LoxLex.Proofs.Scan.Lines

namespace LoxLex

theorem join_flatMap {α : Type} {xs : List α} {f : α → List String} :
    String.join (xs.flatMap f) = String.join (xs.map fun x => String.join (f x)) := by
  induction xs
  case nil          => rfl
  case cons x xs hi =>
    rw [List.flatMap_cons, String.join_append, hi, List.map_cons, String.join_cons]

-- A listing does not name lines.
theorem Token.list_onLine (line : Nat) (ts : List Token) :
    list (ts.map (.onLine line)) = list ts := by
  rw [list, List.map_map]
  rfl

def Scan.Error.told (line : Nat) (e : Error) : String :=
  "[line " ++ line.repr ++ "] Error: " ++ e.message ++ "\n"

theorem Diagnostic.rendered_ofError (e : Scan.Error) :
    (ofError e).rendered false = e.told e.line := by
  have hp : "] Error: " = "] " ++ "" ++ "Error" ++ "" ++ ": " := rfl
  simp only [Scan.Error.told, hp, ← String.append_assoc]
  rfl

theorem Diagnostic.render_ofError (es : List Scan.Error) :
    render false (es.map .ofError) = String.join (es.map fun e => e.told e.line) := by
  rw [render, List.map_map]
  exact congrArg _ (List.map_congr_left fun e _ => rendered_ofError e)

def listed (extent : Extent) (source : String) : String :=
  Token.list (scan source extent).found

def told (extent : Extent) (line : Nat) (source : String) : String :=
  String.join ((scan source extent).errors.map (·.told line))

theorem list_tokens {source : String} {extent : Extent}
    (h : source.utf8ByteSize < Source.maxLength) :
    Token.list (scan source extent).tokens = listed extent source ++ "EOF  null\n" := by
  rw [listed, scan_cut extent h, Piece.found_ofPieces, Scan.ofPieces, Piece.tokens_eq, Token.list,
    List.map_append, String.join_append]
  rfl

section

variable {text : String} {extent : Extent} (h : text.utf8ByteSize < Source.maxLength)
variable (hc : ∀ l ∈ textLines text, ∀ n, .unterminated n ∉ (scan l extent).errors)
include h hc

theorem listed_lines :
    listed extent text = String.join ((textLines text).map (listed extent)) := by
  have hf := List.zipIdx_map_fst 1 (textLines text)
  conv => rhs; rw [← hf, List.map_map]
  rw [listed, found_lines h hc, Token.list, List.map_flatMap, join_flatMap]
  exact congrArg _ (List.map_congr_left fun x _ => Token.list_onLine x.2 (scan x.1 extent).found)

theorem render_lines :
    Diagnostic.render false ((scan text extent).errors.map .ofError) =
      String.join (((textLines text).zipIdx 1).map fun x => told extent x.2 x.1) := by
  rw [Diagnostic.render_ofError, errors_lines h hc, List.map_flatMap, join_flatMap]
  refine congrArg _ (List.map_congr_left fun x _ => ?_)
  rw [List.map_map]
  refine congrArg _ (List.map_congr_left fun e _ => ?_)
  cases e <;> rfl

-- By itself, each line is the first one.
theorem render_line {l : String} (hl : l ∈ textLines text) :
    Diagnostic.render false ((scan l extent).errors.map .ofError) = told extent 1 l := by
  rw [Diagnostic.render_ofError]
  exact congrArg _ (List.map_congr_left fun e he => by rw [line_of_mem_errors h hc hl e he])

end

namespace Command

theorem readable_toByteArray (lines : List String) :
    readable (lines.map String.toByteArray) = lines := by
  induction lines
  case nil            => rfl
  case cons line _ hi => rw [List.map_cons, readable_of_some (Utf8.fromUTF8?_toByteArray line), hi]

theorem transcript_toByteArray (extent : Extent) (lines : List String) :
    transcript extent (lines.map String.toByteArray) =
      exchanges extent lines ++ "> \nGoodbye!\n" := by
  simp [transcript, readable_toByteArray]

end Command

namespace CommandLine

open Session Command

structure Agree (extent : Extent) (lines : List String) (typed filed : Outcome) : Prop where
  typedOut : typed.stdout =
    (String.join (lines.map fun l => "> " ++ listed extent l ++ "EOF  null\n") ++
      "> \nGoodbye!\n").toByteArray
  typedErr : typed.stderr = (String.join (lines.map (told extent 1))).toByteArray
  filedOut : filed.stdout = (String.join (lines.map (listed extent)) ++ "EOF  null\n").toByteArray
  filedErr : filed.stderr =
    (String.join ((lines.zipIdx 1).map fun x => told extent x.2 x.1)).toByteArray

-- Whether a text is typed or run, the same is told of each of its lines.
theorem prompt_run_agree (text path : String) (read : FileReader) (input : ByteArray)
    (options : Options) (onTerminal : Bool)
    (hs : text.utf8ByteSize < Source.maxLength)
    (hc : options.color.applies onTerminal = false)
    (hr : read path = .ok text.toByteArray)
    (hl : ∀ l ∈ textLines text, ∀ n, .unterminated n ∉ (scan l options.extent).errors) :
    Agree options.extent (textLines text)
      (.ofResult ((perform read text.toByteArray .prompt).run (session options onTerminal)))
      (.ofResult ((perform read input (.run path)).run (session options onTerminal))) := by
  have hd : (read path >>= decode) = .ok text := hr ▸ decode_toByteArray text
  have he : (session options onTerminal).extent = options.extent := rfl
  rw [perform, perform, ofResult_prompt, run_listFile_of_fits hd (Sink.fits_of_none rfl),
    ofResult_completed, he, hc, lines_toByteArray, readable_toByteArray, transcript_toByteArray,
    List.length_map, if_pos rfl, if_pos rfl, String.append_empty]
  constructor
  case typedOut =>
    refine congrArg (fun ls => (String.join ls ++ _).toByteArray) ?_
    refine List.map_congr_left fun l hm => ?_
    have hs : l.utf8ByteSize < Source.maxLength := Nat.lt_of_le_of_lt (utf8ByteSize_le_of_mem hm) hs
    rw [exchange, listing, list_tokens hs, String.append_assoc]
  case typedErr =>
    refine congrArg (fun ls => (String.join ls).toByteArray) ?_
    exact List.map_congr_left fun l hm => render_line hs hl hm
  case filedOut => rw [listing, list_tokens hs, listed_lines hs hl]
  case filedErr => rw [render_lines hs hl]

-- Of the last line, which has no newline, the last character is dropped, as it is of the text.
theorem prompt_run_agree_allButLast :
    let text : String     := "1.\n@\nor !"
    let read : FileReader := fun path =>
      if path = "a.lox" then .ok text.toByteArray else .error .missing
    let options : Options := { extent := .allButLast, color := .never }
    text.utf8ByteSize < Source.maxLength ∧
      options.color.applies true = false ∧
      read "a.lox" = .ok text.toByteArray ∧
      (∀ l ∈ textLines text, ∀ n, .unterminated n ∉ (scan l options.extent).errors) ∧
      Agree .allButLast ["1.\n", "@\n", "or !"]
        (.ofResult ((perform read text.toByteArray .prompt).run (session options true)))
        (.ofResult ((perform read .empty (.run "a.lox")).run (session options true))) := by
  intro text read options
  have hs : text.utf8ByteSize < Source.maxLength := by decide
  have ht : textLines text = ["1.\n", "@\n", "or !"] := by decide
  have hl : ∀ l ∈ textLines text, ∀ n, .unterminated n ∉ (scan l options.extent).errors := by
    have hq : ∀ l ∈ textLines text, '"' ∉ Extent.allButLast.cut l.toList := by decide
    intro l hm
    have hs : l.utf8ByteSize < Source.maxLength := Nat.lt_of_le_of_lt (utf8ByteSize_le_of_mem hm) hs
    rw [scan_cut _ hs]
    exact Piece.not_unterminated_mem_errors.mpr (Piece.Closed.of_not_mem (hq l hm))
  have h := prompt_run_agree text "a.lox" read .empty options true hs rfl rfl hl
  rw [ht] at h
  exact ⟨hs, rfl, rfl, hl, h⟩

end CommandLine
end LoxLex
