import LoxLex.Options

namespace LoxLex

theorem Coloring.ofName?_eq_some {name : String} {mode : Coloring} :
    ofName? name = some mode ↔ name = mode.name := by
  constructor
  case mp =>
    intro h
    have hn := List.find?_some h
    exact (beq_iff_eq.mp hn).symm
  case mpr =>
    rintro rfl
    cases mode <;> decide

namespace Options

variable {start text rest argument value : String} {arguments : List String} {parsed : Parsed}

theorem after?_eq_some : after? start text = some rest ↔ text = start ++ rest := by
  have hp : start.toList.isPrefixOf text.toList ↔ start.toList <+: text.toList :=
    List.isPrefixOf_iff_prefix
  constructor
  case mp =>
    intro h
    rw [after?] at h
    split at h
    case isFalse => cases h
    case isTrue hs =>
      cases h
      rw [← String.toList_inj, String.toList_append, String.toList_ofList]
      exact (List.prefix_iff_eq_append.mp (hp.mp hs)).symm
  case mpr =>
    rintro rfl
    rw [after?, if_pos (hp.mpr _)]
    all_goals simp [String.toList_append]

theorem isSome_after? : (after? start text).isSome = start.toList.isPrefixOf text.toList := by
  rw [after?]
  split
  case isTrue h  => exact h.symm
  case isFalse h => exact (Bool.eq_false_iff.mpr h).symm

def understood : List String :=
  ["--legacy-eof", "--help", "--version", "--color=auto", "--color=always", "--color=never"]

def isDashed (argument : String) : Bool :=
  "--".toList.isPrefixOf argument.toList

def offends (argument : String) : Bool :=
  isDashed argument && argument ∉ understood

def offence (argument : String) : UsageError :=
  match after? "--color=" argument with
  | some value => .unknownColor value
  | none       => .unknownOption argument

def isPositional (argument : String) : Bool :=
  !isDashed argument || isCommand argument

def mode? (argument : String) : Option Coloring :=
  after? "--color=" argument >>= Coloring.ofName?

section Color

variable (h : after? "--color=" argument = some value)
include h

theorem isDashed_of_color : isDashed argument := by
  have hs : "--color=" ++ value = "--" ++ ("color=" ++ value) := by
    rw [← String.append_assoc]
    rfl
  cases after?_eq_some.mp h
  rw [isDashed, ← isSome_after?, after?_eq_some.mpr hs, Option.isSome_some]

theorem isCommand_of_color : isCommand argument = false := by
  cases after?_eq_some.mp h
  simp [isCommand, ← String.toList_inj, String.toList_append]

theorem mode?_of_color : mode? argument = Coloring.ofName? value := by
  rw [mode?, h]
  rfl

end Color

theorem mode?_eq_some {mode : Coloring} :
    mode? argument = some mode ↔ argument = "--color=" ++ mode.name := by
  simp only [mode?, bind, Option.bind_eq_some_iff, after?_eq_some, Coloring.ofName?_eq_some]
  exact exists_eq_right

theorem mem_understood : argument ∈ understood ↔
    argument = "--legacy-eof" ∨ isCommand argument ∨ ∃ mode, mode? argument = some mode := by
  constructor
  case mp =>
    have hu : ∀ a ∈ understood,
        a = "--legacy-eof" ∨ isCommand a ∨ ∃ mode ∈ Coloring.all, mode? a = some mode := by decide
    intro h
    exact (hu argument h).imp_right (Or.imp_right fun ⟨mode, _, hm⟩ => ⟨mode, hm⟩)
  case mpr =>
    rintro (rfl | hc | ⟨mode, hm⟩)
    case inl    => decide
    case inr.inl =>
      obtain hc | hc := Bool.or_eq_true_iff.mp hc
      all_goals cases beq_iff_eq.mp hc; decide
    case inr.inr =>
      cases mode?_eq_some.mp hm
      cases mode <;> decide

def Parsed.take (parsed : Parsed) (argument : String) : Parsed where
  options     := {
    extent := if argument = "--legacy-eof" then .allButLast else parsed.options.extent
    color  := (mode? argument).getD parsed.options.color
  }
  positionals := parsed.positionals ++ [argument].filter isPositional

-- The step on one argument: it offends or it is taken. A text with a colour starts with two dashes,
-- too, so it has a case of its own.

theorem add_of_color (h : after? "--color=" argument = some value) : parsed.add argument =
    if offends argument then .error (offence argument) else .ok (parsed.take argument) := by
  have he : argument ≠ "--legacy-eof" := by
    have hn : after? "--color=" "--legacy-eof" = none := by decide
    rintro rfl
    cases hn.symm.trans h
  have hm := mode?_of_color h
  have hd := isDashed_of_color h
  have hc := isCommand_of_color h
  rw [Parsed.add, if_neg (by simpa using he), h]
  cases hv : Coloring.ofName? value
  case none =>
    have ho : offends argument := by simp [offends, mem_understood, he, hd, hc, hm, hv]
    simp only [hv, ho, offence, h, if_true]
  case some mode =>
    have ho : offends argument = false := by simp [offends, mem_understood, hm, hv]
    simp [Parsed.take, isPositional, he, hd, hc, hm, hv, ho]

theorem add_of_not_color (he : argument ≠ "--legacy-eof") (h : after? "--color=" argument = none) :
    parsed.add argument =
      if offends argument then .error (offence argument) else .ok (parsed.take argument) := by
  have hm : mode? argument = none := by rw [mode?, h]; rfl
  have ho : offends argument = (isDashed argument && !isCommand argument) := by
    simp [offends, mem_understood, he, hm]
  rw [Parsed.add, if_neg (by simpa using he), h, isSome_after?, ← isDashed, ho, offence, h]
  show (if isDashed argument && !isCommand argument then _ else _) = _
  split
  case isTrue     => rfl
  case isFalse hn =>
    have hp : isPositional argument := by simpa [isPositional, Decidable.imp_iff_not_or] using hn
    simp [Parsed.take, he, hm, hp]

theorem add_eq : parsed.add argument =
    if offends argument then .error (offence argument) else .ok (parsed.take argument) := by
  by_cases he : argument = "--legacy-eof"
  case pos =>
    subst he
    have ho : offends "--legacy-eof" = false := by decide
    have hp : isPositional "--legacy-eof" = false := by decide
    have hm : mode? "--legacy-eof" = none := by decide
    simp [Parsed.add, Parsed.take, ho, hp, hm]
  case neg =>
    cases hc : after? "--color=" argument
    case some => exact add_of_color hc
    case none => exact add_of_not_color he hc

-- An argument is looked at by itself, so the first that offends is found wherever it stands.
theorem foldlM_add : arguments.foldlM Parsed.add parsed =
    match arguments.find? offends with
    | some argument => .error (offence argument)
    | none          => .ok (arguments.foldl Parsed.take parsed) := by
  induction arguments generalizing parsed
  case nil => rfl
  case cons argument arguments hi =>
    rw [List.foldlM_cons, add_eq, List.find?_cons]
    cases offends argument
    case true  => rfl
    case false => exact hi

def ofArguments (arguments : List String) : Options where
  extent := if "--legacy-eof" ∈ arguments then .allButLast else .whole
  color  := (arguments.filterMap mode?).getLast?.getD .auto

-- Of the options, one is set by any argument that says so, and the other by the last one.

theorem extent_foldl_take : (arguments.foldl Parsed.take parsed).options.extent =
    if "--legacy-eof" ∈ arguments then .allButLast else parsed.options.extent := by
  induction arguments generalizing parsed
  case nil => rfl
  case cons argument arguments hi =>
    rw [List.foldl_cons, hi, Parsed.take]
    by_cases he : argument = "--legacy-eof"
    case pos => simp [he]
    case neg => simp [he, Ne.symm he]

theorem color_foldl_take : (arguments.foldl Parsed.take parsed).options.color =
    (arguments.filterMap mode?).getLast?.getD parsed.options.color := by
  induction arguments generalizing parsed
  case nil => rfl
  case cons argument arguments hi =>
    rw [List.foldl_cons, hi, Parsed.take]
    cases hm : mode? argument
    case none      => rw [List.filterMap_cons_none hm, Option.getD_none]
    case some mode => simp [List.filterMap_cons_some hm, List.getLast?_cons]

theorem positionals_foldl_take : (arguments.foldl Parsed.take parsed).positionals =
    parsed.positionals ++ arguments.filter isPositional := by
  induction arguments generalizing parsed
  case nil => exact (List.append_nil _).symm
  case cons argument arguments hi =>
    rw [List.foldl_cons, hi, Parsed.take, List.append_assoc, ← List.filter_append,
      List.singleton_append]

theorem parse_eq (arguments : List String) : parse arguments =
    match arguments.find? offends with
    | some argument => .error (offence argument)
    | none          => .ok {
        options     := ofArguments arguments
        positionals := arguments.filter isPositional
      } := by
  let parsed := arguments.foldl Parsed.take {}
  have hp : parsed = {
      options     := ofArguments arguments
      positionals := arguments.filter isPositional
    } := by
    calc parsed
      _ = ⟨⟨parsed.options.extent, parsed.options.color⟩, parsed.positionals⟩ := rfl
      _ = _ := by rw [extent_foldl_take, color_foldl_take, positionals_foldl_take]; rfl
  rw [parse, foldlM_add]
  exact hp ▸ rfl

-- Options may stand behind positional arguments, and the last colour counts.
example : parse ["lex", "--color=always", "a.lox", "--legacy-eof", "--color=never"] =
    .ok {
      options     := { extent := .allButLast, color := .never }
      positionals := ["lex", "a.lox"]
    } := by
  rfl

end Options
end LoxLex
