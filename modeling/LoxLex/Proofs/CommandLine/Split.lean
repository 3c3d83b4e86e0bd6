import LoxLex.Proofs.CommandLine.Options

namespace LoxLex.Options

variable {argument value : String} {arguments moved front behind : List String} {mode : Coloring}

def isColor (argument : String) : Bool :=
  "--color=".toList.isPrefixOf argument.toList

def isFlag (argument : String) : Bool :=
  argument == "--legacy-eof" || isColor argument

def Acceptable (arguments : List String) : Prop :=
  ∀ argument ∈ arguments, isDashed argument → argument ∈ understood

theorem isColor_append (value : String) : isColor ("--color=" ++ value) := by
  simp [isColor, String.toList_append]

theorem exists_of_isColor (h : isColor argument) : ∃ value, argument = "--color=" ++ value := by
  rw [isColor, ← isSome_after?] at h
  have ⟨value, hv⟩ := Option.isSome_iff_exists.mp h
  exact ⟨value, after?_eq_some.mp hv⟩

theorem after?_eq_none (h : ¬isColor argument) : after? "--color=" argument = none := by
  rwa [isColor, ← isSome_after?, Option.not_isSome_iff_eq_none] at h

theorem mode?_eq_none (h : ¬isColor argument) : mode? argument = none := by
  rw [mode?, after?_eq_none h]
  rfl

theorem isDashed_of_isFlag (h : isFlag argument) : isDashed argument := by
  cases Bool.or_eq_true_iff.mp h
  case inl h => cases beq_iff_eq.mp h; decide
  case inr h =>
    have ⟨_, hv⟩ := exists_of_isColor h
    exact isDashed_of_color (after?_eq_some.mpr hv)

theorem isPositional_eq (h : isDashed argument → argument ∈ understood) :
    isPositional argument = !isFlag argument := by
  cases hd : isDashed argument
  case false =>
    have hf : isFlag argument = false :=
      Bool.eq_false_iff.mpr fun hf => by simp [isDashed_of_isFlag hf] at hd
    simp [isPositional, hd, hf]
  case true =>
    have hu : ∀ a ∈ understood, isPositional a = !isFlag a := by decide
    exact hu argument (h hd)

theorem find?_offends_eq_none : arguments.find? offends = none ↔ Acceptable arguments := by
  simp [Acceptable, offends]

theorem filter_isPositional (h : Acceptable arguments) :
    arguments.filter isPositional = arguments.filter (!isFlag ·) :=
  List.filter_congr fun argument ha => isPositional_eq (h argument ha)

theorem find?_offends (hf : Acceptable front) (hd : isDashed argument)
    (hu : argument ∉ understood) :
    (front ++ argument :: behind).find? offends = some argument := by
  have ho : offends argument := by simp [offends, hd, hu]
  simp [List.find?_append, find?_offends_eq_none.mpr hf, ho]

theorem not_mem_understood (h : value ∉ ["auto", "always", "never"]) :
    "--color=" ++ value ∉ understood := by
  have hv : after? "--color=" ("--color=" ++ value) = some value := after?_eq_some.mpr rfl
  have hm (mode : Coloring) : value ≠ mode.name := by
    rintro rfl
    cases mode <;> exact h (by decide)
  have he : "--color=" ++ value ≠ "--legacy-eof" := by
    have hn : ¬isColor "--legacy-eof" := by decide
    exact fun he => hn (he ▸ isColor_append value)
  simp [mem_understood, he, isCommand_of_color hv, mode?_eq_some, hm]

theorem getLast?_modes (h : ∀ a ∈ behind, ¬isColor a) :
    ((front ++ ("--color=" ++ mode.name) :: behind).filterMap mode?).getLast? = some mode := by
  have hb : behind.filterMap mode? = [] := by
    simpa [List.filterMap_eq_nil_iff] using fun a ha => mode?_eq_none (h a ha)
  simp [List.filterMap_append, mode?_eq_some.mpr rfl, hb]

-- The flags may go anywhere among the other arguments, and the colours keep their order.
structure Rearranged (arguments moved : List String) : Prop where
  perm   : arguments.Perm moved
  colors : arguments.filter isColor = moved.filter isColor
  others : arguments.filter (!isFlag ·) = moved.filter (!isFlag ·)

example : Rearranged ["lex", "--color=auto", "a.lox", "--legacy-eof", "--color=never"]
    ["--legacy-eof", "--color=auto", "--color=never", "lex", "a.lox"] := by
  exact ⟨by decide, by decide, by decide⟩

theorem filterMap_filter_isColor (arguments : List String) :
    (arguments.filter isColor).filterMap mode? = arguments.filterMap mode? := by
  rw [List.filterMap_filter]
  congr
  funext a
  split
  case isTrue    => rfl
  case isFalse h => exact (mode?_eq_none h).symm

theorem Rearranged.ofArguments_eq (h : Rearranged arguments moved) :
    ofArguments moved = ofArguments arguments := by
  rw [ofArguments, ofArguments, ← filterMap_filter_isColor moved, ← h.colors,
    filterMap_filter_isColor]
  simp only [h.perm.mem_iff]

theorem parse_of_acceptable (h : Acceptable arguments) : parse arguments =
    .ok { options := ofArguments arguments, positionals := arguments.filter (!isFlag ·) } := by
  rw [parse_eq, find?_offends_eq_none.mpr h, filter_isPositional h]

theorem Rearranged.acceptable (h : Rearranged arguments moved) (ha : Acceptable arguments) :
    Acceptable moved :=
  fun a hm => ha a (h.perm.mem_iff.mpr hm)

theorem Rearranged.parse_eq (h : Rearranged arguments moved) (ha : Acceptable arguments) :
    parse moved = parse arguments := by
  rw [parse_of_acceptable ha, parse_of_acceptable (h.acceptable ha), h.ofArguments_eq, h.others]

theorem exists_parse_iff : (∃ parsed, parse arguments = .ok parsed) ↔ Acceptable arguments := by
  constructor
  case mp =>
    intro ⟨parsed, hp⟩
    rw [Options.parse_eq] at hp
    cases ho : arguments.find? offends
    case none   => exact find?_offends_eq_none.mp ho
    case some a => rw [ho] at hp; cases hp
  case mpr => exact fun h => ⟨_, parse_of_acceptable h⟩

structure Accepted (arguments : List String) (parsed : Parsed) : Prop where
  extent      : parsed.options.extent =
                  if "--legacy-eof" ∈ arguments then .allButLast else .whole
  lastColor   : ∀ front mode behind, arguments = front ++ ("--color=" ++ mode.name) :: behind →
                  (∀ a ∈ behind, ¬isColor a) → parsed.options.color = mode
  noColor     : (∀ a ∈ arguments, ¬isColor a) → parsed.options.color = .auto
  positionals : parsed.positionals = arguments.filter (!isFlag ·)

theorem accepted_ofArguments (arguments : List String) : Accepted arguments
    { options := ofArguments arguments, positionals := arguments.filter (!isFlag ·) } where
  extent := rfl
  lastColor front mode behind he hb := by
    subst he
    simp only [ofArguments, getLast?_modes hb, Option.getD_some]
  noColor hc := by
    have hn : arguments.filterMap mode? = [] := by
      simpa [List.filterMap_eq_nil_iff] using fun a ha => mode?_eq_none (hc a ha)
    simp [ofArguments, hn]
  positionals := rfl

-- How a list of arguments is read. What comes behind an argument that is not understood makes no
-- difference, and neither does what comes before it if that is understood.
structure Split (arguments : List String) (result : Except UsageError Parsed) : Prop where
  acceptable    : (∃ parsed, result = .ok parsed) ↔ Acceptable arguments
  accepted      : ∀ parsed, result = .ok parsed → Accepted arguments parsed
  moved         : ∀ parsed, result = .ok parsed → ∀ moved, Rearranged arguments moved →
                    parse moved = .ok parsed
  unknownColor  : ∀ front value behind, arguments = front ++ ("--color=" ++ value) :: behind →
                    Acceptable front → value ∉ ["auto", "always", "never"] →
                      result = .error (.unknownColor value)
  unknownOption : ∀ front argument behind, arguments = front ++ argument :: behind →
                    Acceptable front → isDashed argument → argument ∉ understood →
                      ¬isColor argument → result = .error (.unknownOption argument)

-- What a list of arguments is split into does not depend on where its flags stand.
theorem parse_split (arguments : List String) : Split arguments (parse arguments) := by
  constructor
  case acceptable => exact exists_parse_iff
  case accepted =>
    intro parsed hp
    have ha := exists_parse_iff.mp ⟨parsed, hp⟩
    cases hp.symm.trans (parse_of_acceptable ha)
    exact accepted_ofArguments arguments
  case moved =>
    intro parsed hp moved hm
    exact (hm.parse_eq (exists_parse_iff.mp ⟨parsed, hp⟩)).trans hp
  case unknownColor =>
    rintro front value behind rfl hf hv
    have hc := after?_eq_some.mpr (rfl : "--color=" ++ value = _)
    rw [Options.parse_eq, find?_offends hf (isDashed_of_color hc) (not_mem_understood hv)]
    simp only [offence, hc]
  case unknownOption =>
    rintro front argument behind rfl hf hd hu hc
    rw [Options.parse_eq, find?_offends hf hd hu]
    simp only [offence, after?_eq_none hc]

end LoxLex.Options
