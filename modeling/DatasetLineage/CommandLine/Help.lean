/-
Module: DatasetLineage.CommandLine.Help
Purpose: Command lines that ask for help. Help is an option of the program and of its commands, and
  a command of its own that may be asked about a command. It is given in place of a request, but
  only where one could still be made of the arguments in front.
Main exports: isHelp, asksForHelp, Request.ofArguments?_of_asksForHelp
-/
import DatasetLineage.CommandLine.OptionSyntax

namespace DatasetLineage

/-- Whether an argument asks for help, by its name or by its letter, whatever stands behind the
    letter. -/
def isHelp (argument : String) : Bool :=
  match argument.toList with
  | '-' :: 'h' :: _ => true
  | written => written == "--help".toList

/-- The arguments that a command may still lack: its source and the name that is asked about. -/
def completions : List (List String) :=
  [[], ["--", "."], ["--node="], ["--node=", "--", "."]]

/-- Whether an argument neither asks for help nor makes operands of those behind it. -/
def isOrdinary (argument : String) : Bool := !isHelp argument && argument != "--"

/-- Whether a command line asks for help. -/
def asksForHelp : List String → Bool
  | [] => false
  | "help" :: topic => topic ∈ [[], ["extract"], ["query"], ["help"]]
  | command :: arguments =>
    isHelp command || (arguments.dropWhile isOrdinary).head?.any isHelp &&
      completions.any fun behind =>
        (Request.ofArguments? (command :: arguments.takeWhile isOrdinary ++ behind)).isSome

section Requests

variable {options : List OptionName} {argument : String}

theorem isHelp_cases (help : isHelp argument = true) :
    (∃ rest, argument.toList = '-' :: 'h' :: rest) ∨ argument.toList = "--help".toList := by
  unfold isHelp at help
  split at help
  · next rest written =>
      exact .inl ⟨rest, written⟩
  · exact .inr (eq_of_beq help)

/-- What asks for help is no option of a command. -/
theorem notSpells_of_isHelp (help : isHelp argument = true) (name : OptionName)
    (value : Option (List Char)) : ¬ name.Spells argument.toList value := by
  have noName : name.long ≠ "help".toList ∧ name.letter? ≠ some 'h' := by
    cases name <;> decide
  intro spells
  rcases isHelp_cases help with ⟨rest, written⟩ | written
  · rw [written] at spells
    generalize word : '-' :: 'h' :: rest = chars at spells
    cases spells with
    | long | longEquals =>
        exact absurd (List.head_eq_of_cons_eq (List.tail_eq_of_cons_eq word)) (by decide)
    | letter its | letterEquals its | letterJoined its =>
        obtain rfl := List.head_eq_of_cons_eq (List.tail_eq_of_cons_eq word)
        exact noName.2 its
  · rw [written] at spells
    generalize word : "--help".toList = chars at spells
    cases spells with
    | long =>
        exact noName.1 (List.tail_eq_of_cons_eq (List.tail_eq_of_cons_eq word)).symm
    | longEquals =>
        have equals : '=' ∈ "--help".toList := by simp [word]
        exact absurd equals (by decide)
    | letter its | letterEquals its | letterJoined its =>
        obtain rfl := List.head_eq_of_cons_eq (List.tail_eq_of_cons_eq word)
        exact OptionName.letter?_ne_dash its rfl

theorem argumentShape_of_isHelp (help : isHelp argument = true) :
    argumentShape options argument = .unknown := by
  refine argumentShape_of_unknown ?_ ?_ fun name _ => notSpells_of_isHelp help name
  · intro alone
    rcases isHelp_cases help with ⟨rest, written⟩ | written
    · exact alone _ _ written
    · exact alone _ _ written
  · rintro rfl
    exact absurd help (by decide)

/-- Whether or not an option awaits its value, what asks for help is neither that value nor an
    argument of its own. -/
theorem readArguments_append_help {front back : List String}
    (noSeparator : ∀ argument ∈ front, argument ≠ "--") (help : isHelp argument = true) :
    ∀ pending, readArguments options pending (front ++ argument :: back) = none := by
  induction front with
  | nil =>
      intro pending
      cases pending with
      | none | some =>
          rw [List.nil_append, readArguments, argumentShape_of_isHelp help]
  | cons first front ih =>
      rw [List.forall_mem_cons] at noSeparator
      have nothing := ih noSeparator.2
      intro pending
      cases pending with
      | none =>
          rw [List.cons_append, readArguments]
          split
          · rw [nothing, Option.map_none]
          · exact nothing _
          · next separator =>
              exact absurd (eq_of_argumentShape_separator separator) noSeparator.1
          · rfl
      | some name =>
          rw [List.cons_append, readArguments]
          split
          · rw [nothing, Option.map_none]
          · rfl

/-- Nothing is read of arguments that ask for help in front of any separator. -/
theorem readArguments_of_help {arguments : List String}
    (help : (arguments.dropWhile isOrdinary).head?.any isHelp = true) :
    readArguments options none arguments = none := by
  have noSeparator : ∀ argument ∈ arguments.takeWhile isOrdinary, argument ≠ "--" := by
    intro argument member
    have ordinary := List.all_eq_true.mp List.all_takeWhile argument member
    exact bne_iff_ne.mp (Bool.and_eq_true_iff.mp ordinary).2
  cases behind : arguments.dropWhile isOrdinary with
  | nil =>
      rw [behind] at help
      exact absurd help (by decide)
  | cons next back =>
      rw [behind] at help
      rw [← List.takeWhile_append_dropWhile (p := isOrdinary) (l := arguments), behind]
      exact readArguments_append_help noSeparator help none

/-- A command line that asks for help makes no request. -/
theorem Request.ofArguments?_of_asksForHelp {arguments : List String}
    (asks : asksForHelp arguments = true) : Request.ofArguments? arguments = none := by
  unfold asksForHelp at asks
  split at asks
  · rfl
  · rfl
  next command arguments _ =>
  simp only [Bool.or_eq_true, Bool.and_eq_true] at asks
  unfold Request.ofArguments?
  rcases asks with help | ⟨behindFront, _⟩
  · split
    · next same =>
        obtain rfl := List.head_eq_of_cons_eq same
        exact absurd help (by decide)
    · next same =>
        obtain rfl := List.head_eq_of_cons_eq same
        exact absurd help (by decide)
    · rfl
  · split
    · next same =>
        obtain rfl := List.tail_eq_of_cons_eq same
        rw [extractRequest?, readArguments_of_help behindFront]
        rfl
    · next same =>
        obtain rfl := List.tail_eq_of_cons_eq same
        rw [queryRequest?, readArguments_of_help behindFront]
        rfl
    · rfl

end Requests

end DatasetLineage
