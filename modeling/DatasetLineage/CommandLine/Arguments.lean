/-
Module: DatasetLineage.CommandLine.Arguments
Purpose: Reading the command line. An option is given at most once, by its long name or its
  letter. A value follows as the next argument, or in the same one, behind an equals sign or
  directly behind the letter. Behind `--` every argument is an operand. An argument that begins
  with a dash, other than a single dash, is neither an operand nor a value on its own.
Main exports: OptionName, Argument, readArguments, Request, Request.ofArguments?
-/
import DatasetLineage.Report.Rendering

namespace DatasetLineage

/-- The options of the program. -/
inductive OptionName where
  | config
  | sequential
  | format
  | pretty
  | node
  | file
  | direction
  | maxDepth
deriving DecidableEq, Repr

namespace OptionName

/-- The name behind two dashes. -/
def long : OptionName → List Char
  | config => "config".toList
  | sequential => "sequential".toList
  | format => "format".toList
  | pretty => "pretty".toList
  | node => "node".toList
  | file => "file".toList
  | direction => "direction".toList
  | maxDepth => "max-depth".toList

/-- The letter behind one dash. Only options that take a value have one. -/
def letter? : OptionName → Option Char
  | config => some 'c'
  | format => some 'f'
  | _ => none

/-- Whether the option takes a value. -/
def takesValue : OptionName → Bool
  | sequential | pretty | file => false
  | _ => true

end OptionName

/-- A command line argument once it is understood. -/
inductive Argument where
  | operand (value : String)
  | option (name : OptionName) (value : Option String)
deriving DecidableEq, Repr

/-- What one argument is before the next one is seen. -/
inductive ArgumentShape where
  | complete (argument : Argument)
  | awaiting (name : OptionName)
  | separator
  | unknown
deriving DecidableEq, Repr

/-- The shape of an option by its long name, with what stands behind an equals sign. -/
def longShape (options : List OptionName) (name : List Char) (value : Option (List Char)) :
    ArgumentShape :=
  match options.find? fun option => option.long == name with
  | none => .unknown
  | some option =>
    match option.takesValue, value with
    | true, some value => .complete (.option option (some (String.ofList value)))
    | true, none => .awaiting option
    | false, none => .complete (.option option none)
    | false, some _ => .unknown

/-- The shape of an option by its letter, with what stands behind the letter. -/
def letterShape (options : List OptionName) (letter : Char) (value : List Char) : ArgumentShape :=
  match options.find? fun option => option.letter? == some letter with
  | none => .unknown
  | some option =>
    match value with
    | [] => .awaiting option
    | '=' :: value => .complete (.option option (some (String.ofList value)))
    | value => .complete (.option option (some (String.ofList value)))

/-- The shape of an argument. -/
def argumentShape (options : List OptionName) (argument : String) : ArgumentShape :=
  match argument.toList with
  | ['-', '-'] => .separator
  | '-' :: '-' :: rest =>
    match rest.dropWhile (· ≠ '=') with
    | _ :: value => longShape options (rest.takeWhile (· ≠ '=')) (some value)
    | [] => longShape options rest none
  | '-' :: letter :: rest => letterShape options letter rest
  | _ => .complete (.operand argument)

/-- The arguments of a command with some options. If an option awaits its value, the next argument
    has to be one. -/
def readArguments (options : List OptionName) : Option OptionName → List String →
    Option (List Argument)
  | none, [] => some []
  | some _, [] => none
  | some name, argument :: rest =>
    match argumentShape [] argument with
    | .complete (.operand value) =>
      (readArguments options none rest).map (.option name (some value) :: ·)
    | _ => none
  | none, argument :: rest =>
    match argumentShape options argument with
    | .complete understood => (readArguments options none rest).map (understood :: ·)
    | .awaiting name => readArguments options (some name) rest
    | .separator => some (rest.map Argument.operand)
    | .unknown => none

/-- The operands among arguments. -/
def operands (arguments : List Argument) : List String :=
  arguments.filterMap fun
    | .operand value => some value
    | .option _ _ => none

/-- The values with which an option is given, one for each time. -/
def occurrences (arguments : List Argument) (name : OptionName) : List (Option String) :=
  arguments.filterMap fun
    | .operand _ => none
    | .option given value => if given = name then some value else none

/-- Whether an option is given; there is no answer if it is given more than once. -/
def flag? (arguments : List Argument) (name : OptionName) : Option Bool :=
  match occurrences arguments name with
  | [] => some false
  | [_] => some true
  | _ => none

/-- The value of an option, if it is given; there is no answer if it is given more than once. -/
def value? (arguments : List Argument) (name : OptionName) : Option (Option String) :=
  match occurrences arguments name with
  | [] => some none
  | [value] => some value
  | _ => none

/-- What a command reads: a program file or a directory of them, and a settings file. `sequential`
    asks for files to be read one at a time, which no result depends on. -/
structure Input where
  source : String
  settings : Option String
  sequential : Bool
deriving DecidableEq, Repr

/-- What the program is asked for. -/
inductive Request where
  | extract (input : Input) (format : Format) (pretty : Bool)
  | query (input : Input) (node : Node) (direction : Direction) (maxDepth : Option Nat)
      (pretty : Bool)
deriving DecidableEq, Repr

/-- What the request reads. -/
def Request.input : Request → Input
  | extract input _ _ => input
  | query input _ _ _ _ => input

/-- A number of hops, which fits into 64 bits. A plus sign may precede its digits. -/
def depth? (text : String) : Option Nat :=
  let digits := match text.toList with
    | '+' :: digits => digits
    | digits => digits
  if digits ≠ [] ∧ digits.all Char.isDigit then
    let value := digits.foldl (fun value c => value * 10 + (c.toNat - '0'.toNat)) 0
    if value < 0x10000000000000000 then some value else none
  else none

/-- The options of both commands. -/
def inputOptions : List OptionName := [.config, .sequential, .pretty]

/-- The input of a command. A path cannot be empty. -/
def input? (arguments : List Argument) : Option Input := do
  let settings ← value? arguments .config
  let sequential ← flag? arguments .sequential
  match operands arguments with
  | [source] =>
    if source = "" ∨ settings = some "" then none else some ⟨source, settings, sequential⟩
  | _ => none

/-- The thing that a name names, or a default one if no name is given. -/
def choose? {α : Type} (all : List α) (name : α → String) (default : α) :
    Option String → Option α
  | none => some default
  | some given => all.find? fun a => name a == given

/-- The command that extracts. -/
def extractRequest? (arguments : List String) : Option Request := do
  let arguments ← readArguments (.format :: inputOptions) none arguments
  let input ← input? arguments
  let format ← choose? Format.all Format.name .json (← value? arguments .format)
  return .extract input format (← flag? arguments .pretty)

/-- The command that queries. The name of a dataset is put into lower case, a path is not. -/
def queryRequest? (arguments : List String) : Option Request := do
  let options := [.node, .file, .direction, .maxDepth] ++ inputOptions
  let arguments ← readArguments options none arguments
  let input ← input? arguments
  let name ← (← value? arguments .node)
  let isFile ← flag? arguments .file
  let direction ← choose? Direction.all Direction.name .upstream (← value? arguments .direction)
  let maxDepth ← match ← value? arguments .maxDepth with
    | some text => (depth? text).map some
    | none => some none
  let node := if isFile then Node.file name else Node.dataset (Text.lowercase name)
  return .query input node direction maxDepth (← flag? arguments .pretty)

/-- The request that a command line makes, if it makes one. -/
def Request.ofArguments? : List String → Option Request
  | "extract" :: arguments => extractRequest? arguments
  | "query" :: arguments => queryRequest? arguments
  | _ => none

end DatasetLineage
