/-
Module: DatasetLineage.Proofs.MacroReferences
Purpose: How references to macro variables are read as names of datasets. A word begins behind one
  ampersand only. So a reference with one ampersand in front stays whole, dots and further
  ampersands inside included, and of every other reference the ampersands in front of the last one
  are split off as marks, which leaves a DATA statement without a name and a SET statement with
  another one.
Main exports: MacroReference, MacroReference.name, MacroReference.StaysWhole,
  MacroReference.separated_pieces, MacroReference.ofText_sentence, MacroReference.IsSplit,
  MacroReference.isSplit
-/
import DatasetLineage.Proofs.InvisibleComments
import DatasetLineage.Proofs.ReadGrammar
import DatasetLineage.Proofs.ScanLocality

namespace DatasetLineage

open Text

/-- A reference to a macro variable: ampersands, a letter or an underscore, then characters that
    words go on with and dots, the last of which is no dot. There is one ampersand, and `further`
    ones in front of it. -/
structure MacroReference where
  further : Nat
  first : Char
  tail : List Char
  starts : isWordStart first = true
  goesOn : ∀ c ∈ tail, isWordTail c = true ∨ c = '.'
  ends : '.' ∉ tail.getLast?

namespace MacroReference

/-- The ampersands in front of the last of those that a reference begins with. -/
def ampersands (reference : MacroReference) : List Char := List.replicate reference.further '&'

/-- A reference without these. -/
def word (reference : MacroReference) : List Char := '&' :: reference.first :: reference.tail

/-- The characters of a reference. -/
def name (reference : MacroReference) : String :=
  String.ofList (reference.ampersands ++ reference.word)

/-- Whether a reference stays whole: as the name behind DATA or SET it is one token, and the name of
    the one statement that is made. -/
structure StaysWhole (reference : MacroReference) : Prop where
  scanned : (Scanned.ofText ("data " ++ reference.name ++ ";")).contents =
    ([(.keyword .data, "data"), (.identifier reference.name, reference.name), (.mark ';', ";"),
      (.endOfText, "eof")], [])
  defined : ∃ place, (Parsed.ofText ("data " ++ reference.name ++ ";")).statements =
    [.datasetDef ⟨reference.name, place⟩]
  read : ∃ keyword place, (Parsed.ofText ("set " ++ reference.name ++ ";")).statements =
    [.readSource keyword [⟨reference.name, place⟩]]

/-- How a reference is read.
    - `scanned`: the ampersands in front of the last one are marks.
    - `defined`: behind such a mark DATA does not find its name.
    - `read`: such a mark is passed over by SET, with a fault at the first of them.
    - `whole`: hence the reference stays whole if there is none, and only then. -/
structure IsSplit (reference : MacroReference) : Prop where
  scanned : (Scanned.ofText ("data " ++ reference.name ++ ";")).contents =
    ((.keyword .data, "data") :: List.replicate reference.further (.mark '&', "&") ++
      [(.identifier (String.ofList reference.word), String.ofList reference.word),
        (.mark ';', ";"), (.endOfText, "eof")], [])
  defined : Parsed.ofText ("data " ++ reference.name ++ ";") =
    if reference.further = 0 then ⟨[.datasetDef ⟨reference.name, ⟨1, 6⟩⟩], []⟩
    else ⟨[.other], [⟨⟨1, 1⟩, .faultyStatement "data" .missingDatasetName⟩]⟩
  read : Parsed.ofText ("set " ++ reference.name ++ ";") =
    ⟨[.readSource ⟨"set", ⟨1, 1⟩⟩
        [⟨String.ofList reference.word, ⟨1, 5 + reference.further⟩⟩]],
      if reference.further = 0 then []
      else [⟨⟨1, 5⟩, .faultyStatement "&" (.unexpectedTokens "set")⟩]⟩
  whole : reference.StaysWhole ↔ reference.further = 0

end MacroReference

namespace MacroReference

/-! ### Pieces of a reference -/

section Pieces

variable {keyword : Keyword} {spelled : List Char}

/-- The pieces of a keyword, a blank, a reference and a semicolon. -/
def pieces (reference : MacroReference) (spelled : List Char) : List Piece :=
  [.word spelled, .blank ' '] ++ reference.ampersands.map .mark ++
    [.word reference.word, .mark ';']

theorem spellingOf_map_mark (characters : List Char) :
    spellingOf (characters.map .mark) = characters := by
  induction characters with
  | nil =>
      rfl
  | cons c rest ih =>
      rw [List.map_cons, spellingOf_cons, ih]
      rfl

theorem spellingOf_pieces (reference : MacroReference) (spelled : List Char) :
    spellingOf (reference.pieces spelled) =
      spelled ++ [' '] ++ (reference.ampersands ++ reference.word) ++ [';'] := by
  rw [pieces, spellingOf_append, spellingOf_append, spellingOf_map_mark]
  simp [spellingOf, Piece.spelling]

theorem isWordBefore_word (reference : MacroReference) {rest : List Char}
    (endsWord : EndsWord rest) : IsWordBefore rest reference.word := by
  have takes : TakesTail reference.tail rest :=
    takesTail_of_dots reference.goesOn (fun isDot => absurd isDot reference.ends)
      (wordGoesOn_of_endsWord endsWord)
  exact ⟨reference.first, reference.tail, .inr rfl, reference.starts, takes⟩

/-- In front of an ampersand, an ampersand begins no word. -/
theorem separated_ampersands (reference : MacroReference) (count : Nat) :
    Separated false
      ((List.replicate count '&').map .mark ++ [.word reference.word, .mark ';']) := by
  induction count with
  | zero =>
      have endsWord : EndsWord [';'] := endsWord_of_head (by decide) (by decide) []
      have stop : (Piece.mark ';').Fits false [] := ⟨by decide, by simp, by simp, by simp⟩
      exact ⟨reference.isWordBefore_word endsWord, stop, trivial⟩
  | succ count ih =>
      refine ⟨⟨by decide, by simp, by simp, ?_⟩, ih⟩
      -- the next character is an ampersand, either a mark or the first one of the word
      intro _ d isNext
      have ampersand : d = '&' := by
        cases count <;> simpa [spellingOf, Piece.spelling, word, List.replicate_succ, eq_comm]
          using isNext
      subst ampersand
      decide

theorem separated_pieces (reference : MacroReference) (spells : Spells keyword.name spelled) :
    Separated true (reference.pieces spelled) := by
  have isWord := (Keyword.isIdentifier_of_spells spells).isWord
  have endsWord : ∀ rest, EndsWord (' ' :: rest) := endsWord_of_head (by decide) (by decide)
  have isBlank : isBlank ' ' = true := by decide
  exact ⟨isWord _ (endsWord _), isBlank, reference.separated_ampersands _⟩

end Pieces

end MacroReference

/-! ### Ampersands -/

section Marks

/-- Marks are tokens by themselves. -/
theorem scannedFrom_map_mark (place : Position) (characters : List Char) :
    scannedFrom place (characters.map .mark) = (markTokens place characters, []) := by
  induction characters generalizing place with
  | nil =>
      rfl
  | cons c rest ih =>
      have later := Prod.mk.inj (ih (place.next c))
      apply Prod.ext
      · exact congrArg (List.cons _) later.1
      · exact later.2

/-- Ampersands are stray in front of a name that is a source. -/
theorem roles_ampersands {name : Token} (isSource : name.isSource = true) (place : Position)
    (count : Nat) :
    let operands := markTokens place (List.replicate count '&') ++ [name]
    ReadPlace.item.behind operands = .item ∧
      tokensWithRole .stray (ReadPlace.item.roles operands) =
        markTokens place (List.replicate count '&') ∧
      tokensWithRole .source (ReadPlace.item.roles operands) = [name] := by
  induction count generalizing place with
  | zero =>
      have taken := ReadPlace.take_item_of_isSource isSource
      simp [markTokens, ReadPlace.behind, ReadPlace.roles, taken, tokensWithRole]
  | succ count ih =>
      obtain ⟨behind, strays, sources⟩ := ih (place.next '&')
      refine ⟨behind, ?_, ?_⟩
      · exact congrArg (List.cons _) strays
      · exact sources

/-- A read statement with ampersands in front of its one source. -/
theorem readSourceStatement_ampersands {name : Token} (isSource : name.isSource = true)
    (keyword : Token) (place : Position) (count : Nat) :
    readSourceStatement keyword (markTokens place (List.replicate count '&') ++ [name]) =
      (.readSource keyword.mention [name.mention],
        if count = 0 then []
        else [⟨place, .faultyStatement "&" (.unexpectedTokens keyword.spelling)⟩]) := by
  obtain ⟨behind, strays, sources⟩ := roles_ampersands isSource place count
  apply Prod.ext
  · rcases readSourceStatement_cases keyword
        (markTokens place (List.replicate count '&') ++ [name]) with ⟨none, _⟩ | ⟨_, statement⟩
    · rw [readRoles_eq, sources] at none
      exact absurd none (List.cons_ne_nil _ _)
    · rw [statement, readRoles_eq, sources]
      rfl
  · rw [diagnostics_readSourceStatement, readRoles_eq, behind, strays, sources]
    cases count <;> rfl

end Marks

namespace MacroReference

/-! ### A reference between two words -/

section Sentences

variable {keyword : Keyword} {spelled : List Char}

/-- The tokens of a reference that begins at a place. -/
def tokens (reference : MacroReference) (place : Position) : List Token :=
  markTokens place reference.ampersands ++
    [⟨.identifier (String.ofList reference.word), String.ofList reference.word,
      place.after reference.ampersands⟩]

/-- A keyword, a reference and a semicolon are tokens by themselves. -/
theorem ofText_sentence (reference : MacroReference) (spells : Spells keyword.name spelled)
    {text : String}
    (isText : text.toList = spelled ++ [' '] ++ (reference.ampersands ++ reference.word) ++ [';']) :
    let place := Position.start.after (spelled ++ [' '])
    let behind := place.after (reference.ampersands ++ reference.word)
    Scanned.ofText text =
      ⟨⟨.keyword keyword, String.ofList spelled, .start⟩ :: reference.tokens place ++
        [⟨.mark ';', ";", behind⟩] ++ [Token.endAt (behind.next ';')], []⟩ := by
  intro place behind
  have notPlain : isPlainWord reference.word = false := rfl
  have cut : Piece.ofText text.toList = reference.pieces spelled := by
    rw [isText, ← spellingOf_pieces]
    exact Piece.ofText_spellingOf (reference.separated_pieces spells)
  have finish : Position.start.after text.toList = behind.next ';' := by
    rw [isText]
    simp [place, behind]
  have spelledFront : spellingOf [.word spelled, .blank ' '] = spelled ++ [' '] := by
    simp [spellingOf, Piece.spelling]
  have front : scannedFrom .start [.word spelled, .blank ' '] =
      ([⟨.keyword keyword, String.ofList spelled, .start⟩], []) := by
    simp [scannedFrom, placedFrom, Piece.tokens, Piece.diagnostics, wordKind_of_spells spells]
  have back : scannedFrom (place.after reference.ampersands) [.word reference.word, .mark ';'] =
      ([⟨.identifier (String.ofList reference.word), String.ofList reference.word,
        place.after reference.ampersands⟩, ⟨.mark ';', ";", behind⟩], []) := by
    simp [scannedFrom, placedFrom, Piece.tokens, Piece.diagnostics, markTokens,
      wordKind_of_not_isPlainWord notPlain, Piece.spelling, behind]
  rw [Scanned.ofText_eq, cut, finish, pieces, List.append_assoc, scannedFrom_append, front,
    spelledFront, scannedFrom_append, scannedFrom_map_mark, spellingOf_map_mark, back]
  simp [tokens, place]

theorem toList_sentence (reference : MacroReference) (front : String) :
    (front ++ reference.name ++ ";").toList =
      front.toList ++ (reference.ampersands ++ reference.word) ++ [';'] := by
  simp [name]

/-- No token of a reference ends a statement or a text. -/
theorem isInner_tokens (reference : MacroReference) (place : Position) :
    ∀ token ∈ reference.tokens place, token.isMark ';' = false ∧ token.isEnd = false := by
  rw [tokens, List.forall_mem_append, List.forall_mem_singleton]
  refine ⟨?_, rfl, rfl⟩
  intro token member
  obtain ⟨c, given, kind⟩ := exists_kind_of_mem_markTokens member
  have ampersand : c = '&' := List.eq_of_mem_replicate given
  subst ampersand
  simp [Token.isMark, Token.isEnd, kind]

/-- A sentence is one statement, which is read by itself. -/
theorem parsed_sentence (reference : MacroReference) (spells : Spells keyword.name spelled)
    {text : String}
    (isText : text.toList = spelled ++ [' '] ++ (reference.ampersands ++ reference.word) ++ [';'])
    {statement : Statement} {diagnostics : List Diagnostic}
    (read : ∀ stop, Segment.readFresh ⟨⟨.keyword keyword, String.ofList spelled, .start⟩ ::
        reference.tokens (Position.start.after (spelled ++ [' '])), stop⟩ =
      ⟨[statement], diagnostics, none⟩) :
    Parsed.ofText text = ⟨[statement], diagnostics⟩ := by
  have inner : ∀ token ∈ ⟨.keyword keyword, String.ofList spelled, .start⟩ ::
      reference.tokens (Position.start.after (spelled ++ [' '])),
      token.isMark ';' = false ∧ token.isEnd = false := by
    rw [List.forall_mem_cons]
    exact ⟨⟨rfl, rfl⟩, reference.isInner_tokens _⟩
  rw [Parsed.ofText, Parsed.ofScanned, reference.ofText_sentence spells isText]
  dsimp only
  rw [Parsed.ofTokens_body inner rfl (List.cons_ne_nil _ _) _ (read _)]
  rfl

end Sentences

/-! ### Statements of one reference -/

section Statements

/-- DATA takes the name of a reference if no ampersand is split off. -/
theorem readFresh_data (reference : MacroReference) (spelling : String) (place : Position)
    (stop : Token) :
    Segment.readFresh ⟨⟨.keyword .data, spelling, .start⟩ :: reference.tokens place, stop⟩ =
      if reference.further = 0 then ⟨[.datasetDef ⟨reference.name, place⟩], [], none⟩
      else ⟨[.other], [⟨.start, .faultyStatement spelling .missingDatasetName⟩], none⟩ := by
  cases many : reference.further with
  | zero =>
      simp [Segment.readFresh, tokens, ampersands, many, name]
      rfl
  | succ count =>
      simp [Segment.readFresh, tokens, ampersands, many]
      rfl

theorem readFresh_set (reference : MacroReference) (spelling : String) (place : Position)
    (stop : Token) :
    Segment.readFresh ⟨⟨.keyword .set, spelling, .start⟩ :: reference.tokens place, stop⟩ =
      ⟨[.readSource ⟨spelling, .start⟩
          [⟨String.ofList reference.word, place.after reference.ampersands⟩]],
        if reference.further = 0 then []
        else [⟨place, .faultyStatement "&" (.unexpectedTokens spelling)⟩], none⟩ := by
  have noOption : isReadOption (String.ofList reference.word) = false := by
    apply isReadOption_of_not_isPlainWord
    rw [String.toList_ofList]
    rfl
  have isSource : ∀ spelling place, (Token.mk (.identifier (String.ofList reference.word)) spelling
      place).isSource = true := by
    intro spelling place
    simp [Token.isSource, Token.name?, noOption]
  rw [Segment.readFresh_of_readsDatasets rfl rfl, tokens, ampersands,
    readSourceStatement_ampersands (isSource _ _)]
  rfl

end Statements

/-! ### What is read of a reference -/

section Readings

variable (reference : MacroReference)

theorem toList_data : ("data " ++ reference.name ++ ";").toList =
    "data".toList ++ [' '] ++ (reference.ampersands ++ reference.word) ++ [';'] :=
  reference.toList_sentence "data "

theorem toList_set : ("set " ++ reference.name ++ ";").toList =
    "set".toList ++ [' '] ++ (reference.ampersands ++ reference.word) ++ [';'] :=
  reference.toList_sentence "set "

theorem contents_data :
    (Scanned.ofText ("data " ++ reference.name ++ ";")).contents =
      ((.keyword .data, "data") :: List.replicate reference.further (.mark '&', "&") ++
        [(.identifier (String.ofList reference.word), String.ofList reference.word),
          (.mark ';', ";"), (.endOfText, "eof")], []) := by
  have spells : Spells Keyword.data.name "data".toList := by decide
  have marks : ∀ place, (markTokens place reference.ampersands).map Token.content =
      List.replicate reference.further (.mark '&', "&") := by
    intro place
    rw [ampersands]
    induction reference.further generalizing place with
    | zero =>
        rfl
    | succ count ih =>
        exact congrArg (List.cons _) (ih (place.next '&'))
  rw [reference.ofText_sentence spells reference.toList_data]
  simp [Scanned.contents, tokens, marks, Token.content, Token.endAt]

theorem parsed_data :
    Parsed.ofText ("data " ++ reference.name ++ ";") =
      if reference.further = 0 then ⟨[.datasetDef ⟨reference.name, ⟨1, 6⟩⟩], []⟩
      else ⟨[.other], [⟨⟨1, 1⟩, .faultyStatement "data" .missingDatasetName⟩]⟩ := by
  have spells : Spells Keyword.data.name "data".toList := by decide
  have read := reference.readFresh_data "data" ⟨1, 6⟩
  by_cases none : reference.further = 0
  · simp only [if_pos none] at read ⊢
    exact reference.parsed_sentence spells reference.toList_data read
  · simp only [if_neg none] at read ⊢
    exact reference.parsed_sentence spells reference.toList_data read

theorem parsed_set :
    Parsed.ofText ("set " ++ reference.name ++ ";") =
      ⟨[.readSource ⟨"set", ⟨1, 1⟩⟩
          [⟨String.ofList reference.word, ⟨1, 5 + reference.further⟩⟩]],
        if reference.further = 0 then []
        else [⟨⟨1, 5⟩, .faultyStatement "&" (.unexpectedTokens "set")⟩]⟩ := by
  have spells : Spells Keyword.set.name "set".toList := by decide
  have read := reference.readFresh_set "set" ⟨1, 5⟩
  rw [ampersands, Position.after_replicate _ (by decide)] at read
  exact reference.parsed_sentence spells reference.toList_set read

/-- A reference stays whole if nothing is split off, and only then. -/
theorem staysWhole_iff : reference.StaysWhole ↔ reference.further = 0 := by
  constructor
  · intro whole
    by_contra many
    obtain ⟨place, defined⟩ := whole.defined
    rw [parsed_data, if_neg many] at defined
    cases defined
  · intro none
    have name : String.ofList reference.word = reference.name := by
      rw [MacroReference.name, ampersands, none]
      rfl
    refine ⟨?_, ⟨⟨1, 6⟩, ?_⟩, ⟨⟨"set", ⟨1, 1⟩⟩, ⟨1, 5 + reference.further⟩, ?_⟩⟩
    · rw [contents_data, none, name]
      rfl
    · rw [parsed_data, if_pos none]
    · rw [parsed_set, name]

/-- References are read like this, whatever characters they have. -/
theorem isSplit : reference.IsSplit where
  scanned := reference.contents_data
  defined := reference.parsed_data
  read := reference.parsed_set
  whole := reference.staysWhole_iff

end Readings

/-- A reference with two ampersands in front, and one inside. -/
def twoAmpersands : MacroReference where
  further := 1
  first := 'd'
  tail := ['s', '&', 'i']
  starts := by decide +kernel
  goesOn := by
    rw [List.forall_mem_cons, List.forall_mem_cons, List.forall_mem_singleton]
    exact ⟨.inl (by decide +kernel), .inl (by decide +kernel), .inl (by decide +kernel)⟩
  ends := by decide

theorem not_staysWhole_twoAmpersands :
    twoAmpersands.name = "&&ds&i" ∧
      Parsed.ofText "data &&ds&i;" =
        ⟨[.other], [⟨⟨1, 1⟩, .faultyStatement "data" .missingDatasetName⟩]⟩ ∧
      ¬ twoAmpersands.StaysWhole := by
  have name : twoAmpersands.name = "&&ds&i" := by decide
  have parsed : Parsed.ofText "data &&ds&i;" =
      ⟨[.other], [⟨⟨1, 1⟩, .faultyStatement "data" .missingDatasetName⟩]⟩ := by
    decide +kernel
  refine ⟨name, parsed, ?_⟩
  intro whole
  obtain ⟨place, defined⟩ := whole.defined
  have text : "data " ++ twoAmpersands.name ++ ";" = "data &&ds&i;" := by
    rw [name]
    rfl
  rw [text, parsed] at defined
  cases defined

end MacroReference

end DatasetLineage
