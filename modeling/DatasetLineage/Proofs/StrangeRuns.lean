/-
Module: DatasetLineage.Proofs.StrangeRuns
Purpose: Which characters are reported together. Marks outside the punctuation of a program make
  blocks wherever they stand side by side. One warning is given for each stretch of a block that
  goes up to the next numeral or NUL, because such a character begins a run and continues none. So
  there is one warning for each block if no block has such a character behind its first one, and in
  no other case.
Main exports: Token.isStrangeMark, Token.adjoins, Token.beginsRun, strangeBlocks, strangeRuns,
  Reports, strangeGroups, splitBy_and_eq_iff, Scanned.ReportsBlocks, Scanned.ReportsRuns,
  Scanned.reportsRuns_ofText
-/
import DatasetLineage.Proofs.LineageProvenance
import DatasetLineage.Proofs.ScanLocality
import Mathlib.Data.List.SplitBy

namespace DatasetLineage

open Text

/-- Whether a token is a mark outside the punctuation of a program. -/
def Token.isStrangeMark (token : Token) : Bool :=
  match token.kind with
  | .mark c => !marks.contains c
  | _ => false

/-- Whether `next` stands directly behind the token. -/
def Token.adjoins (token next : Token) : Bool :=
  next.position == token.position.after token.spelling.toList

/-- Whether a token is a numeral or a NUL, with which no run goes on. -/
def Token.beginsRun (token : Token) : Bool :=
  match token.kind with
  | .mark c => c == '\x00' || isNumeric c
  | _ => false

/-- The longest stretches of strange marks that stand side by side. -/
def strangeBlocks (tokens : List Token) : List (List Token) :=
  (tokens.filter Token.isStrangeMark).splitBy Token.adjoins

/-- These stretches, cut in front of each numeral and each NUL. -/
def strangeRuns (tokens : List Token) : List (List Token) :=
  (tokens.filter Token.isStrangeMark).splitBy fun token next =>
    token.adjoins next && !next.beginsRun

/-- Whether a diagnostic is about some tokens: it stands at the first of them, and tells their
    characters. -/
def Reports (tokens : List Token) (diagnostic : Diagnostic) : Prop :=
  tokens.head?.map Token.position = some diagnostic.position ∧
    diagnostic.problem = .unexpectedCharacters (String.ofList (spelledBy tokens))

/-- Whether a problem is that a comment or a literal is not closed. -/
def Problem.isMissingEnd : Problem → Bool
  | unterminatedComment | unterminatedString _ => true
  | _ => false

namespace Scanned

/-- What is wrong with the characters of a text, missing ends of comments and literals apart. -/
def characterReports (scanned : Scanned) : List Diagnostic :=
  scanned.diagnostics.filter (!·.problem.isMissingEnd)

/-- Whether strange marks are reported block by block, in order. -/
def ReportsBlocks (scanned : Scanned) : Prop :=
  List.Forall₂ Reports (strangeBlocks scanned.tokens) scanned.characterReports

/-- How strange marks are reported.
    - `runs`: run by run, in order.
    - `blocks`: hence block by block if no numeral and no NUL stands behind the first mark of a
      block, and only then. -/
structure ReportsRuns (scanned : Scanned) : Prop where
  runs : List.Forall₂ Reports (strangeRuns scanned.tokens) scanned.characterReports
  blocks : scanned.ReportsBlocks ↔
    ∀ block ∈ strangeBlocks scanned.tokens, ∀ token ∈ block.tail, token.beginsRun = false

end Scanned

/-! ### Splittings by two relations -/

section Splitting

variable {α : Type} {r : α → α → Bool} {p : α → Bool} {list : List α}

theorem isChain_and_iff :
    (list.IsChain fun a b => (r a b && p b) = true) ↔
      (list.IsChain fun a b => r a b = true) ∧ ∀ b ∈ list.tail, p b = true := by
  induction list with
  | nil =>
      simp
  | cons a rest ih =>
      cases rest with
      | nil =>
          simp
      | cons b rest =>
          rw [List.isChain_cons_cons, List.isChain_cons_cons, ih, Bool.and_eq_true, List.tail_cons,
            List.tail_cons, List.forall_mem_cons]
          tauto

/-- A further condition on the second of two neighbours cuts no finer if it holds inside of all
    parts, and only then. -/
theorem splitBy_and_eq_iff (r : α → α → Bool) (p : α → Bool) (list : List α) :
    list.splitBy (fun a b => r a b && p b) = list.splitBy r ↔
      ∀ part ∈ list.splitBy r, ∀ b ∈ part.tail, p b = true := by
  constructor
  · intro same part member
    rw [← same] at member
    exact (isChain_and_iff.mp (List.isChain_of_mem_splitBy member)).2
  · intro holds
    obtain ⟨whole, noneEmpty, chains, ends⟩ := List.splitBy_eq_iff.mp (rfl : list.splitBy r = _)
    apply List.splitBy_eq_iff.mpr
    refine ⟨whole, noneEmpty, ?_, ?_⟩
    · intro part member
      exact isChain_and_iff.mpr ⟨chains part member, holds part member⟩
    · refine ends.imp ?_
      rintro a b ⟨hasLast, hasHead, apart⟩
      exact ⟨hasLast, hasHead, by rw [apart, Bool.false_and]⟩

end Splitting

/-! ### Where runs begin -/

section Runs

variable {place : Position} {first c : Char} {more rest : List Char} {statementStart : Bool}

/-- A character that may continue a run is no punctuation, no numeral and no NUL. -/
theorem not_beginsRun_of_isStrange (strange : isStrange c = true) :
    c ∉ marks ∧ (c == '\x00' || isNumeric c) = false := by
  simp [isStrange, isAlphanumeric] at strange
  simp [strange]

/-- A character that begins a run and may not continue one is a numeral or a NUL. -/
theorem beginsRun_of_not_isStrange (fits : (Piece.strange first more).Fits statementStart rest)
    (notStrange : isStrange first = false) : (first == '\x00' || isNumeric first) = true := by
  obtain ⟨⟨notBlank, notMark, notDelimiter, notStart, _⟩, _⟩ := fits
  simp only [isWordStart, Bool.or_eq_false_iff, beq_eq_false_iff_ne] at notStart
  obtain ⟨notApostrophe, notQuotation⟩ := not_or.mp notDelimiter
  by_contra neither
  rw [Bool.not_eq_true, Bool.or_eq_false_iff, beq_eq_false_iff_ne] at neither
  simp [isStrange, isAlphanumeric, notBlank, notMark, notApostrophe, notQuotation, notStart,
    neither] at notStrange

/-- The marks of a run that goes on with `more` stand side by side, and none of them begins a run of
    its own. -/
theorem isChain_markTokens (place : Position) (first : Char)
    (goesOn : ∀ c ∈ more, isStrange c = true) :
    (markTokens place (first :: more)).IsChain fun token next =>
      (token.adjoins next && !next.beginsRun) = true := by
  induction more generalizing place first with
  | nil =>
      exact List.isChain_singleton _
  | cons c more ih =>
      rw [List.forall_mem_cons] at goesOn
      have later := ih (place.next first) c goesOn.2
      rw [markTokens] at later
      rw [markTokens, markTokens, List.isChain_cons_cons]
      refine ⟨?_, later⟩
      simp [Token.adjoins, Token.beginsRun, not_beginsRun_of_isStrange goesOn.1]

theorem markTokens_cons_ne_nil (place : Position) (c : Char) (rest : List Char) :
    markTokens place (c :: rest) ≠ [] :=
  List.cons_ne_nil _ _

/-- Behind the last mark of a run is the place behind the run. -/
theorem after_getLast_markTokens (place : Position) (characters : List Char)
    (nonempty : markTokens place characters ≠ []) :
    ((markTokens place characters).getLast nonempty).position.after
        ((markTokens place characters).getLast nonempty).spelling.toList =
      place.after characters := by
  induction characters generalizing place with
  | nil =>
      exact absurd rfl nonempty
  | cons c rest ih =>
      cases rest with
      | nil =>
          simp [markTokens]
      | cons d rest =>
          exact ih (place.next c) (markTokens_cons_ne_nil _ d rest)

end Runs

/-- The marks of a run of strange characters, if the piece is one. -/
def Piece.strangeGroup (place : Position) : Piece → List (List Token)
  | strange first more => [markTokens place (first :: more)]
  | _ => []

/-- The marks of the runs among pieces that begin at a place. -/
def strangeGroups (place : Position) (pieces : List Piece) : List (List Token) :=
  (placedFrom place pieces).flatMap fun (place, piece) => piece.strangeGroup place

/-! ### Groups of the scanner -/

section Groups

variable {place : Position} {piece : Piece} {pieces : List Piece} {rest : List Char}
  {statementStart : Bool} {group : List Token}

theorem strangeGroups_cons (place : Position) (piece : Piece) (pieces : List Piece) :
    strangeGroups place (piece :: pieces) =
      piece.strangeGroup place ++ strangeGroups (place.after piece.spelling) pieces := rfl

theorem filter_isStrangeMark_markTokens {characters : List Char} (place : Position)
    (unknown : ∀ c ∈ characters, c ∉ marks) :
    (markTokens place characters).filter Token.isStrangeMark = markTokens place characters := by
  apply List.filter_eq_self.mpr
  intro token member
  obtain ⟨c, inRun, kind⟩ := exists_kind_of_mem_markTokens member
  simp [Token.isStrangeMark, kind, unknown c inRun]

/-- The strange marks of a piece that fits are those of its run. -/
theorem Piece.Fits.filter_isStrangeMark (fits : piece.Fits statementStart rest)
    (place : Position) :
    (piece.tokens place).filter Token.isStrangeMark = (piece.strangeGroup place).flatten := by
  cases piece with
  | strange first more =>
      obtain ⟨⟨_, notMark, _⟩, goesOn, _⟩ := fits
      have unknown : ∀ c ∈ first :: more, c ∉ marks :=
        List.forall_mem_cons.mpr
          ⟨notMark, fun c member => (not_beginsRun_of_isStrange (goesOn c member)).1⟩
      rw [tokens, filter_isStrangeMark_markTokens place unknown]
      simp [strangeGroup]
  | mark c =>
      simp [tokens, markTokens, Token.isStrangeMark, strangeGroup, fits.1]
  | word spelling =>
      have noMark : (Token.mk (wordKind spelling) (String.ofList spelling) place).isStrangeMark =
          false := by
        unfold Token.isStrangeMark
        split
        · next c kind =>
            exact absurd kind (wordKind_ne_mark spelling c)
        · rfl
      simp [tokens, noMark, strangeGroup]
  | _ =>
      rfl

/-- What is wrong with the characters of a piece is reported at its run. -/
theorem Piece.reports_strangeGroup (place : Position) (piece : Piece) :
    List.Forall₂ Reports (piece.strangeGroup place)
      ((piece.diagnostics place).filter (!·.problem.isMissingEnd)) := by
  cases piece with
  | strange first more =>
      refine .cons ⟨rfl, ?_⟩ .nil
      rw [spelledBy_markTokens]
  | blockComment body closed =>
      cases closed <;> exact .nil
  | quoted delimiter value closed =>
      cases closed <;> exact .nil
  | _ =>
      exact .nil

theorem exists_strange_of_mem_strangeGroups (member : group ∈ strangeGroups place pieces) :
    ∃ before first more after, pieces = before ++ .strange first more :: after ∧
      group = markTokens (place.after (spellingOf before)) (first :: more) := by
  obtain ⟨⟨place', piece⟩, placed, ofPiece⟩ := List.mem_flatMap.mp member
  obtain ⟨before, after, rfl, rfl⟩ := exists_front_of_mem_placedFrom placed
  cases piece with
  | strange first more =>
      exact ⟨before, first, more, after, rfl, List.mem_singleton.mp ofPiece⟩
  | _ =>
      exact absurd ofPiece List.not_mem_nil

/-- If pieces do not go on with a run that stands in front of them, their first mark stands apart
    from it or begins a run of its own. -/
theorem apart_of_mem_strangeGroups (separated : Separated statementStart pieces)
    (ends : ∀ c ∈ (spellingOf pieces).head?, isStrange c = false)
    (member : group ∈ strangeGroups place pieces) :
    ∃ token others, group = token :: others ∧
      (token.position ≠ place ∨ token.beginsRun = true) := by
  obtain ⟨before, first, more, after, rfl, rfl⟩ := exists_strange_of_mem_strangeGroups member
  refine ⟨_, _, rfl, ?_⟩
  have fits := separated.of_append.1
  -- with no piece between, the run stands where the one in front ended, so it cannot continue it
  cases before with
  | nil =>
      right
      exact beginsRun_of_not_isStrange fits (ends first rfl)
  | cons piece before =>
      left
      have nonempty : spellingOf (piece :: before) ≠ [] := by
        rw [spellingOf_cons]
        exact List.append_ne_nil_of_left_ne_nil separated.1.spelling_ne_nil _
      have moved : place.Before (place.after (spellingOf (piece :: before))) :=
        Position.before_after nonempty
      intro same
      have still : place.after (spellingOf (piece :: before)) = place := same
      rw [still] at moved
      exact place.not_before_self moved

/-- Between the runs among separated pieces, marks stand apart or begin a run. -/
theorem isChain_strangeGroups (place : Position) (separated : Separated statementStart pieces) :
    (strangeGroups place pieces).IsChain fun group next => ∃ hasLast hasHead,
      ((group.getLast hasLast).adjoins (next.head hasHead) &&
        !(next.head hasHead).beginsRun) = false := by
  induction pieces generalizing place statementStart with
  | nil =>
      exact .nil
  | cons piece pieces ih =>
      obtain ⟨fits, later⟩ := separated
      have others := ih (place.after piece.spelling) later
      rw [strangeGroups_cons]
      cases piece with
      | strange first more =>
          rw [Piece.strangeGroup, List.singleton_append, List.isChain_cons]
          refine ⟨fun next isNext => ?_, others⟩
          obtain ⟨token, behind, rfl, apart⟩ :=
            apart_of_mem_strangeGroups later fits.2.2 (List.mem_of_mem_head? isNext)
          refine ⟨markTokens_cons_ne_nil place first more, List.cons_ne_nil _ _, ?_⟩
          rw [Token.adjoins, after_getLast_markTokens, List.head_cons]
          rcases apart with elsewhere | begins
          · have notBehind : (token.position == place.after (first :: more)) = false :=
              beq_eq_false_iff_ne.mpr elsewhere
            rw [notBehind, Bool.false_and]
          · rw [begins, Bool.not_true, Bool.and_false]
      | _ =>
          exact others

/-- The strange marks of separated pieces are cut into the runs among the pieces. -/
theorem splitBy_eq_strangeGroups (place : Position) (separated : Separated statementStart pieces) :
    ((scannedFrom place pieces).1.filter Token.isStrangeMark).splitBy (fun token next =>
        token.adjoins next && !next.beginsRun) = strangeGroups place pieces := by
  have whole : (scannedFrom place pieces).1.filter Token.isStrangeMark =
      (strangeGroups place pieces).flatten := by
    rw [scannedFrom, strangeGroups, List.filter_flatMap, ← List.flatMap_id, List.flatMap_assoc]
    apply List.flatMap_congr
    rintro ⟨place', piece⟩ placed
    obtain ⟨before, after, rfl, _⟩ := exists_front_of_mem_placedFrom placed
    rw [List.flatMap_id]
    exact separated.of_append.1.filter_isStrangeMark place'
  apply List.splitBy_eq_iff.mpr
  refine ⟨whole, ?_, ?_, isChain_strangeGroups place separated⟩
  · intro member
    obtain ⟨_, _, _, _, _, empty⟩ := exists_strange_of_mem_strangeGroups member
    exact List.cons_ne_nil _ _ empty.symm
  · intro group member
    obtain ⟨before, first, more, after, rfl, rfl⟩ := exists_strange_of_mem_strangeGroups member
    exact isChain_markTokens _ first separated.of_append.1.2.1

/-- The runs among pieces are reported one by one. -/
theorem reports_strangeGroups (place : Position) (pieces : List Piece) :
    List.Forall₂ Reports (strangeGroups place pieces)
      ((scannedFrom place pieces).2.filter (!·.problem.isMissingEnd)) := by
  induction pieces generalizing place with
  | nil =>
      exact .nil
  | cons piece pieces ih =>
      have here := piece.reports_strangeGroup place
      have later := ih (place.after piece.spelling)
      have split : (scannedFrom place (piece :: pieces)).2 =
          piece.diagnostics place ++ (scannedFrom (place.after piece.spelling) pieces).2 := rfl
      rw [strangeGroups_cons, split, List.filter_append]
      exact List.rel_append here later

end Groups

/-! ### Blocks and their reports -/

section Blocks

variable {text : String} {blocks runs : List (List Token)} {diagnostics : List Diagnostic}

/-- A strange mark of a text has one character. -/
theorem Scanned.length_spelling_of_isStrangeMark {token : Token}
    (member : token ∈ (ofText text).tokens) (strange : token.isStrangeMark = true) :
    token.spelling.toList.length = 1 := by
  have spans := spansOf_ofText text
  rw [spans.tokens] at member
  rcases List.mem_append.mp member with given | isEnd
  · obtain ⟨span, inSpans, rfl⟩ := List.mem_map.mp given
    have agrees := (spans.inText span inSpans).agrees
    unfold Token.isStrangeMark at strange
    split at strange
    · next c kind =>
        rw [Token.Agrees, kind] at agrees
        rw [agrees]
        simp
    · cases strange
  · rw [List.mem_singleton.mp isEnd] at strange
    cases strange

theorem length_spelledBy_of_single {tokens : List Token}
    (single : ∀ token ∈ tokens, token.spelling.toList.length = 1) :
    (spelledBy tokens).length = tokens.length := by
  induction tokens with
  | nil =>
      rfl
  | cons token rest ih =>
      rw [List.forall_mem_cons] at single
      rw [length_spelledBy_cons, single.1, ih single.2, List.length_cons, Nat.add_comm]

/-- Reports tell how many tokens they are about if each of these has one character. -/
theorem map_length_eq_of_reports (reports : List.Forall₂ Reports blocks diagnostics)
    (reports' : List.Forall₂ Reports runs diagnostics)
    (single : ∀ token ∈ blocks.flatten, token.spelling.toList.length = 1)
    (single' : ∀ token ∈ runs.flatten, token.spelling.toList.length = 1) :
    blocks.map List.length = runs.map List.length := by
  induction reports generalizing runs with
  | nil =>
      cases reports'
      rfl
  | @cons block diagnostic blocks diagnostics here _ ih =>
      cases reports' with
      | @cons run _ runs _ here' later' =>
          rw [List.flatten_cons, List.forall_mem_append] at single single'
          have problems := here.2.symm.trans here'.2
          rw [Problem.unexpectedCharacters.injEq, String.ofList_inj] at problems
          have lengths := congrArg List.length problems
          rw [length_spelledBy_of_single single.1, length_spelledBy_of_single single'.1] at lengths
          rw [List.map_cons, List.map_cons, lengths, ih later' single.2 single'.2]

end Blocks

theorem Scanned.filter_isStrangeMark_ofText (text : String) :
    (ofText text).tokens.filter Token.isStrangeMark =
      (scannedFrom .start (Piece.ofText text.toList)).1.filter Token.isStrangeMark := by
  rw [ofText_eq, List.filter_append]
  exact List.append_nil _

/-- Runs are blocks if no block has a numeral or a NUL behind its first mark, and only then. -/
theorem strangeRuns_eq_strangeBlocks_iff (tokens : List Token) :
    strangeRuns tokens = strangeBlocks tokens ↔
      ∀ block ∈ strangeBlocks tokens, ∀ token ∈ block.tail, token.beginsRun = false := by
  have iff := splitBy_and_eq_iff Token.adjoins (fun token => !token.beginsRun)
    (tokens.filter Token.isStrangeMark)
  simp only [Bool.not_eq_true'] at iff
  exact iff

theorem Scanned.reports_strangeRuns (text : String) :
    List.Forall₂ Reports (strangeRuns (ofText text).tokens) (ofText text).characterReports := by
  have separated := Piece.separated_ofText text.toList
  rw [strangeRuns, filter_isStrangeMark_ofText, splitBy_eq_strangeGroups .start separated,
    characterReports, ofText_eq]
  exact reports_strangeGroups .start _

/-- If the same is reported of runs and of blocks, these are the same. -/
theorem Scanned.reportsBlocks_iff (text : String) :
    (ofText text).ReportsBlocks ↔
      strangeRuns (ofText text).tokens = strangeBlocks (ofText text).tokens := by
  have runs := reports_strangeRuns text
  constructor
  · intro blocks
    have whole : (strangeRuns (ofText text).tokens).flatten =
        (ofText text).tokens.filter Token.isStrangeMark := List.flatten_splitBy _ _
    have whole' : (strangeBlocks (ofText text).tokens).flatten =
        (ofText text).tokens.filter Token.isStrangeMark := List.flatten_splitBy _ _
    have single : ∀ token ∈ (ofText text).tokens.filter Token.isStrangeMark,
        token.spelling.toList.length = 1 := by
      intro token member
      obtain ⟨given, strange⟩ := List.mem_filter.mp member
      exact length_spelling_of_isStrangeMark given strange
    apply List.eq_iff_flatten_eq.mpr
    refine ⟨whole.trans whole'.symm, map_length_eq_of_reports runs blocks ?_ ?_⟩
    · rwa [whole]
    · rwa [whole']
  · intro same
    rw [ReportsBlocks, ← same]
    exact runs

/-- Strange marks of a text are reported run by run, and so block by block if no block is cut. -/
theorem Scanned.reportsRuns_ofText (text : String) : (ofText text).ReportsRuns where
  runs := reports_strangeRuns text
  blocks := (reportsBlocks_iff text).trans (strangeRuns_eq_strangeBlocks_iff _)

/-- Two numerals outside ASCII side by side are a block, and each is reported by itself. -/
theorem Scanned.not_reportsBlocks_superscripts :
    strangeBlocks (ofText "²²").tokens =
        [[⟨.mark '²', "²", ⟨1, 1⟩⟩, ⟨.mark '²', "²", ⟨1, 2⟩⟩]] ∧
      (ofText "²²").characterReports =
        [⟨⟨1, 1⟩, .unexpectedCharacters "²"⟩, ⟨⟨1, 2⟩, .unexpectedCharacters "²"⟩] ∧
      ¬ (ofText "²²").ReportsBlocks := by
  have oneBlock : strangeBlocks (ofText "²²").tokens =
      [[⟨.mark '²', "²", ⟨1, 1⟩⟩, ⟨.mark '²', "²", ⟨1, 2⟩⟩]] := by
    decide +kernel
  have twoReports : (ofText "²²").characterReports =
      [⟨⟨1, 1⟩, .unexpectedCharacters "²"⟩, ⟨⟨1, 2⟩, .unexpectedCharacters "²"⟩] := by
    decide +kernel
  refine ⟨oneBlock, twoReports, ?_⟩
  intro blocks
  have lengths := blocks.length_eq
  rw [oneBlock, twoReports] at lengths
  exact absurd lengths (by decide)

end DatasetLineage
