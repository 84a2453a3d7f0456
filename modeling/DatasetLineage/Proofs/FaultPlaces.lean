/-
Module: DatasetLineage.Proofs.FaultPlaces
Purpose: Where the faults of a program are. A fault is at a token, be it the one that stops a
  statement, and no two faults are at one token: a read statement reports a parenthesis that it
  passes over, a stray operand and its keyword, and the search for options goes on at an equals
  sign that stands in front of the token that it has just reported.
Main exports: AreFaultsAt, diagnostics_readSourceStatement, areFaultsAt_optionValues,
  Segment.tokens, Segment.areFaultsAt_read, Parsed.areFaultsAt_ofTokens,
  Parsed.areFaultsAt_ofText
-/
import DatasetLineage.Proofs.TokenUse
import Mathlib.Data.List.Perm.Subperm

namespace DatasetLineage

/-- Whether diagnostics are faults at tokens, no two of them at one token. -/
def AreFaultsAt (tokens : List Token) (diagnostics : List Diagnostic) : Prop :=
  ∃ faults : List (Token × Fault),
    diagnostics = faults.map (fun fault => fault.1.fault fault.2) ∧
      (faults.map Prod.fst).Subperm tokens

namespace AreFaultsAt

variable {tokens tokens' : List Token} {diagnostics diagnostics' : List Diagnostic}

theorem nil (tokens : List Token) : AreFaultsAt tokens [] :=
  ⟨[], rfl, List.nil_subperm⟩

theorem single {token : Token} (member : token ∈ tokens) (fault : Fault) :
    AreFaultsAt tokens [token.fault fault] :=
  ⟨[(token, fault)], rfl, (List.singleton_sublist.mpr member).subperm⟩

theorem append (first : AreFaultsAt tokens diagnostics)
    (later : AreFaultsAt tokens' diagnostics') :
    AreFaultsAt (tokens ++ tokens') (diagnostics ++ diagnostics') := by
  obtain ⟨faults, rfl, part⟩ := first
  obtain ⟨faults', rfl, part'⟩ := later
  refine ⟨faults ++ faults', by rw [List.map_append], ?_⟩
  rw [List.map_append]
  exact part.append part'

theorem mono (faulty : AreFaultsAt tokens diagnostics) (part : tokens.Subperm tokens') :
    AreFaultsAt tokens' diagnostics := by
  obtain ⟨faults, same, within⟩ := faulty
  exact ⟨faults, same, within.trans part⟩

theorem kind_eq_parse (faulty : AreFaultsAt tokens diagnostics) {diagnostic : Diagnostic}
    (member : diagnostic ∈ diagnostics) : diagnostic.problem.kind = .parse := by
  obtain ⟨faults, rfl, _⟩ := faulty
  obtain ⟨fault, _, rfl⟩ := List.mem_map.mp member
  rfl

end AreFaultsAt

/-! ### Faults of one statement -/

section Statements

/-- An operand that is passed over and one that is stray are two different occurrences. -/
theorem AreRoles.areFaultsAt {operands : List Token} {roles : List (Token × Role)}
    {place : ReadPlace} (areRoles : AreRoles operands roles place) {passed? stray? : Option Token}
    (passes : ∀ token ∈ passed?, (token, Role.passed) ∈ roles)
    (strays : ∀ token ∈ stray?, (token, Role.stray) ∈ roles) (fault fault' : Fault) :
    AreFaultsAt operands
      (passed?.toList.map (·.fault fault) ++ stray?.toList.map (·.fault fault')) := by
  have isOperand : ∀ token role, (token, role) ∈ roles → token ∈ operands :=
    fun token role member => areRoles.operands ▸ List.mem_map_of_mem (f := Prod.fst) member
  rcases passed? with _ | passed <;> rcases stray? with _ | stray
  · exact .nil operands
  · exact .single (isOperand stray .stray (strays stray rfl)) fault'
  · exact .single (isOperand passed .passed (passes passed rfl)) fault
  · have distinct : [(passed, Role.passed), (stray, Role.stray)].Nodup := by simp
    have given : [(passed, Role.passed), (stray, Role.stray)] ⊆ roles := by
      simp [passes passed rfl, strays stray rfl]
    obtain ⟨part, perm, sublist⟩ := List.subperm_of_subset distinct given
    exact ⟨[(passed, fault), (stray, fault')], rfl, part.map Prod.fst, perm.map Prod.fst,
      areRoles.operands ▸ sublist.map Prod.fst⟩

theorem diagnostics_readSourceStatement (keyword : Token) (operands : List Token) :
    (readSourceStatement keyword operands).2 =
      (readRoles operands).2.unclosed?.toList.map (·.fault .unclosedParenthesis) ++
        (tokensWithRole .stray (readRoles operands).1).head?.toList.map
          (·.fault (.unexpectedTokens keyword.spelling)) ++
        if tokensWithRole .source (readRoles operands).1 = [] then
          [keyword.fault (.missingSources keyword.spelling)]
        else [] := by
  unfold readSourceStatement
  generalize readRoles operands = read
  obtain ⟨roles, place⟩ := read
  cases place <;> cases strays : tokensWithRole .stray roles <;>
    cases sources : tokensWithRole .source roles <;>
    simp [ReadPlace.unclosed?, strays, sources]

theorem areFaultsAt_readSourceStatement (keyword : Token) (operands : List Token) :
    AreFaultsAt (keyword :: operands) (readSourceStatement keyword operands).2 := by
  have areRoles := areRoles_readRoles operands
  have strays : ∀ token ∈ (tokensWithRole .stray (readRoles operands).1).head?,
      (token, Role.stray) ∈ (readRoles operands).1 :=
    fun token isFirst => mem_tokensWithRole.mp (List.mem_of_mem_head? isFirst)
  have ofOperands := areRoles.areFaultsAt areRoles.opening strays .unclosedParenthesis
    (.unexpectedTokens keyword.spelling)
  have ofKeyword : AreFaultsAt [keyword]
      (if tokensWithRole .source (readRoles operands).1 = [] then
        [keyword.fault (.missingSources keyword.spelling)]
      else []) := by
    split
    · exact .single (List.mem_singleton_self keyword) _
    · exact .nil [keyword]
  rw [diagnostics_readSourceStatement]
  exact (ofOperands.append ofKeyword).mono (List.perm_append_singleton keyword operands).subperm

theorem areFaultsAt_readExternalStatement (keyword : Token) (operands : List Token)
    (stop : Token) :
    AreFaultsAt (operands ++ [stop]) (readExternalStatement keyword operands stop).2 := by
  have first : operands.head?.getD stop ∈ operands ++ [stop] := by
    cases operands <;> simp
  unfold readExternalStatement
  dsimp only
  split
  · exact .nil _
  · exact .single first _

/-- An option without its value is reported at the token in the place of the value. The search goes
    on in front of that token, but what it reports next stands behind it. -/
theorem areFaultsAt_optionValues (stop : Token) (tokens : List Token) :
    AreFaultsAt ((tokens ++ [stop]).drop 2) (optionValues stop tokens).diagnostics := by
  fun_induction optionValues stop tokens with
  | case1 =>
      exact .nil _
  | case2 token =>
      exact .nil _
  | case3 option equals name named isEquals =>
      exact .single (List.mem_singleton_self stop) _
  | case4 option equals name named notEquals =>
      exact .nil _
  | case5 option equals noOption =>
      exact .nil _
  | case6 option equals value rest noOption ih =>
      exact ih.mono (List.sublist_cons_self value _).subperm
  | case7 option equals value rest name named isEquals text isName found ih =>
      exact ih.mono ((List.drop_sublist 2 _).trans (List.sublist_cons_self value _)).subperm
  | case8 option equals value rest name named isEquals noName found ih =>
      -- an option that begins at the equals sign would have its value behind this token
      exact (AreFaultsAt.single (List.mem_singleton_self value) _).append ih
  | case9 option equals value rest name named notEquals ih =>
      exact ih.mono (List.sublist_cons_self value _).subperm

end Statements

/-- The tokens of a segment with the one that stops it. -/
def Segment.tokens (segment : Segment) : List Token := segment.body ++ [segment.stop]

/-! ### Faults of segments -/

section Segments

theorem Segment.areFaultsAt_readFresh (segment : Segment) :
    AreFaultsAt segment.tokens segment.readFresh.diagnostics := by
  obtain ⟨body, stop⟩ := segment
  cases body with
  | nil =>
      exact .nil _
  | cons first operands =>
      have read := readsFresh first operands stop
      generalize readFresh ⟨first :: operands, stop⟩ = reading at read
      cases read with
      | defines shape isName =>
          exact .nil _
      | @opens name rest shape isName =>
          subst shape
          have part : ((rest ++ [stop]).drop 2).Sublist (first :: name :: rest ++ [stop]) :=
            ((List.drop_sublist 2 _).cons name).cons first
          exact (areFaultsAt_optionValues stop rest).mono part.subperm
      | readsFile isInfile =>
          exact (areFaultsAt_readExternalStatement first operands stop).mono
            (List.sublist_cons_self first _).subperm
      | readsDatasets reads =>
          exact (areFaultsAt_readSourceStatement first operands).mono
            (List.sublist_append_left _ [stop]).subperm
      | faulty fault =>
          exact .single List.mem_cons_self fault
      | idle =>
          exact .nil _

/-- The faults that a segment adds are at its own tokens. -/
theorem Segment.areFaultsAt_read (segment : Segment) (openStep : Option ProcStep) :
    AreFaultsAt segment.tokens (segment.read openStep).diagnostics := by
  cases openStep with
  | none =>
      exact segment.areFaultsAt_readFresh
  | some step =>
      cases bounds : segment.boundsStep with
      | false =>
          rw [read_some_of_not_boundsStep bounds]
          exact (areFaultsAt_optionValues segment.stop segment.body).mono
            (List.drop_sublist 2 _).subperm
      | true =>
          rw [read_some_of_boundsStep bounds]
          exact segment.areFaultsAt_readFresh

theorem areFaultsAt_foldl (segments : List Segment) (openStep : Option ProcStep) :
    AreFaultsAt (segments.flatMap Segment.tokens)
      (segments.foldl Reading.add (.start openStep)).finished.diagnostics := by
  induction segments generalizing openStep with
  | nil =>
      exact .nil []
  | cons segment rest ih =>
      rw [List.foldl_cons, Reading.add_eq, Reading.finished_foldl_add, List.flatMap_cons]
      simpa [Parsed.append_def] using (segment.areFaultsAt_read openStep).append (ih _)

/-- The tokens of the segments that are complete and those behind them are the tokens that were
    cut. -/
theorem Cut.tokens_foldl_add (tokens : List Token) :
    (tokens.foldl Cut.add ⟨[], []⟩).segments.reverse.flatMap Segment.tokens ++
      (tokens.foldl Cut.add ⟨[], []⟩).body.reverse = tokens := by
  induction tokens using List.reverseRec with
  | nil =>
      rfl
  | append_singleton front last ih =>
      rw [List.foldl_append, List.foldl_cons, List.foldl_nil, Cut.add]
      conv_rhs => rw [← ih]
      by_cases separates : last.isMark ';' = true
      · rw [if_pos separates]
        simp [Segment.tokens]
      · rw [if_neg separates]
        simp

/-- The tokens of segments, with those that stop them, are tokens up to the end of the text. -/
theorem Segment.flatMap_tokens_sublist (tokens : List Token) :
    ((ofTokens tokens).flatMap Segment.tokens).Sublist
      (tokens.takeWhile (!·.isEnd) ++ [endToken tokens]) := by
  have whole := Cut.tokens_foldl_add (tokens.takeWhile (!·.isEnd))
  conv_rhs => rw [← whole]
  unfold ofTokens
  refine (List.filter_sublist.flatMap _).trans ?_
  simp [Segment.tokens]

theorem takeWhile_append_endToken_sublist {tokens : List Token}
    (ends : ∃ token ∈ tokens, token.isEnd = true) :
    (tokens.takeWhile (!·.isEnd) ++ [endToken tokens]).Sublist tokens := by
  obtain ⟨last, found⟩ := Option.isSome_iff_exists.mp (List.find?_isSome.mpr ends)
  obtain ⟨isEnd, front, back, rfl, noEnd⟩ := List.find?_eq_some_iff_append.mp found
  rw [endToken, found, List.takeWhile_append_of_pos noEnd,
    List.takeWhile_cons_of_neg (by simp [isEnd]), List.append_nil]
  exact (List.singleton_sublist.mpr List.mem_cons_self).append_left front

/-- The faults of tokens are at tokens up to the end of the text, no two of them at one token. -/
theorem Parsed.areFaultsAt_ofTokens (tokens : List Token) :
    AreFaultsAt (tokens.takeWhile (!·.isEnd) ++ [endToken tokens])
      (ofTokens tokens).diagnostics := by
  rw [ofTokens_eq_ofSegments]
  exact (areFaultsAt_foldl (Segment.ofTokens tokens) none).mono
    (Segment.flatMap_tokens_sublist tokens).subperm

theorem Scanned.exists_isEnd (text : String) :
    ∃ token ∈ (ofText text).tokens, token.isEnd = true :=
  ⟨_, List.mem_append_right _ (List.mem_singleton_self _), rfl⟩

/-- The faults of a text are at its tokens, the end of the text with them. -/
theorem Parsed.areFaultsAt_ofText (text : String) :
    AreFaultsAt (Scanned.ofText text).tokens
      (ofTokens (Scanned.ofText text).tokens).diagnostics :=
  (areFaultsAt_ofTokens _).mono
    (takeWhile_append_endToken_sublist (Scanned.exists_isEnd text)).subperm

end Segments

end DatasetLineage
