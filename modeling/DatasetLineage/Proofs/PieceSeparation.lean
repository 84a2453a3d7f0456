/-
Module: DatasetLineage.Proofs.PieceSeparation
Purpose: Which sequences of pieces come back when their spelling is cut. A piece fits where it
  stands if its own characters make such a piece and the text behind it does not go on with it. If
  every piece of a sequence fits, the sequence is cut out of its own spelling.
Main exports: wordGoesOn, TakesTail, Piece.Fits, Separated, Absorbs, Scan.adds_of_fits,
  Piece.ofText_spellingOf
-/
import DatasetLineage.Program.Piece.Spelling
import DatasetLineage.Proofs.CharacterClasses

namespace DatasetLineage

open Text

/-- Whether a word goes on with the text behind it. A dot belongs to the word only in front of
    another dot or of a character that a word may go on with. -/
def wordGoesOn : List Char → Bool
  | [] => false
  | c :: rest => isWordTail c || (c == '.' && rest.head?.any fun d => isWordTail d || d == '.')

/-- Whether a word that has begun goes on with all of `tail` and nothing of `rest`. -/
def TakesTail : List Char → List Char → Prop
  | [], rest => wordGoesOn rest = false
  | c :: tail, rest => wordGoesOn (c :: (tail ++ rest)) = true ∧ TakesTail tail rest

/-- Whether a word, with `rest` behind it, is of one piece: a letter or an underscore begins it,
    perhaps behind an ampersand. -/
def IsWordBefore (rest spelling : List Char) : Prop :=
  ∃ first tail, (spelling = first :: tail ∨ spelling = '&' :: first :: tail) ∧
    isWordStart first = true ∧ TakesTail tail rest

/-- Whether a piece, with `rest` behind it, is cut where it stands. -/
def Piece.Fits (statementStart : Bool) (rest : List Char) : Piece → Prop
  | blank c => isBlank c = true
  | blockComment body closed => ¬ ['*', '/'] <:+: body ∧ (closed = true ∨ rest = [])
  | starComment body closed => statementStart = true ∧ ';' ∉ body ∧ (closed = true ∨ rest = [])
  | quoted delimiter _ closed =>
    IsDelimiter delimiter ∧ if closed then delimiter ∉ rest.head? else rest = []
  | word spelling => IsWordBefore rest spelling
  | number spelling =>
    ∃ first tail, spelling = first :: tail ∧ first.isDigit = true ∧
      (∀ c ∈ tail, isNumberTail c = true) ∧ ∀ c ∈ rest.head?, isNumberTail c = false
  | mark c =>
    c ∈ marks ∧ (c = '/' → '*' ∉ rest.head?) ∧ (c = '*' → statementStart = false) ∧
      (c = '&' → ∀ d ∈ rest.head?, isWordStart d = false)
  | strange first more =>
    (isBlank first = false ∧ first ∉ marks ∧ ¬ IsDelimiter first ∧ isWordStart first = false ∧
      first.isDigit = false) ∧
      (∀ c ∈ more, isStrange c = true) ∧ ∀ c ∈ rest.head?, isStrange c = false

/-- Whether every piece of a sequence fits in front of the spelling of the ones behind it. -/
def Separated (statementStart : Bool) : List Piece → Prop
  | [] => True
  | piece :: rest =>
    piece.Fits statementStart (spellingOf rest) ∧
      Separated (piece.opensStatement statementStart) rest

/-- Whether a begun piece becomes `next` over a text, with no piece completed on the way. -/
def Absorbs (pending : Pending) (text : List Char) (next : Pending) : Prop :=
  ∀ done statementStart, (Scan.mk done statementStart pending).read text =
    ⟨done, statementStart, next⟩

namespace Absorbs

variable {pending middle next : Pending} {c : Char} {text rest : List Char}

theorem nil (pending : Pending) : Absorbs pending [] pending := fun _ _ => rfl

theorem cons (first : pending.advance c = .absorbed middle) (later : Absorbs middle text next) :
    Absorbs pending (c :: text) next := by
  intro done statementStart
  have step : (Scan.mk done statementStart pending).step c = ⟨done, statementStart, middle⟩ := by
    rw [Scan.step, first]
  rw [Scan.read, List.foldl_cons, step]
  exact later done statementStart

theorem append (first : Absorbs pending text middle) (later : Absorbs middle rest next) :
    Absorbs pending (text ++ rest) next := by
  intro done statementStart
  have front := first done statementStart
  rw [Scan.read] at front
  rw [Scan.read, List.foldl_append, front]
  exact later done statementStart

end Absorbs

/-- A word takes on a tail that it goes on with. A dot that was read in front of more of the word
    is as good as taken. -/
theorem Scan.read_word_tail {tail rest : List Char} (takes : TakesTail tail rest)
    (done : List Piece) (statementStart : Bool) (spelling : List Char) :
    (Scan.mk done statementStart (.word spelling)).read (tail ++ rest) =
      (Scan.mk done statementStart (.word (tail.reverse ++ spelling))).read rest := by
  induction tail generalizing spelling with
  | nil =>
      rfl
  | cons c tail ih =>
      obtain ⟨goesOn, later⟩ := takes
      have taken := ih later (c :: spelling)
      rw [List.reverse_cons, List.append_assoc, List.singleton_append, ← taken]
      by_cases plain : isWordTail c = true
      · simp [Scan.read, Scan.step, Pending.advance, plain]
      · cases behind : tail ++ rest with
        | nil =>
            simp [wordGoesOn, plain, behind] at goesOn
        | cons d more =>
            simp [wordGoesOn, plain, behind] at goesOn
            obtain ⟨rfl, continues⟩ := goesOn
            rw [List.cons_append, behind]
            rcases continues with plain' | rfl
            · simp [Scan.read, Scan.step, Pending.advance, plain, plain']
            · simp [Scan.read, Scan.step, Pending.advance, plain]

namespace Scan

/-- There is nothing to settle if nothing has been begun. -/
theorem settle_of_idle {scan : Scan} (idle : scan.pending = .nothing) : scan.settle = scan := by
  obtain ⟨pieces, statementStart, pending⟩ := scan
  cases idle
  rfl

theorem step_of_idle {scan : Scan} (idle : scan.pending = .nothing) (c : Char) :
    scan.step c = scan.begin c := by
  rw [step, idle, Pending.advance, settle_of_idle idle]

/-- If the text behind does not go on with what has been begun, that is as good as settled. -/
theorem settle_read_of_released {scan : Scan} {rest : List Char}
    (released : ∀ c ∈ rest.head?, scan.pending.advance c = .released) :
    (scan.read rest).settle = (scan.settle.read rest).settle := by
  cases rest with
  | nil =>
      exact (settle_of_idle (pending_settle scan)).symm
  | cons c rest =>
      have step : scan.step c = scan.settle.step c := by
        rw [step_of_idle (pending_settle scan), Scan.step, released c rfl]
      rw [read, read, List.foldl_cons, List.foldl_cons, step]

variable {done : List Piece} {statementStart : Bool} {pending begun : Pending} {piece : Piece}
  {c : Char} {text rest : List Char}

/-- A piece of one character. -/
theorem read_of_opening_piece (opened : opening statementStart c = .inr piece) :
    (Scan.mk done statementStart .nothing).read (c :: rest) =
      ((Scan.mk done statementStart .nothing).add piece).read rest := by
  rw [read, List.foldl_cons, step_of_idle rfl, begin, opened]
  rfl

/-- What a character begins takes on the text that it absorbs. -/
theorem read_of_opening (opened : opening statementStart c = .inl pending)
    (absorbs : Absorbs pending text begun) :
    (Scan.mk done statementStart .nothing).read (c :: (text ++ rest)) =
      (Scan.mk done statementStart begun).read rest := by
  have absorbed := absorbs done statementStart
  rw [read] at absorbed
  rw [read, List.foldl_cons, step_of_idle rfl, begin, opened, List.foldl_append, absorbed]
  rfl

/-- A piece that the text behind it ends. -/
theorem settle_read_of_settled (opened : opening statementStart c = .inl pending)
    (absorbs : Absorbs pending text begun) (settled : begun.settled = [piece])
    (released : ∀ d ∈ rest.head?, begun.advance d = .released) :
    ((Scan.mk done statementStart .nothing).read (c :: (text ++ rest))).settle =
      (((Scan.mk done statementStart .nothing).add piece).read rest).settle := by
  have added : (Scan.mk done statementStart begun).settle =
      (Scan.mk done statementStart .nothing).add piece := by
    rw [settle, settled]
    rfl
  rw [read_of_opening opened absorbs, settle_read_of_released released, added]

/-- A piece that its last character ends. -/
theorem read_of_completed (opened : opening statementStart c = .inl pending)
    (absorbs : Absorbs pending text begun) {last : Char}
    (completed : begun.advance last = .completed piece) :
    (Scan.mk done statementStart .nothing).read (c :: (text ++ last :: rest)) =
      ((Scan.mk done statementStart .nothing).add piece).read rest := by
  rw [read_of_opening opened absorbs, read, List.foldl_cons, step, completed]
  rfl

end Scan

/-! ### Bodies of comments and literals -/

section Bodies

variable {body : List Char}

/-- What has been read of the body of a comment, latest first, a star at its end included. -/
def heldBody (acc : List Char) (star : Bool) : List Char := if star then '*' :: acc else acc

/-- A comment takes on a body in which it is not closed. -/
theorem absorbs_commentBody (acc : List Char) (star : Bool)
    (open' : ¬ ['*', '/'] <:+: if star then '*' :: body else body) :
    ∃ acc' star', Absorbs (.blockComment acc star) body (.blockComment acc' star') ∧
      heldBody acc' star' = body.reverse ++ heldBody acc star := by
  induction body generalizing acc star with
  | nil =>
      exact ⟨acc, star, .nil _, rfl⟩
  | cons c rest ih =>
      cases star with
      | false =>
          by_cases isStar : c = '*'
          · subst isStar
            obtain ⟨acc', star', absorbs, held⟩ := ih acc true open'
            exact ⟨acc', star', absorbs.cons rfl, held.trans (by simp [heldBody])⟩
          · have later : ¬ ['*', '/'] <:+: rest := fun inside =>
              open' (inside.trans (List.suffix_cons c rest).isInfix)
            obtain ⟨acc', star', absorbs, held⟩ := ih (c :: acc) false later
            refine ⟨acc', star', absorbs.cons ?_, held.trans (by simp [heldBody])⟩
            rw [Pending.advance, if_neg isStar]
      | true =>
          have notSlash : c ≠ '/' := by
            intro slash
            subst slash
            exact open' ⟨[], rest, rfl⟩
          have later : ¬ ['*', '/'] <:+: c :: rest := fun inside =>
            open' (inside.trans (List.suffix_cons '*' (c :: rest)).isInfix)
          by_cases isStar : c = '*'
          · subst isStar
            obtain ⟨acc', star', absorbs, held⟩ := ih ('*' :: acc) true later
            exact ⟨acc', star', absorbs.cons rfl, held.trans (by simp [heldBody])⟩
          · have later' : ¬ ['*', '/'] <:+: rest := fun inside =>
              later (inside.trans (List.suffix_cons c rest).isInfix)
            obtain ⟨acc', star', absorbs, held⟩ := ih (c :: '*' :: acc) false later'
            refine ⟨acc', star', absorbs.cons ?_, held.trans (by simp [heldBody])⟩
            rw [Pending.advance, if_neg notSlash, if_neg isStar]

theorem absorbs_starBody (acc : List Char) (body : List Char) (noEnd : ';' ∉ body) :
    Absorbs (.starComment acc) body (.starComment (body.reverse ++ acc)) := by
  induction body generalizing acc with
  | nil =>
      exact .nil _
  | cons c rest ih =>
      rw [List.mem_cons, not_or] at noEnd
      have later := ih (c :: acc) noEnd.2
      rw [List.reverse_cons, List.append_assoc, List.singleton_append]
      apply later.cons
      rw [Pending.advance, if_neg (Ne.symm noEnd.1)]

/-- A literal takes on a value whose delimiters are doubled. -/
theorem absorbs_doubled (delimiter : Char) (acc value : List Char) :
    Absorbs (.quoted delimiter acc) (doubled delimiter value)
      (.quoted delimiter (value.reverse ++ acc)) := by
  induction value generalizing acc with
  | nil =>
      exact .nil _
  | cons c rest ih =>
      have later := ih (c :: acc)
      rw [List.reverse_cons, List.append_assoc, List.singleton_append]
      by_cases same : c = delimiter
      · subst same
        have split : doubled c (c :: rest) = c :: c :: doubled c rest := by
          simp [doubled]
        have seen : (Pending.quoted c acc).advance c = .absorbed (.quoteSeen c acc) := by
          simp [Pending.advance]
        have undone : (Pending.quoteSeen c acc).advance c = .absorbed (.quoted c (c :: acc)) := by
          simp [Pending.advance]
        rw [split]
        exact (later.cons undone).cons seen
      · have split : doubled delimiter (c :: rest) = c :: doubled delimiter rest := by
          simp [doubled, same]
        have taken : (Pending.quoted delimiter acc).advance c =
            .absorbed (.quoted delimiter (c :: acc)) := by
          simp [Pending.advance, same]
        rw [split]
        exact later.cons taken

theorem absorbs_number (acc tail : List Char) (goesOn : ∀ c ∈ tail, isNumberTail c = true) :
    Absorbs (.number acc) tail (.number (tail.reverse ++ acc)) := by
  induction tail generalizing acc with
  | nil =>
      exact .nil _
  | cons c rest ih =>
      rw [List.forall_mem_cons] at goesOn
      have later := ih (c :: acc) goesOn.2
      rw [List.reverse_cons, List.append_assoc, List.singleton_append]
      exact later.cons (by rw [Pending.advance, if_pos goesOn.1])

theorem absorbs_strange (first : Char) (acc more : List Char)
    (goesOn : ∀ c ∈ more, isStrange c = true) :
    Absorbs (.strange first acc) more (.strange first (more.reverse ++ acc)) := by
  induction more generalizing acc with
  | nil =>
      exact .nil _
  | cons c rest ih =>
      rw [List.forall_mem_cons] at goesOn
      have later := ih (c :: acc) goesOn.2
      rw [List.reverse_cons, List.append_assoc, List.singleton_append]
      exact later.cons (by rw [Pending.advance, if_pos goesOn.1])

end Bodies

/-! ### Pieces that are added -/

namespace Scan

variable {done : List Piece} {statementStart closed : Bool} {rest : List Char}

/-- Whether reading the spelling of a piece is as good as adding the piece. -/
def Adds (done : List Piece) (statementStart : Bool) (rest : List Char) (piece : Piece) : Prop :=
  ((Scan.mk done statementStart .nothing).read (piece.spelling ++ rest)).settle =
    (((Scan.mk done statementStart .nothing).add piece).read rest).settle

theorem adds_blockComment {body : List Char} (open' : ¬ ['*', '/'] <:+: body)
    (ends : closed = true ∨ rest = []) :
    Adds done statementStart rest (.blockComment body closed) := by
  obtain ⟨acc, star, absorbs, held⟩ := absorbs_commentBody [] false open'
  have begun : Absorbs .slash ('*' :: body) (.blockComment acc star) := absorbs.cons rfl
  have same : heldBody acc star = body.reverse := by
    simpa [heldBody] using held
  unfold Adds
  cases closed with
  | false =>
      have noMore : rest = [] := ends.resolve_left Bool.false_ne_true
      subst noMore
      have text : (Piece.blockComment body false).spelling ++ [] =
          '/' :: (('*' :: body) ++ []) := by
        simp [Piece.spelling]
      have settled : (Pending.blockComment acc star).settled = [.blockComment body false] := by
        rw [← List.reverse_reverse body, ← same]
        cases star <;> rfl
      rw [text]
      exact settle_read_of_settled (opening_slash _) begun settled (by simp)
  | true =>
      have text : (Piece.blockComment body true).spelling ++ rest =
          '/' :: (('*' :: body ++ ['*']) ++ '/' :: rest) := by
        simp [Piece.spelling]
      have star' : Absorbs (.blockComment acc star) ['*'] (.blockComment body.reverse true) := by
        rw [← same]
        cases star with
        | false =>
            exact .cons rfl (.nil _)
        | true =>
            exact .cons rfl (.nil _)
      have completed : (Pending.blockComment body.reverse true).advance '/' =
          .completed (.blockComment body true) := by
        simp [Pending.advance]
      rw [text, read_of_completed (opening_slash _) (begun.append star') completed]

theorem adds_starComment {body : List Char} (noEnd : ';' ∉ body)
    (ends : closed = true ∨ rest = []) : Adds done true rest (.starComment body closed) := by
  have begun := absorbs_starBody [] body noEnd
  have opened : opening true '*' = .inl (.starComment []) := by decide
  rw [List.append_nil] at begun
  unfold Adds
  cases closed with
  | false =>
      have noMore : rest = [] := ends.resolve_left Bool.false_ne_true
      subst noMore
      have text : (Piece.starComment body false).spelling ++ [] = '*' :: (body ++ []) := by
        simp [Piece.spelling]
      rw [text]
      exact settle_read_of_settled opened begun (by simp [Pending.settled]) (by simp)
  | true =>
      have text : (Piece.starComment body true).spelling ++ rest =
          '*' :: (body ++ ';' :: rest) := by
        simp [Piece.spelling]
      have completed : (Pending.starComment body.reverse).advance ';' =
          .completed (.starComment body true) := by
        simp [Pending.advance]
      rw [text, read_of_completed opened begun completed]

theorem adds_quoted {delimiter : Char} {value : List Char} (isDelimiter : IsDelimiter delimiter)
    (ends : if closed then delimiter ∉ rest.head? else rest = []) :
    Adds done statementStart rest (.quoted delimiter value closed) := by
  have begun := absorbs_doubled delimiter [] value
  have opened := opening_of_isDelimiter isDelimiter statementStart
  rw [List.append_nil] at begun
  unfold Adds
  cases closed with
  | false =>
      have noMore : rest = [] := ends
      subst noMore
      have text : (Piece.quoted delimiter value false).spelling ++ [] =
          delimiter :: (doubled delimiter value ++ []) := by
        simp [Piece.spelling]
      rw [text]
      exact settle_read_of_settled opened begun (by simp [Pending.settled]) (by simp)
  | true =>
      have text : (Piece.quoted delimiter value true).spelling ++ rest =
          delimiter :: ((doubled delimiter value ++ [delimiter]) ++ rest) := by
        simp [Piece.spelling]
      have seen : Absorbs (.quoted delimiter value.reverse) [delimiter]
          (.quoteSeen delimiter value.reverse) :=
        .cons (by simp [Pending.advance]) (.nil _)
      have released : ∀ d ∈ rest.head?,
          (Pending.quoteSeen delimiter value.reverse).advance d = .released := by
        intro d isNext
        have other : d ≠ delimiter := fun same => ends (same ▸ isNext)
        rw [Pending.advance, if_neg other]
      rw [text]
      exact settle_read_of_settled opened (begun.append seen) (by simp [Pending.settled]) released

theorem adds_number {first : Char} {tail : List Char} (digit : first.isDigit = true)
    (goesOn : ∀ c ∈ tail, isNumberTail c = true)
    (ends : ∀ c ∈ rest.head?, isNumberTail c = false) :
    Adds done statementStart rest (.number (first :: tail)) := by
  have released : ∀ d ∈ rest.head?,
      (Pending.number (tail.reverse ++ [first])).advance d = .released := by
    intro d isNext
    simp [Pending.advance, ends d isNext]
  exact settle_read_of_settled (opening_of_isDigit digit _) (absorbs_number [first] tail goesOn)
    (by simp [Pending.settled]) released

theorem adds_strange {first : Char} {more : List Char}
    (opened : opening statementStart first = .inl (.strange first []))
    (goesOn : ∀ c ∈ more, isStrange c = true) (ends : ∀ c ∈ rest.head?, isStrange c = false) :
    Adds done statementStart rest (.strange first more) := by
  have released : ∀ d ∈ rest.head?,
      (Pending.strange first (more.reverse ++ [])).advance d = .released := by
    intro d isNext
    simp [Pending.advance, ends d isNext]
  exact settle_read_of_settled opened (absorbs_strange first [] more goesOn)
    (by simp [Pending.settled]) released

theorem adds_mark {c : Char} (listed : c ∈ marks) (notComment : c = '/' → '*' ∉ rest.head?)
    (inStatement : c = '*' → statementStart = false)
    (notWord : c = '&' → ∀ d ∈ rest.head?, isWordStart d = false) :
    Adds done statementStart rest (.mark c) := by
  by_cases slash : c = '/'
  · subst slash
    have released : ∀ d ∈ rest.head?, Pending.slash.advance d = .released := by
      intro d isNext
      have other : d ≠ '*' := fun same => notComment rfl (same ▸ isNext)
      rw [Pending.advance, if_neg other]
    exact settle_read_of_settled (opening_slash _) (.nil _) rfl released
  · by_cases ampersand : c = '&'
    · subst ampersand
      have released : ∀ d ∈ rest.head?, Pending.ampersand.advance d = .released := by
        intro d isNext
        simp [Pending.advance, notWord rfl d isNext]
      exact settle_read_of_settled (opening_ampersand _) (.nil _) rfl released
    · have opened := opening_of_mem_marks listed slash inStatement ampersand
      exact congrArg settle (read_of_opening_piece opened)

/-- A word whose end has been reached is settled, also if a dot stands behind it. -/
theorem settle_read_word (ends : wordGoesOn rest = false) (spelling : List Char) :
    ((Scan.mk done statementStart (.word spelling)).read rest).settle =
      (((Scan.mk done statementStart .nothing).add (.word spelling.reverse)).read rest).settle := by
  by_cases dot : ∃ more, rest = '.' :: more
  · obtain ⟨more, rfl⟩ := dot
    -- the dot has to be looked behind before it is known to be no part of the word
    have released : ∀ d ∈ more.head?, (Pending.wordDot spelling).advance d = .released := by
      intro d isNext
      cases more with
      | nil =>
          simp at isNext
      | cons e more =>
          simp at isNext
          subst isNext
          simp [wordGoesOn] at ends
          simp [Pending.advance, ends]
    have opened : ∀ start, opening start '.' = .inr (.mark '.') := by decide
    have notTail : isWordTail '.' = false := by decide
    have step : (Scan.mk done statementStart (.word spelling)).step '.' =
        ⟨done, statementStart, .wordDot spelling⟩ := by
      simp [Scan.step, Pending.advance, notTail]
    rw [read, List.foldl_cons, step]
    refine (settle_read_of_released released).trans ?_
    rw [add, read_of_opening_piece (opened _)]
    rfl
  · have released : ∀ d ∈ rest.head?, (Pending.word spelling).advance d = .released := by
      intro d isNext
      cases rest with
      | nil =>
          simp at isNext
      | cons e more =>
          simp at isNext
          subst isNext
          have notDot : e ≠ '.' := fun same => dot ⟨more, by rw [same]⟩
          simp [wordGoesOn, notDot] at ends
          simp [Pending.advance, ends, notDot]
    exact settle_read_of_released released

theorem adds_word {spelling : List Char} (isWord : IsWordBefore rest spelling) :
    Adds done statementStart rest (.word spelling) := by
  obtain ⟨first, tail, shape, starts, takes⟩ := isWord
  have ends : wordGoesOn rest = false := by
    clear shape
    induction tail with
    | nil =>
        exact takes
    | cons c tail ih =>
        exact ih takes.2
  unfold Adds
  rcases shape with rfl | rfl
  · have opened := opening_of_isWordStart starts statementStart
    have text : (Piece.word (first :: tail)).spelling ++ rest = first :: ([] ++ (tail ++ rest)) :=
      rfl
    rw [text, read_of_opening opened (.nil _), read_word_tail takes, settle_read_word ends]
    simp
  · have opened := opening_ampersand statementStart
    have begun : Absorbs .ampersand [first] (.word [first, '&']) :=
      .cons (by rw [Pending.advance, if_pos starts]) (.nil _)
    have text : (Piece.word ('&' :: first :: tail)).spelling ++ rest =
        '&' :: ([first] ++ (tail ++ rest)) := rfl
    rw [text, read_of_opening opened begun, read_word_tail takes, settle_read_word ends]
    simp

/-- Reading the spelling of a piece that fits is as good as adding the piece. -/
theorem adds_of_fits {piece : Piece} (fits : piece.Fits statementStart rest) :
    Adds done statementStart rest piece := by
  cases piece with
  | blank c =>
      exact congrArg settle (read_of_opening_piece (opening_of_isBlank fits statementStart))
  | blockComment body closed =>
      exact adds_blockComment fits.1 fits.2
  | starComment body closed =>
      obtain ⟨atStart, noEnd, ends⟩ := fits
      cases atStart
      exact adds_starComment noEnd ends
  | quoted delimiter value closed =>
      exact adds_quoted fits.1 fits.2
  | word spelling =>
      exact adds_word fits
  | number spelling =>
      obtain ⟨first, tail, rfl, digit, goesOn, ends⟩ := fits
      exact adds_number digit goesOn ends
  | mark c =>
      obtain ⟨listed, notComment, inStatement, notWord⟩ := fits
      exact adds_mark listed notComment inStatement notWord
  | strange first more =>
      obtain ⟨⟨notBlank, notMark, notDelimiter, notStart, notDigit⟩, goesOn, ends⟩ := fits
      exact adds_strange (opening_of_strange notBlank notMark notDelimiter notStart notDigit _)
        goesOn ends

/-- The spelling of separated pieces is read as these pieces. -/
theorem pieces_settle_read_spellingOf (done : List Piece) {pieces : List Piece}
    (separated : Separated statementStart pieces) :
    ((Scan.mk done statementStart .nothing).read (spellingOf pieces)).settle.pieces =
      pieces.reverse ++ done := by
  induction pieces generalizing done statementStart with
  | nil =>
      rfl
  | cons piece rest ih =>
      obtain ⟨fits, later⟩ := separated
      have added : Adds done statementStart (spellingOf rest) piece := adds_of_fits fits
      rw [spellingOf_cons, added, add, ih _ later]
      simp

end Scan

/-- Separated pieces are cut out of their own spelling. -/
theorem Piece.ofText_spellingOf {pieces : List Piece} (separated : Separated true pieces) :
    Piece.ofText (spellingOf pieces) = pieces := by
  have read := Scan.pieces_settle_read_spellingOf [] separated
  rw [Piece.ofText, Scan.start, read]
  simp

end DatasetLineage
